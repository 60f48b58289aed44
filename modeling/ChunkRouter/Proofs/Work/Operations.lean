import ChunkRouter.Work.Queue

/-!
# Operations of a queue

What each operation does to a queue, as an equation. Claiming, starting, settling and closing concern the
flags, clearing and taking the ring; the rest of the queue stays as it was.
-/

namespace ChunkRouter.Work.Queue

variable {α : Type}

/-- Nothing is kept of nothing. -/
theorem isEmpty_clear {q : Queue α} (h : q.isEmpty = true) (keep : α → Except Panic Bool) :
    (q.clear keep).1.isEmpty = true := by
  have hlen : q.ring.len = 0 := by simpa [isEmpty, Ring.isEmpty] using h
  simp [clear, Ring.retain, hlen, Ring.retainLoop, isEmpty, Ring.isEmpty]

/-- Clearing concerns the items only. -/
theorem clear_eq (q : Queue α) (keep : α → Except Panic Bool) :
    (q.clear keep).1 =
      { q with ring := (q.clear keep).1.ring, meter := (q.clear keep).1.meter } := by
  unfold clear
  rcases q.ring.retain keep with ⟨ring, panic | dropped⟩ <;> rfl

theorem claim_eq (q : Queue α) :
    q.claim = ({ q with processing := q.processing || q.isIdleWithWork }, q.isIdleWithWork) := by
  unfold claim
  cases hw : q.isIdleWithWork
  · simp
  · simp

theorem enqueue_of_closed {q : Queue α} (h : q.closed = true) (x : α) :
    q.enqueue x = ({ q with meter := q.meter.bump (.itemsDropped .afterClose) }, .refused) := by
  rw [enqueue, if_pos h]

/-- An item that is accepted wakes a processor if the queue runs and nobody is at it. -/
theorem enqueue_of_open {q : Queue α} (h : q.closed = false) (x : α) :
    q.enqueue x =
      ({ q with
          ring := q.ring.push x
          meter := q.meter.bump .itemsEnqueued
          processing := q.processing || q.started },
        .accepted (q.started && !q.processing)) := by
  have hidle : isIdleWithWork
      { q with ring := q.ring.push x, meter := q.meter.bump .itemsEnqueued } =
        (q.started && !q.processing) := by
    show (q.started && !q.processing && true) = _
    rw [Bool.and_true]
  rw [enqueue, if_neg (by simp [h]), claim_eq, hidle]
  cases hp : q.processing <;> simp

theorem start_eq (q : Queue α) :
    q.start =
      ({ q with started := true, processing := q.processing || !q.isEmpty },
        !q.processing && !q.isEmpty) := by
  have hidle : isIdleWithWork { q with started := true } = (!q.processing && !q.isEmpty) := rfl
  rw [start, claim_eq, hidle]
  cases hp : q.processing <;> simp

theorem close_eq (q : Queue α) :
    q.close.1 = { q with ring := q.close.1.ring, closed := true, meter := q.close.1.meter } := by
  unfold close
  cases h : q.closed
  · rfl
  · simp [← h]

/-- A processor that is told to stop is released; a batch leaves everything but the items alone. -/
theorem take_cases (q : Queue α) :
    (q.take = ({ q with processing := false }, none) ∧
        (q.closed = true ∨ q.started = false ∨ q.isEmpty = true)) ∨
      ∃ ring batch, q.take = ({ q with ring := ring }, some batch) ∧ q.closed = false ∧
        q.started = true ∧ q.isEmpty = false := by
  unfold take
  split
  · rename_i h
    left
    simpa [isEmpty, or_assoc] using h
  · rename_i h
    right
    refine ⟨_, _, rfl, ?_⟩
    simpa [isEmpty, and_assoc] using h

theorem settle_eq (q : Queue α) :
    q.settle = ({ q with processing := q.processing && !q.isEmpty }, !q.isEmpty) := by
  unfold settle
  cases h : q.ring.isEmpty <;> simp [isEmpty, h]

theorem len_pos_of_isEmpty {q : Queue α} (h : q.isEmpty = false) : 0 < q.len := by
  rw [isEmpty, Ring.isEmpty, beq_eq_false_iff_ne] at h
  exact Nat.pos_of_ne_zero h

end ChunkRouter.Work.Queue
