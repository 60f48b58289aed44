import ChunkRouter.Proofs.Pipeline.Resuming

/-!
# Steady queues

While nothing panics, no cell of a queue is empty, and what waits in an open queue that runs has its drain
task. `Flows` is what is known then of a pipeline that is open and runs, and what its drain task and its
callers make of it.
-/

namespace ChunkRouter

open Work

variable {α : Type}

/-! ## Queues in which nothing panics -/

namespace Work

namespace Queue

variable {q : Queue α}

/-- No cell is empty, and what waits while the open queue runs has a processor. -/
structure Steady (q : Queue α) : Prop where
  whole : q.Whole
  attended : q.closed = false → q.started = true → q.isEmpty = false → q.processing = true

theorem steady_new (settings : Settings) (started : Bool) : (new settings started : Queue α).Steady where
  whole := whole_new settings started
  attended := by
    intro _ _ hempty
    rw [(lists_new settings started).isEmpty_eq] at hempty
    cases hempty

/-- A use that does not panic, and that a processor makes if it is a processor's. -/
def Use.Orderly (q : Queue α) : Use α → Prop
  | .take | .settle => q.processing = true
  | .abandon => False
  | .clear keep => ∃ n, (q.clear keep).2 = .ok n
  | .enqueue _ | .start | .stop | .close => True

theorem Steady.use (h : q.Steady) {u : Use α} (hu : u.Orderly q) : (q.use u).Steady := by
  have hwhole : (q.use u).Whole := by
    cases u with
    | clear keep =>
      obtain ⟨n, hok⟩ := hu
      exact h.whole.clear hok
    | enqueue x | take | settle | abandon | start | stop | close =>
      refine h.whole.use fun keep hu => ?_
      cases hu
  refine ⟨hwhole, fun hopen hstarted hempty => ?_⟩
  rw [closed_use, Bool.or_eq_false_iff] at hopen
  obtain ⟨hopen, hcloses⟩ := hopen
  cases u with
  | enqueue x =>
    rw [Queue.use, enqueue_of_open hopen] at hstarted ⊢
    show (q.processing || q.started) = true
    rw [show q.started = true from hstarted, Bool.or_true]
  | take =>
    rcases q.take_cases with ⟨htake, hstop⟩ | ⟨ring, batch, htake, -⟩
    · rw [Queue.use, htake] at hstarted hempty
      rcases hstop with hstop | hstop | hstop
      · cases hopen.symm.trans hstop
      · cases hstop.symm.trans hstarted
      · cases hstop.symm.trans hempty
    · rw [Queue.use, htake]
      exact hu
  | settle =>
    rw [Queue.use, settle_eq] at hempty ⊢
    show (q.processing && !q.isEmpty) = true
    rw [show q.processing = true from hu, show q.isEmpty = false from hempty]
    rfl
  | abandon => exact hu.elim
  | clear keep =>
    rw [Queue.use, clear_eq] at hstarted ⊢
    refine h.attended hopen hstarted ?_
    cases hq : q.isEmpty with
    | false => rfl
    | true => cases hempty.symm.trans (isEmpty_clear hq keep)
  | start =>
    rw [Queue.use, start_eq] at hempty ⊢
    show (q.processing || !q.isEmpty) = true
    rw [show q.isEmpty = false from hempty, Bool.not_false, Bool.or_true]
  | stop => cases hstarted
  | close => cases hcloses

theorem bulkSize_use (q : Queue α) (u : Use α) : (q.use u).bulkSize = q.bulkSize := by
  cases u with
  | enqueue x =>
    cases hclosed : q.closed
    · rw [use, enqueue_of_open hclosed]
    · rw [use, enqueue_of_closed hclosed]
  | take => rcases q.take_cases with ⟨htake, -⟩ | ⟨ring, batch, htake, -⟩ <;> rw [use, htake]
  | settle => rw [use, settle_eq]
  | abandon => rfl
  | clear keep => rw [use, clear_eq]
  | start => rw [use, start_eq]
  | stop => rfl
  | close => rw [use, close_eq]

/-- Memory for one more item is there, or it is not. -/
theorem of_reserveSlot_error {slot : Nat} {panic : Panic} (h : q.reserveSlot slot = .error panic) :
    panic = .capacityOverflow ∨ panic = .sumOverflow := by
  unfold reserveSlot Memory.extend Memory.reserve at h
  split at h
  · cases h
  · split at h
    · split at h
      · cases h
      · cases h
        exact .inl rfl
    · cases h
      exact .inr rfl

end Queue

end Work

namespace Pipeline

/-! ## Pipelines that run -/

/-- The pipeline is open and runs; `items` wait in it, to be handed over `bulk` at a time. -/
structure Flows (lane : Lane.Token) (bulk : Nat) (p : Pipeline α) (items : List α) : Prop where
  lists : p.queue.Lists items
  isOpen : p.queue.closed = false
  started : p.queue.started = true
  live : p.cancelled = false
  bulk_eq : p.queue.bulkSize = bulk
  lane_eq : p.lane = lane

section

variable {lane : Lane.Token} {bulk : Nat} {p : Pipeline α} {items : List α}

theorem Flows.beginDrain (h : Flows lane bulk p items) (hne : items ≠ []) :
    ∃ p', p.beginDrain = (p', some (items.take bulk)) ∧ Flows lane bulk p' (items.drop bulk) ∧
      p'.queue.processing = p.queue.processing := by
  obtain ⟨hlists, hopen, hstarted, hlive, rfl, hlane⟩ := h
  obtain ⟨ring, htake⟩ := hlists.take_eq hopen hstarted hne
  obtain ⟨rest, hitems, hrest, -⟩ := hlists.take htake
  have hdrop : rest = items.drop p.queue.bulkSize :=
    List.append_cancel_left (hitems.symm.trans (List.take_append_drop _ items).symm)
  subst hdrop
  refine ⟨{ p with queue := { p.queue with ring := ring } }, ?_,
    ⟨hrest, hopen, hstarted, hlive, rfl, hlane⟩, rfl⟩
  rw [Pipeline.beginDrain, if_neg (by simp [hlive]), htake]

theorem Flows.endDrain (h : Flows lane bulk p items) (hprocessing : p.queue.processing = true) :
    ∃ p', p.endDrain = (p', !items.isEmpty) ∧ Flows lane bulk p' items ∧
      p'.queue.processing = !items.isEmpty := by
  have hempty := h.lists.isEmpty_eq
  refine ⟨{ p with queue := { p.queue with processing := !items.isEmpty } }, ?_,
    ⟨h.lists, h.isOpen, h.started, h.live, h.bulk_eq, h.lane_eq⟩, rfl⟩
  rw [Pipeline.endDrain, Queue.settle_eq, hprocessing, hempty]
  simp [h.isOpen]

/-- A drain task is at work, so an item that is accepted asks for none. -/
theorem Flows.enqueue (h : Flows lane bulk p items) (hprocessing : p.queue.processing = true) (x : α) :
    ∃ p', p.enqueue x = (p', .accepted false) ∧ Flows lane bulk p' (items ++ [x]) ∧
      p'.queue.processing = true := by
  have hlists := h.lists.enqueue h.isOpen x
  rcases henqueue : p.queue.enqueue x with ⟨q, admission⟩
  rw [henqueue] at hlists
  rw [Queue.enqueue_of_open h.isOpen, hprocessing, Bool.not_true, Bool.and_false] at henqueue
  cases henqueue
  refine ⟨{ p with queue := _ }, ?_, ⟨hlists, h.isOpen, h.started, h.live, h.bulk_eq, h.lane_eq⟩, rfl⟩
  rw [Pipeline.enqueue, Queue.enqueue_of_open h.isOpen, hprocessing, Bool.not_true, Bool.and_false]

end

namespace Drainage

section

variable {slot : Nat} {lane : Lane.Token} {w : Drainage α} {m : Move α}

/-- A move that does not panic makes an orderly use of the queue. -/
theorem Manned.orderly (hm : w.Manned lane 0) {u : Queue.Use α} (huses : w.Uses slot m u)
    (hpanics : (w.step slot m).panics = w.panics) : u.Orderly w.pipeline.queue := by
  cases huses with
  | enqueue x memory => exact trivial
  | start => exact trivial
  | stop => exact trivial
  | close => exact trivial
  | begin i task live => exact (hm.alone task).2.2.2
  | finish i task => exact (hm.alone task).2.2.2
  | fail i batch task =>
    simp only [Drainage.step, task, Drainage.fail] at hpanics
    exact absurd hpanics (Nat.succ_ne_self _)
  | clear =>
    simp only [Drainage.step, Drainage.clear, Pipeline.clear] at hpanics
    rcases hclear : w.pipeline.queue.clear w.pipeline.keep with ⟨q, panic | n⟩
    · rw [hclear] at hpanics
      exact absurd hpanics (Nat.succ_ne_self _)
    · exact ⟨n, congrArg Prod.snd hclear⟩

theorem Manned.steady_step (hm : w.Manned lane 0) (h : w.pipeline.queue.Steady)
    (hpanics : (w.step slot m).panics = w.panics) : (w.step slot m).pipeline.queue.Steady := by
  rw [pipeline_step]
  cases hu : w.use? slot m with
  | none => exact h
  | some u => exact h.use (hm.orderly (uses_of_use? hu) hpanics)

theorem bulkSize_run (slot : Nat) (lane : Lane.Token) (settings : Settings) (started : Bool)
    (keep : α → Except Panic Bool) (moves : List (Move α)) :
    (run slot (opened lane settings started keep) moves).pipeline.queue.bulkSize = settings.bulkSize := by
  refine foldl_keeps (P := fun w => w.pipeline.queue.bulkSize = settings.bulkSize) ?_ rfl moves
  intro w m h
  exact queue_step (P := fun q => q.bulkSize = settings.bulkSize) h
    (fun u _ => (Queue.bulkSize_use _ u).trans h) m

/-- While nothing panics the queue is steady. -/
theorem steady_run (slot : Nat) (lane : Lane.Token) (settings : Settings) (started : Bool)
    (keep : α → Except Panic Bool) {moves : List (Move α)}
    (hpanics : (run slot (opened lane settings started keep) moves).panics = 0) :
    (run slot (opened lane settings started keep) moves).pipeline.queue.Steady := by
  unfold run at hpanics ⊢
  suffices hall : ∀ w : Drainage α, w.Manned lane 0 → w.pipeline.queue.Steady →
      (moves.foldl (step slot) w).panics = w.panics →
      (moves.foldl (step slot) w).pipeline.queue.Steady from
    hall _ (manned_new lane settings started keep) (Queue.steady_new settings started) hpanics
  clear hpanics
  induction moves with
  | nil => exact fun w _ h _ => h
  | cons m moves ih =>
    intro w hm h hpanics
    rw [List.foldl_cons] at hpanics ⊢
    have hle := (le_panics_step slot w m).1
    have hle' := le_panics_foldl slot (w.step slot m) moves
    exact ih _ (hm.step slot m) (hm.steady_step h (by omega)) (by omega)

end

end Drainage

end Pipeline

end ChunkRouter
