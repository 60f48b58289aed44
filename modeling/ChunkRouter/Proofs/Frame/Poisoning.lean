import ChunkRouter.Proofs.Frame.Midway

/-!
# Poisoned readers

A framing error stops a reader for good, since the stream can no longer be cut at the right places.
`Reader.outcome` is what an operation gives its caller. On a poisoned reader it is the operation's
`refusal`, and nothing of the reader changes. `Counted` says that an error is counted when it poisons
the reader, and that none is counted afterwards.
-/

namespace ChunkRouter.Frame.Reader

/-! ## Outcomes -/

/-- The chunks that the listener is given, and the answer; or the panic of the caller. -/
abbrev Outcome := Except Panic (List Bytes × Except FramingError Nat)

/-- What an operation comes to. Copying bytes into the target is not answered. -/
def outcome (r : Reader) : Op → Outcome
  | .feed bytes => .ok ((r.feed bytes).chunks, (r.feed bytes).result)
  | .drip bytes step => (r.drip bytes step).map fun d => (d.chunks, d.result)
  | .fill _ => .ok ([], .ok 0)
  | .advance n =>
    match (r.advance n).2 with
    | .ok chunk => .ok (chunk.toList, .ok chunk.toList.length)
    | .error e => .ok ([], .error e)

/-- What operations come to, one after another. -/
def outcomes (r : Reader) : List Op → List Outcome
  | [] => []
  | op :: ops => r.outcome op :: (r.operate op).outcomes ops

/-- What an operation comes to on a poisoned reader: every report is an error, and so is handing bytes
over unless there are none. -/
def Op.refusal : Op → Outcome
  | .feed bytes => .ok ([], if bytes = [] then .ok 0 else .error .poisoned)
  | .drip bytes step =>
    if step = 0 then .error .zeroStep
    else .ok ([], if bytes = [] then .ok 0 else .error .poisoned)
  | .fill _ => .ok ([], .ok 0)
  | .advance _ => .ok ([], .error .poisoned)

variable {r : Reader}

/-! ## After an error -/

theorem delivery_of_poisoned (hr : r.poisoned = true) (bytes : Bytes) :
    (r.run bytes).delivery = ⟨r, [], if bytes = [] then .ok 0 else .error .poisoned⟩ := by
  rw [run_of_poisoned hr]
  cases bytes <;> rfl

/-- Nothing changes a poisoned reader. -/
theorem operate_of_poisoned (hr : r.poisoned = true) (op : Op) : r.operate op = r := by
  cases op with
  | feed bytes => rw [operate, feed_eq_run, delivery_of_poisoned hr]
  | drip bytes step =>
    rw [operate, drip]
    by_cases hstep : step = 0
    · rw [if_pos hstep]
    · rw [if_neg hstep, delivery_eq_run, delivery_of_poisoned hr]
  | fill bytes => rw [operate, fill, if_pos hr]
  | advance n => rw [operate, advance, if_pos hr]

theorem outcome_of_poisoned (hr : r.poisoned = true) (op : Op) : r.outcome op = op.refusal := by
  cases op with
  | feed bytes => rw [outcome, feed_eq_run, delivery_of_poisoned hr, Op.refusal]
  | drip bytes step =>
    rw [outcome, drip, Op.refusal]
    by_cases hstep : step = 0
    · rw [if_pos hstep, if_pos hstep]
      rfl
    · rw [if_neg hstep, if_neg hstep, delivery_eq_run, delivery_of_poisoned hr]
      rfl
  | fill bytes => rfl
  | advance n => rw [outcome, advance, if_pos hr, Op.refusal]

theorem foldl_of_poisoned (hr : r.poisoned = true) (ops : List Op) : ops.foldl operate r = r := by
  induction ops with
  | nil => rfl
  | cons op ops ih => rw [List.foldl_cons, operate_of_poisoned hr, ih]

theorem outcomes_of_poisoned (hr : r.poisoned = true) (ops : List Op) :
    r.outcomes ops = ops.map Op.refusal := by
  induction ops with
  | nil => rfl
  | cons op ops ih =>
    rw [outcomes, operate_of_poisoned hr, outcome_of_poisoned hr, ih, List.map_cons]

/-- The only error of a poisoned reader is that it is poisoned. -/
theorem Op.eq_poisoned_of_refusal {op : Op} {chunks : List Bytes} {e : FramingError}
    (h : op.refusal = .ok (chunks, .error e)) : e = .poisoned := by
  have hbytes : ∀ bytes : Bytes,
      (if bytes = [] then .ok 0 else .error .poisoned : Except FramingError Nat) = .error e →
        e = .poisoned := by
    intro bytes hb
    split at hb <;> cases hb
    rfl
  cases op with
  | feed bytes => exact hbytes bytes (Prod.mk.inj (Except.ok.inj h)).2
  | drip bytes step =>
    rw [refusal] at h
    split at h
    · cases h
    · exact hbytes bytes (Prod.mk.inj (Except.ok.inj h)).2
  | fill bytes => cases h
  | advance n =>
    cases h
    rfl

/-! ## The error itself -/

/-- An error that a delivery ends with poisons the reader. -/
theorem Sound.poisoned_of_result (h : r.Sound) (hr : r.poisoned = false) {bytes : Bytes}
    {e : FramingError} (he : (r.run bytes).delivery.result = .error e) :
    (r.run bytes).reader.poisoned = true := by
  rw [h.poisoned_run hr]
  intro hnone
  rw [Reading.result_delivery, hnone] at he
  cases he

/-- An operation that is answered with an error poisons the reader. -/
theorem Sound.poisoned_of_error (h : r.Sound) (hr : r.poisoned = false) {op : Op}
    {chunks : List Bytes} {e : FramingError} (he : r.outcome op = .ok (chunks, .error e)) :
    (r.operate op).poisoned = true := by
  cases op with
  | feed bytes =>
    rw [outcome, feed_eq_run] at he
    rw [Reader.operate, feed_eq_run]
    exact h.poisoned_of_result hr (Prod.mk.inj (Except.ok.inj he)).2
  | drip bytes step =>
    rw [outcome, drip] at he
    rw [Reader.operate, drip]
    by_cases hstep : step = 0
    · rw [if_pos hstep] at he
      cases he
    · rw [if_neg hstep, delivery_eq_run] at he ⊢
      exact h.poisoned_of_result hr (Prod.mk.inj (Except.ok.inj he)).2
  | fill bytes => cases he
  | advance n =>
    rw [Reader.operate]
    rw [outcome] at he
    cases hw : r.window.advance? n with
    | none => simp [Reader.advance, hr, hw, poison]
    | some w =>
      have hadvance : r.advance n = (r.setWindow w).settle := by simp [Reader.advance, hr, hw]
      rw [hadvance] at he ⊢
      rw [poisoned_settle (by simpa using hr)]
      cases hsettle : (r.setWindow w).settle.2 with
      | ok chunk =>
        rw [hsettle] at he
        cases he
      | error e => exact ⟨e, rfl⟩

/-- A report of more bytes than the target has is refused, and nothing else is touched. -/
theorem advance_of_target_lt (hr : r.poisoned = false) {n : Nat} (hn : r.target.length < n) :
    r.advance n =
      ({ r with poisoned := true, meter := r.meter.bump .framingErrors },
        .error (.overrun n r.target.length)) := by
  have hspace : r.target.length = r.window.space := by
    rw [length_target, space, if_neg (Bool.eq_false_iff.1 hr)]
  rw [hspace] at hn ⊢
  have hnone : r.window.advance? n = none := Window.advance?_eq_none_iff.2 hn
  simp only [advance, hr, hnone]
  rfl

/-! ## Counting errors -/

/-- One error is counted once the reader is poisoned, and none before. -/
def Counted (r : Reader) : Prop := r.meter.count .framingErrors = r.poisoned.toNat

theorem counted_new (limits : Limits) : (new limits).Counted := rfl

theorem Counted.setWindow (h : r.Counted) (w : Window) : (r.setWindow w).Counted := by
  unfold Reader.setWindow
  split <;> exact h

theorem Counted.poison (hr : r.poisoned = false) (h : r.Counted) : r.poison.Counted := by
  rw [Counted, hr] at h
  show (r.meter.bump .framingErrors).count .framingErrors = 1
  rw [Meter.count_bump, h]
  rfl

theorem Counted.settle (hr : r.poisoned = false) (h : r.Counted) : r.settle.1.Counted := by
  unfold Reader.settle
  split
  · split
    · rw [openBody_eq]
      split
      · exact h.poison hr
      · exact h
    · show (r.meter.bump (.chunks .inbound)).count .framingErrors = r.poisoned.toNat
      rw [Meter.count_bump, h]
      rfl
  · exact h

theorem counted_foldl (h : r.Counted) (ops : List Op) : (ops.foldl operate r).Counted :=
  foldl_operate_induction (fun _ w h => h.setWindow w) (fun _ hr h => h.settle hr)
    (fun _ hr h => h.poison hr) h ops

/-! ## For good -/

/-- **A poisoned reader is frozen.** Whatever was done to a reader before, an operation that is answered
with a framing error other than "poisoned" finds the reader in order and leaves it poisoned. From then
on no operation changes anything of it: its target is empty, the listener is given nothing, and every
operation is refused, where only handing over no bytes is not an error. One error is counted in the
reader's whole life. A report of more bytes than the target of a reader has is such an error, and
touches neither what the reader is waiting for nor what it has received. -/
theorem poisoned_reader_is_frozen (limits : Limits) (before : List Op) (op : Op)
    (chunks : List Bytes) (e : FramingError)
    (he : (before.foldl operate (new limits)).outcome op = .ok (chunks, .error e))
    (hfirst : e ≠ .poisoned) (later : List Op) :
    let r := before.foldl operate (new limits)
    let r' := r.operate op
    r.poisoned = false ∧ r'.poisoned = true ∧
      later.foldl operate r' = r' ∧ r'.target = [] ∧ r'.outcomes later = later.map Op.refusal ∧
      r.meter.count .framingErrors = 0 ∧
      (later.foldl operate r').meter.count .framingErrors = 1 ∧
      ∀ n, r.target.length < n →
        r.outcome (.advance n) = .ok ([], .error (.overrun n r.target.length)) ∧
          r.operate (.advance n) =
            { r with poisoned := true, meter := r.meter.bump .framingErrors } := by
  intro r r'
  have hsound : r.Sound := (sound_new limits).foldl before
  have hcounted : r.Counted := counted_foldl (counted_new limits) before
  have hr : r.poisoned = false := by
    refine Bool.eq_false_iff.2 fun hp => hfirst ?_
    exact Op.eq_poisoned_of_refusal ((outcome_of_poisoned hp op).symm.trans he)
  have hr' : r'.poisoned = true := hsound.poisoned_of_error hr he
  have hcounted' : (later.foldl operate r').Counted :=
    counted_foldl (counted_foldl hcounted [op]) later
  refine ⟨hr, hr', foldl_of_poisoned hr' later, if_pos hr', outcomes_of_poisoned hr' later, ?_, ?_,
    fun n hn => ?_⟩
  · rw [hcounted, hr]
    rfl
  · rw [hcounted', foldl_of_poisoned hr' later, hr']
    rfl
  · have hadvance := advance_of_target_lt hr hn
    rw [outcome, operate, hadvance]
    exact ⟨rfl, rfl⟩

/-- A chunk is read, three of four bytes of the next length prefix arrive, and five are reported where
one fits; then everything is tried. -/
theorem poisoned_reader_is_frozen_by_an_overrun :
    let before := [Op.feed [0, 0, 0, 1, 5], .drip [0, 0, 0] 2]
    let later := [Op.feed [7], .advance 0, .fill [1], .drip [] 1, .drip [2, 3] 9, .drip [2] 0]
    let r := before.foldl operate (new .standard)
    r.outcome (.advance 5) = .ok ([], .error (.overrun 5 1)) ∧
      (later.foldl operate (r.operate (.advance 5))).buffered = 3 ∧
      (r.operate (.advance 5)).outcomes later =
        [.ok ([], .error .poisoned), .ok ([], .error .poisoned), .ok ([], .ok 0), .ok ([], .ok 0),
          .ok ([], .error .poisoned), .error .zeroStep] := by
  intro before later r
  have hr : r.poisoned = false := by decide +kernel
  have htarget : r.target.length = 1 := by decide +kernel
  have he : r.outcome (.advance 5) = .ok ([], .error (.overrun 5 1)) := by
    rw [outcome, advance_of_target_lt hr (by rw [htarget]; decide), htarget]
  obtain ⟨-, -, hsame, -, houtcomes, -⟩ := poisoned_reader_is_frozen .standard before (.advance 5) [] _ he
    (by decide) later
  refine ⟨he, ?_, houtcomes⟩
  rw [hsame]
  decide +kernel

end ChunkRouter.Frame.Reader
