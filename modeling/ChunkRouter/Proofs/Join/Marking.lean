import ChunkRouter.Proofs.Join.Firing

/-!
# Completions marked as last

A completion that leaves none outstanding is folded in with a mark. While the gate is shut members may
complete before others are registered, so the count may come to zero several times before the join
fires. Call the calls from one zero to the next a round: it is opened by the call that finds nothing
outstanding and leaves something, and it ends with a marked completion, unless the count is set to
zero over it, which cuts it short. `one_mark_per_round` says that a join that fires has marked one
completion in each round that was not cut short. So it is the last completion that is marked, but it
is the only one just if all members were registered in one round.
-/

namespace ChunkRouter.Join

variable {ρ ε : Type}

/-! ## Rounds -/

/-- Completions are outstanding. -/
def isWaiting (j : Join ρ ε) : Bool := j.remaining != 0

/-- The call finds nothing outstanding and leaves something. -/
def opens (aggregate : Aggregator ρ ε) (j : Join ρ ε) (c : Call ρ ε) : Bool :=
  !j.isWaiting && (j.call aggregate c).1.isWaiting

/-- The call brings no completion, finds something outstanding and leaves nothing. -/
def cuts (aggregate : Aggregator ρ ε) (j : Join ρ ε) (c : Call ρ ε) : Bool :=
  j.isWaiting && !(j.call aggregate c).1.isWaiting && (History.brought j c).isEmpty

/-- How many of the calls are such that `p` holds of them and the join they find. -/
def countCalls (aggregate : Aggregator ρ ε) (p : Join ρ ε → Call ρ ε → Bool) :
    Join ρ ε → List (Call ρ ε) → Nat
  | _, [] => 0
  | j, c :: calls => (p j c).toNat + countCalls aggregate p (j.call aggregate c).1 calls

/-- The rounds that the calls open on a new join. -/
def opened (aggregate : Aggregator ρ ε) (calls : List (Call ρ ε)) : Nat :=
  countCalls aggregate (opens aggregate) new calls

/-- The rounds that the calls cut short on a new join. -/
def cutShort (aggregate : Aggregator ρ ε) (calls : List (Call ρ ε)) : Nat :=
  countCalls aggregate (cuts aggregate) new calls

/-- The completions that were folded in with a mark. -/
def marks (counted : List (Except ε ρ × Bool)) : Nat := counted.countP (·.2)

/-! ## One call -/

section

variable (aggregate : Aggregator ρ ε) {j : Join ρ ε} {h : History ρ ε} {c : Call ρ ε}

@[simp] theorem isWaiting_eq_false : j.isWaiting = false ↔ j.remaining = 0 := by
  simp [isWaiting]

theorem isWaiting_of_ne_zero (hne : j.remaining ≠ 0) : j.isWaiting = true := by
  simp [isWaiting, hne]

theorem remaining_new : (new : Join ρ ε).remaining = 0 :=
  UInt64.toNat_inj.1 counts_new.shows.remaining

theorem isWaiting_new : (new : Join ρ ε).isWaiting = false := isWaiting_eq_false.2 remaining_new

/-- Firing concerns neither the count nor the gate. -/
theorem word_settle (j : Join ρ ε) : j.settle.1.word = j.word := by
  unfold settle
  split <;> rfl

/-- A join that fires waits for nothing. -/
theorem remaining_of_settle {o : Outcome ρ ε} (hfired : j.settle.2 = some o) :
    j.settle.1.remaining = 0 := by
  rw [remaining, word_settle]
  unfold settle at hfired
  split at hfired
  · rename_i hcond
    rw [hcond.1]
    rfl
  · cases hfired

/-- Any word packs a count and a gate. -/
theorem packs_word (w : UInt64) : Packs w (w.toNat / 2) (w.toNat % 2 == 1) := by
  refine Packs.of_div_mod rfl ?_
  rcases Nat.mod_two_eq_zero_or_one w.toNat with hmod | hmod
  · rw [hmod]
    rfl
  · rw [hmod]
    rfl

/-- A completion that is counted lowers the count by one. -/
theorem toNat_remaining_complete (hne : j.remaining ≠ 0) (completion : Except ε ρ) :
    (j.call aggregate (.complete completion)).1.remaining.toNat = j.remaining.toNat - 1 := by
  have hword := packs_word j.word
  have hcount : j.remaining.toNat = j.word.toNat / 2 := hword.shiftRight
  have hpos : j.word.toNat / 2 ≠ 0 := by
    intro hzero
    exact hne (UInt64.toNat_inj.1 (hcount.trans hzero))
  simp only [call, complete]
  rw [if_neg hne, remaining, word_settle, hcount]
  exact (hword.complete hpos).shiftRight

/-- The completion that is counted as the last leaves none outstanding. -/
theorem isWaiting_complete (hne : j.remaining ≠ 0) (completion : Except ε ρ) :
    (j.call aggregate (.complete completion)).1.isWaiting = !(j.remaining == 1) := by
  have hcount := toNat_remaining_complete aggregate hne completion
  rw [isWaiting, bne, Bool.not_inj_iff, Bool.eq_iff_iff, beq_iff_eq, beq_iff_eq, ← UInt64.toNat_inj,
    ← UInt64.toNat_inj, hcount]
  have hpos : j.remaining.toNat ≠ 0 := fun hzero => hne (UInt64.toNat_inj.1 hzero)
  show j.remaining.toNat - 1 = 0 ↔ j.remaining.toNat = 1
  omega

theorem History.counted_step_of_overrun (hzero : h.join.remaining = 0) (completion : Except ε ρ) :
    h.step aggregate (.complete completion) = h := by
  refine History.step_of_overrun ?_
  simp only [call, complete]
  rw [if_pos hzero]

theorem History.counted_step_complete (hne : h.join.remaining ≠ 0) (completion : Except ε ρ) :
    (h.step aggregate (.complete completion)).counted =
      h.counted ++ [(completion, h.join.remaining == 1)] := by
  simp only [History.step, call, complete]
  rw [if_neg hne]
  rfl

/-- Only completions are counted. -/
theorem History.counted_step (hnone : brought h.join c = []) :
    (h.step aggregate c).counted = h.counted := by
  unfold step
  split
  · rfl
  · show h.counted ++ brought h.join c = h.counted
    rw [hnone, List.append_nil]

/-- The books of one call: a round that is open ends with a mark, or is cut short. -/
theorem balance_step (aggregate : Aggregator ρ ε) (h : History ρ ε) (c : Call ρ ε) :
    (opens aggregate h.join c).toNat + h.join.isWaiting.toNat + marks h.counted =
      (h.step aggregate c).join.isWaiting.toNat + marks (h.step aggregate c).counted +
        (cuts aggregate h.join c).toNat := by
  have hother : History.brought h.join c = [] →
      (opens aggregate h.join c).toNat + h.join.isWaiting.toNat + marks h.counted =
        (h.step aggregate c).join.isWaiting.toNat + marks (h.step aggregate c).counted +
          (cuts aggregate h.join c).toNat := by
    intro hnone
    rw [History.counted_step aggregate hnone, History.join_step, opens, cuts, hnone]
    cases h.join.isWaiting <;> cases (h.join.call aggregate c).1.isWaiting <;> simp
    omega
  cases c with
  | complete completion =>
    by_cases hzero : h.join.remaining = 0
    · have hidle : h.join.isWaiting = false := isWaiting_eq_false.2 hzero
      have hstay := History.counted_step_of_overrun aggregate hzero completion
      have hjoin : (h.join.call aggregate (.complete completion)).1 = h.join := by
        rw [← History.join_step, hstay]
      rw [hstay, opens, cuts, hjoin, hidle]
      simp
    · have hbusy := isWaiting_of_ne_zero hzero
      have hafter := isWaiting_complete aggregate hzero completion
      rw [History.counted_step_complete aggregate hzero, History.join_step, opens, cuts, hbusy, hafter, marks, marks,
        List.countP_append, History.brought]
      cases h.join.remaining == 1 <;> simp
      omega
  | setCount n => exact hother rfl
  | register => exact hother rfl
  | block => exact hother rfl
  | unblock => exact hother rfl

/-- When nothing is outstanding, the completion counted last is marked. -/
def History.EndsMarked (h : History ρ ε) : Prop :=
  h.join.remaining = 0 → ∀ x, h.counted.getLast? = some x → x.2 = true

theorem History.EndsMarked.step (hm : h.EndsMarked) (hwhole : cuts aggregate h.join c = false) :
    (h.step aggregate c).EndsMarked := by
  have hother : brought h.join c = [] → (h.step aggregate c).EndsMarked := by
    intro hnone hzero
    rw [History.counted_step aggregate hnone]
    refine hm ?_
    rw [History.join_step, ← isWaiting_eq_false] at hzero
    rw [cuts, hnone, hzero] at hwhole
    simpa using hwhole
  cases c with
  | complete completion =>
    by_cases hzero : h.join.remaining = 0
    · rw [History.counted_step_of_overrun aggregate hzero]
      exact hm
    · intro hnow x hx
      rw [History.join_step, ← isWaiting_eq_false, isWaiting_complete aggregate hzero] at hnow
      rw [History.counted_step_complete aggregate hzero, List.getLast?_concat] at hx
      cases hx
      simpa using hnow
  | setCount n => exact hother rfl
  | register => exact hother rfl
  | block => exact hother rfl
  | unblock => exact hother rfl

end

/-! ## Any calls -/

/-- The books of any calls. -/
theorem balance_foldl (aggregate : Aggregator ρ ε) (calls : List (Call ρ ε)) (h : History ρ ε) :
    countCalls aggregate (opens aggregate) h.join calls + h.join.isWaiting.toNat + marks h.counted =
      (calls.foldl (History.step aggregate) h).join.isWaiting.toNat +
        marks (calls.foldl (History.step aggregate) h).counted +
          countCalls aggregate (cuts aggregate) h.join calls := by
  induction calls generalizing h with
  | nil => simp [countCalls]
  | cons c calls ih =>
    have hone := balance_step aggregate h c
    have hrest := ih (h.step aggregate c)
    rw [History.join_step] at hone hrest
    simp only [countCalls, List.foldl_cons]
    omega

theorem History.EndsMarked.foldl {aggregate : Aggregator ρ ε} {calls : List (Call ρ ε)}
    {h : History ρ ε} (hm : h.EndsMarked)
    (hwhole : countCalls aggregate (cuts aggregate) h.join calls = 0) :
    (calls.foldl (History.step aggregate) h).EndsMarked := by
  induction calls generalizing h with
  | nil => exact hm
  | cons c calls ih =>
    simp only [countCalls, Nat.add_eq_zero_iff, Bool.toNat_eq_zero] at hwhole
    refine ih (hm.step aggregate hwhole.1) ?_
    rw [History.join_step]
    exact hwhole.2

/-! ## Members -/

section

variable (aggregate : Aggregator ρ ε) {j : Join ρ ε} {c : Call ρ ε}

theorem toNat_remaining_register (hroom : j.remaining.toNat + 1 < countLimit) :
    (j.call aggregate .register).1.remaining.toNat = j.remaining.toNat + 1 := by
  have hword := packs_word j.word
  have hcount : j.remaining.toNat = j.word.toNat / 2 := hword.shiftRight
  rw [hcount] at hroom ⊢
  exact (hword.register hroom).shiftRight

theorem toNat_remaining_gate (hgate : c = .block ∨ c = .unblock) :
    (j.call aggregate c).1.remaining.toNat = j.remaining.toNat := by
  have hword := packs_word j.word
  have hcount : j.remaining.toNat = j.word.toNat / 2 := hword.shiftRight
  rw [hcount]
  rcases hgate with rfl | rfl
  · exact hword.block.shiftRight
  · rw [call, unblock, remaining, word_settle]
    exact hword.unblock.shiftRight

/-- With room for one more, members alone raise the count by one at most, and cut no round short. -/
theorem of_call_of_room (hset : ∀ n, c ≠ .setCount n) (hroom : j.remaining.toNat + 1 < countLimit) :
    (j.call aggregate c).1.remaining.toNat ≤ j.remaining.toNat + 1 ∧ cuts aggregate j c = false := by
  have hgate : c = .block ∨ c = .unblock →
      (j.call aggregate c).1.remaining.toNat ≤ j.remaining.toNat + 1 ∧ cuts aggregate j c = false := by
    intro hc
    have hcount := toNat_remaining_gate aggregate (j := j) hc
    refine ⟨Nat.le_trans (Nat.le_of_eq hcount) (Nat.le_succ _), ?_⟩
    rw [cuts, isWaiting, isWaiting, UInt64.toNat_inj.1 hcount]
    cases j.remaining != 0 <;> rfl
  cases c with
  | setCount n => exact absurd rfl (hset n)
  | register =>
    have hcount := toNat_remaining_register aggregate hroom
    refine ⟨Nat.le_of_eq hcount, ?_⟩
    have hbusy : (j.call aggregate .register).1.isWaiting = true := by
      refine isWaiting_of_ne_zero fun hzero => ?_
      rw [hzero] at hcount
      exact Nat.succ_ne_zero _ hcount.symm
    rw [cuts, hbusy, Bool.not_true, Bool.and_false, Bool.false_and]
  | block => exact hgate (.inl rfl)
  | unblock => exact hgate (.inr rfl)
  | complete completion =>
    refine ⟨?_, by simp [cuts, History.brought]⟩
    by_cases hzero : j.remaining = 0
    · simp only [call, complete]
      rw [if_pos hzero]
      exact Nat.le_succ _
    · rw [toNat_remaining_complete aggregate hzero]
      omega

/-- If members register one by one, no round is cut short. -/
theorem countCalls_cuts_eq_zero {calls : List (Call ρ ε)} (hset : ∀ n, Call.setCount n ∉ calls)
    (hroom : j.remaining.toNat + calls.length < countLimit) :
    countCalls aggregate (cuts aggregate) j calls = 0 := by
  induction calls generalizing j with
  | nil => rfl
  | cons c calls ih =>
    rw [List.length_cons] at hroom
    obtain ⟨hcount, hwhole⟩ := of_call_of_room aggregate (j := j) (c := c)
      (fun n hc => hset n (hc ▸ List.mem_cons_self)) (by omega)
    rw [countCalls, hwhole, ih (fun n hmem => hset n (List.mem_cons_of_mem c hmem)) (by omega)]
    rfl

end

/-- A call in which a join fires leaves nothing outstanding. -/
theorem isWaiting_of_fired {aggregate : Aggregator ρ ε} {j : Join ρ ε} {c : Call ρ ε}
    {o : Outcome ρ ε} (hfired : (j.call aggregate c).2 = .ok (some o)) :
    (j.call aggregate c).1.isWaiting = false := by
  rw [isWaiting_eq_false]
  cases c with
  | setCount n => exact remaining_of_settle (Except.ok.inj hfired)
  | register => cases hfired
  | block => cases hfired
  | unblock => exact remaining_of_settle (Except.ok.inj hfired)
  | complete completion =>
    simp only [call, complete] at hfired ⊢
    split at hfired
    · cases hfired
    · rename_i hne
      rw [if_neg hne]
      exact remaining_of_settle (Except.ok.inj hfired)

section

variable {counted : List (Except ε ρ × Bool)}

theorem exists_concat_marked (hlast : ∀ x, counted.getLast? = some x → x.2 = true)
    (hne : counted ≠ []) : ∃ before x, counted = before ++ [(x, true)] := by
  have hmark := hlast _ (List.getLast?_eq_some_getLast hne)
  refine ⟨counted.dropLast, (counted.getLast hne).1, ?_⟩
  rw [← hmark]
  exact (List.dropLast_concat_getLast hne).symm

/-- A marked completion is the only one just if those before it are not marked. -/
theorem marks_concat_eq_one_iff {before : List (Except ε ρ × Bool)} {x : Except ε ρ} :
    marks (before ++ [(x, true)]) = 1 ↔ ∀ y ∈ before, y.2 = false := by
  have hsplit : marks (before ++ [(x, true)]) = before.countP (·.2) + 1 := by
    rw [marks, List.countP_append]
    rfl
  rw [hsplit, Nat.add_eq_right, List.countP_eq_zero]
  simp only [Bool.not_eq_true]

end

/-! ## What aggregators see -/

/-- **Each round has one completion that is marked as last.** Let a join fire in the last of some calls.
Its outcome is the total of the completions counted, each folded in with its mark. As many of them
are marked as rounds were opened, but for the rounds that were cut short; and none is cut short if
members register one by one. If none was, then the completion counted last is marked, and it is the only
one just if a single round was opened. -/
theorem one_mark_per_round (aggregate : Aggregator ρ ε) (calls : List (Call ρ ε)) (c : Call ρ ε)
    (o : Outcome ρ ε)
    (hfired : ((History.run aggregate calls).join.call aggregate c).2 = .ok (some o)) :
    let all := calls ++ [c]
    let counted := (History.run aggregate all).counted
    o = total aggregate counted ∧
      marks counted + cutShort aggregate all = opened aggregate all ∧
      ((∀ n, .setCount n ∉ all) → all.length < countLimit → cutShort aggregate all = 0) ∧
      (cutShort aggregate all = 0 → counted ≠ [] →
        ∃ before x, counted = before ++ [(x, true)] ∧
          (opened aggregate all = 1 ↔ ∀ y ∈ before, y.2 = false)) := by
  intro all counted
  have hrun : History.run aggregate all = (History.run aggregate calls).step aggregate c := by
    simp only [all, History.run, List.foldl_append, List.foldl_cons, List.foldl_nil]
  have hidle : (History.run aggregate all).join.isWaiting = false := by
    rw [hrun, History.join_step]
    exact isWaiting_of_fired hfired
  have hbooks : marks counted + cutShort aggregate all = opened aggregate all := by
    have hbalance := balance_foldl aggregate all History.new
    have hnow : (all.foldl (History.step aggregate) History.new).join.isWaiting = false := hidle
    rw [hnow] at hbalance
    have hstart : (History.new : History ρ ε).join.isWaiting = false := isWaiting_new
    rw [hstart] at hbalance
    simp only [Bool.toNat_false, Nat.add_zero, Nat.zero_add] at hbalance
    exact hbalance.symm
  refine ⟨?_, hbooks, fun hset hroom => ?_, fun hwhole hne => ?_⟩
  · rw [show counted = _ from congrArg History.counted hrun]
    exact (((History.sums_run aggregate calls).step c).2 o hfired).1
  · refine countCalls_cuts_eq_zero aggregate hset ?_
    rwa [remaining_new, UInt64.toNat_zero, Nat.zero_add]
  · have hmarked : (History.run aggregate all).EndsMarked := by
      refine History.EndsMarked.foldl ?_ hwhole
      intro _ x hx
      cases hx
    obtain ⟨before, x, hcounted⟩ :=
      exists_concat_marked (hmarked (isWaiting_eq_false.1 hidle)) hne
    refine ⟨before, x, hcounted, ?_⟩
    rw [← hbooks, hwhole, Nat.add_zero, show counted = _ from hcounted]
    exact marks_concat_eq_one_iff

/-- Two members register before either completes, and the gate opens behind them: one mark. -/
theorem one_mark_per_round_of_two_members :
    let calls : List (Call Nat String) :=
      [.register, .register, .complete (.ok 1), .complete (.error "late")]
    ((History.run firstError calls).join.call firstError .unblock).2 =
        .ok (some ⟨false, some 1, some "late"⟩) ∧
      ∃ before x, (History.run firstError (calls ++ [.unblock])).counted = before ++ [(x, true)] ∧
        ∀ y ∈ before, y.2 = false := by
  intro calls
  have hfired : ((History.run firstError calls).join.call firstError .unblock).2 =
      .ok (some ⟨false, some 1, some "late"⟩) := by
    simp only [calls]
    rfl
  obtain ⟨-, -, hwhole, hmarks⟩ := one_mark_per_round firstError calls .unblock _ hfired
  have hcut := hwhole (by simp [calls]) (by decide)
  obtain ⟨before, x, hcounted, honly⟩ := hmarks hcut (by decide)
  exact ⟨hfired, before, x, hcounted, honly.1 (by decide)⟩

/-- The second member registers behind the shut gate after the first has completed. The join fires once,
and both completions are marked as last. -/
theorem two_marks_behind_shut_gate :
    let calls : List (Call String String) :=
      [.register, .complete (.ok "a"), .register, .complete (.ok "b")]
    ((History.run trail calls).join.call trail .unblock).2 =
        .ok (some ⟨true, some "+a!+b!", none⟩) ∧
      (History.run trail (calls ++ [.unblock])).counted = [(.ok "a", true), (.ok "b", true)] :=
  ⟨rfl, rfl⟩

end ChunkRouter.Join
