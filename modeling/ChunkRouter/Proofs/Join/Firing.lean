import ChunkRouter.Join.Basic

/-!
# When a join fires

To its callers a join is a countdown: how many completions are outstanding, whether the gate is shut,
the completions folded so far, and whether it has fired. The join packs the first two into one word,
and decides to fire by comparing with zero the word an operation left. `fires_once_when_settled` says
that for counts below `2 ^ 63` a join and a countdown cannot be told apart, whatever is called in
whatever order, that it fires in just the operation that first leaves nothing outstanding behind an
open gate, and with which outcome.
-/

namespace ChunkRouter.Join

variable {ρ ε : Type}

/-! ## The word -/

/-- The least count that a word has no room for, `2 ^ 63`. -/
def countLimit : Nat := 0x8000000000000000

/-- The word for `n` outstanding completions, with the gate in bit 0. -/
def Packs (w : UInt64) (n : Nat) (blocked : Bool) : Prop := w.toNat = 2 * n + blocked.toNat

namespace Packs

variable {w : UInt64} {n : Nat} {blocked : Bool}

theorem lt (h : Packs w n blocked) : n < countLimit := by
  unfold Packs at h
  unfold countLimit
  have hw := w.toNat_lt
  omega

theorem div_two (h : Packs w n blocked) : w.toNat / 2 = n := by
  unfold Packs at h
  have hbit := Bool.toNat_le blocked
  omega

theorem mod_two (h : Packs w n blocked) : w.toNat % 2 = blocked.toNat := by
  unfold Packs at h
  have hbit := Bool.toNat_lt blocked
  omega

/-- A word is told by its upper bits and bit 0. -/
theorem of_div_mod (hdiv : w.toNat / 2 = n) (hmod : w.toNat % 2 = blocked.toNat) :
    Packs w n blocked := by
  unfold Packs
  omega

theorem shiftRight (h : Packs w n blocked) : (w >>> 1).toNat = n := by
  rw [UInt64.toNat_shiftRight]
  exact h.div_two

theorem toNat_and_gate (h : Packs w n blocked) : (w &&& gate).toNat = blocked.toNat := by
  rw [UInt64.toNat_and]
  exact (Nat.and_one_is_mod _).trans h.mod_two

theorem and_gate (h : Packs w n blocked) : (w &&& gate != 0) = blocked := by
  have hbit := h.toNat_and_gate
  cases blocked
  · rw [bne_eq_false_iff_eq]
    exact UInt64.toNat_inj.1 hbit
  · rw [bne_iff_ne]
    intro hzero
    rw [hzero] at hbit
    cases hbit

theorem eq_zero_iff (h : Packs w n blocked) : w = 0 ↔ n = 0 ∧ blocked = false := by
  unfold Packs at h
  rw [← UInt64.toNat_inj, h, ← Bool.toNat_eq_zero]
  show 2 * n + blocked.toNat = 0 ↔ _
  omega

theorem setCount (h : Packs w n blocked) {m : UInt64} (hm : m.toNat < countLimit) :
    Packs (m <<< 1 ||| (w &&& gate)) m.toNat blocked := by
  have hshift : (m <<< 1).toNat = 2 * m.toNat := by
    rw [UInt64.toNat_shiftLeft]
    show m.toNat <<< 1 % 2 ^ 64 = _
    rw [Nat.shiftLeft_eq]
    unfold countLimit at hm
    omega
  have hbit := Bool.toNat_lt blocked
  refine of_div_mod ?_ ?_
  · rw [UInt64.toNat_or, hshift, h.toNat_and_gate, Nat.or_div_two]
    have hzero : blocked.toNat / 2 = 0 := by omega
    rw [hzero, Nat.or_zero]
    omega
  · rw [UInt64.toNat_or, hshift, h.toNat_and_gate]
    have heven : 2 * m.toNat = 2 ^ 1 * m.toNat := by omega
    rw [heven, ← Nat.two_pow_add_eq_or_of_lt hbit]
    omega

theorem register (h : Packs w n blocked) (hn : n + 1 < countLimit) :
    Packs (w + member) (n + 1) blocked := by
  unfold Packs at h ⊢
  unfold countLimit at hn
  have hbit := Bool.toNat_lt blocked
  rw [UInt64.toNat_add]
  show (w.toNat + 2) % 2 ^ 64 = _
  omega

theorem complete (h : Packs w n blocked) (hn : n ≠ 0) : Packs (w - member) (n - 1) blocked := by
  unfold Packs at h ⊢
  have hle : member ≤ w := by
    rw [UInt64.le_iff_toNat_le]
    show 2 ≤ w.toNat
    omega
  rw [UInt64.toNat_sub_of_le _ _ hle]
  show w.toNat - 2 = _
  omega

theorem block (h : Packs w n blocked) : Packs (w ||| gate) n true := by
  refine of_div_mod ?_ ?_
  · rw [UInt64.toNat_or, Nat.or_div_two, h.div_two]
    exact Nat.or_zero n
  · rw [UInt64.toNat_or]
    exact Nat.or_mod_two_eq_one.2 (.inr rfl)

theorem unblock (h : Packs w n blocked) : Packs (w &&& ~~~gate) n false := by
  refine of_div_mod ?_ ?_
  · have hlt : n < 2 ^ 63 := h.lt
    rw [UInt64.toNat_and, Nat.and_div_two, h.div_two]
    exact Nat.and_two_pow_sub_one_of_lt_two_pow hlt
  · have hodd : ¬ (w &&& ~~~gate).toNat % 2 = 1 := by
      rw [UInt64.toNat_and, Nat.and_mod_two_eq_one]
      exact fun hboth => absurd hboth.2 (by decide)
    show _ = 0
    omega

end Packs

theorem packs_gate : Packs gate 0 true := rfl

/-! ## Calls -/

inductive Call (ρ ε : Type) where
  | setCount (n : UInt64)
  | register
  | block
  | unblock
  | complete (completion : Except ε ρ)

/-- Make a call. The answer tells an overrun, and otherwise the outcome if the join fired. -/
def call (aggregate : Aggregator ρ ε) (j : Join ρ ε) :
    Call ρ ε → Join ρ ε × Except JoinError (Option (Outcome ρ ε))
  | .setCount n => ((j.setCount n).1, .ok (j.setCount n).2)
  | .register => (j.register, .ok none)
  | .block => (j.block, .ok none)
  | .unblock => (j.unblock.1, .ok j.unblock.2)
  | .complete completion => j.complete aggregate completion

/-- A join as its callers see it. -/
structure Countdown (ρ ε : Type) where
  remaining : Nat
  blocked : Bool
  aggregate : Outcome ρ ε
  fired : Bool

namespace Countdown

def new : Countdown ρ ε := ⟨0, true, .initial, false⟩

/-- Hand the aggregate over, once, when nothing is outstanding and the gate is open. -/
def settle (c : Countdown ρ ε) : Countdown ρ ε × Except JoinError (Option (Outcome ρ ε)) :=
  if c.remaining = 0 ∧ c.blocked = false ∧ c.fired = false then
    ({ c with aggregate := .initial, fired := true }, .ok (some c.aggregate))
  else (c, .ok none)

/-- Every call is an assignment; after each of them the countdown may have settled. -/
def step (aggregate : Aggregator ρ ε) (c : Countdown ρ ε) :
    Call ρ ε → Countdown ρ ε × Except JoinError (Option (Outcome ρ ε))
  | .setCount n => settle { c with remaining := n.toNat }
  | .register => settle { c with remaining := c.remaining + 1 }
  | .block => settle { c with blocked := true }
  | .unblock => settle { c with blocked := false }
  | .complete completion =>
    if c.remaining = 0 then (c, .error .overrun)
    else
      settle { c with
        remaining := c.remaining - 1
        aggregate := aggregate c.aggregate completion (c.remaining == 1) }

def run (aggregate : Aggregator ρ ε) (calls : List (Call ρ ε)) : Countdown ρ ε :=
  calls.foldl (fun c call => (c.step aggregate call).1) new

theorem run_concat (aggregate : Aggregator ρ ε) (calls : List (Call ρ ε)) (c : Call ρ ε) :
    run aggregate (calls ++ [c]) = ((run aggregate calls).step aggregate c).1 := by
  rw [run, List.foldl_append]
  rfl

end Countdown

/-- All of the state of a join that its callers can ask for is that of the countdown. -/
structure Shows (j : Join ρ ε) (c : Countdown ρ ε) : Prop where
  remaining : j.remaining.toNat = c.remaining
  isBlocked : j.isBlocked = c.blocked
  outcome : j.outcome = c.aggregate
  hasFired : j.hasFired = c.fired

/-! ## A join counts down -/

/-- A join holds the state of a countdown that is not left settled without having fired. -/
structure Counts (j : Join ρ ε) (c : Countdown ρ ε) : Prop where
  word : Packs j.word c.remaining c.blocked
  outcome : j.outcome = c.aggregate
  armed : j.armed = !c.fired
  settled : c.remaining = 0 → c.blocked = false → c.fired = true

namespace Counts

variable {j : Join ρ ε} {c : Countdown ρ ε}

theorem shows (h : j.Counts c) : j.Shows c where
  remaining := h.word.shiftRight
  isBlocked := h.word.and_gate
  outcome := h.outcome
  hasFired := by rw [hasFired, h.armed, Bool.not_not]

theorem remaining_eq_zero_iff (h : j.Counts c) : j.remaining = 0 ↔ c.remaining = 0 := by
  rw [← UInt64.toNat_inj, h.shows.remaining]
  rfl

/-- Where the word, the outcome and the firing agree, both sides settle alike. -/
theorem of_settle (hword : Packs j.word c.remaining c.blocked) (houtcome : j.outcome = c.aggregate)
    (harmed : j.armed = !c.fired) :
    j.settle.1.Counts c.settle.1 ∧ Except.ok j.settle.2 = c.settle.2 := by
  unfold settle Countdown.settle
  by_cases hfire : c.remaining = 0 ∧ c.blocked = false ∧ c.fired = false
  · obtain ⟨hzero, hopen, hfired⟩ := hfire
    have hcond : j.word = 0 ∧ j.armed = true :=
      ⟨hword.eq_zero_iff.2 ⟨hzero, hopen⟩, by rw [harmed, hfired]; rfl⟩
    rw [if_pos hcond, if_pos ⟨hzero, hopen, hfired⟩, houtcome]
    exact ⟨⟨hword, rfl, rfl, fun _ _ => rfl⟩, rfl⟩
  · have hcond : ¬(j.word = 0 ∧ j.armed = true) := by
      rintro ⟨hzero, hj⟩
      obtain ⟨hremaining, hopen⟩ := hword.eq_zero_iff.1 hzero
      rw [harmed, Bool.not_eq_true'] at hj
      exact hfire ⟨hremaining, hopen, hj⟩
    rw [if_neg hcond, if_neg hfire]
    refine ⟨⟨hword, houtcome, harmed, fun hzero hopen => ?_⟩, rfl⟩
    by_cases hfired : c.fired = false
    · exact absurd ⟨hzero, hopen, hfired⟩ hfire
    · exact Bool.of_not_eq_false hfired

/-- What leaves something outstanding, or shuts the gate, does not settle. -/
theorem of_unsettled (hword : Packs j.word c.remaining c.blocked) (houtcome : j.outcome = c.aggregate)
    (harmed : j.armed = !c.fired) (hbusy : c.remaining = 0 → c.blocked = true) :
    j.Counts c.settle.1 ∧ Except.ok none = c.settle.2 := by
  have hkeep : c.settle = (c, .ok none) :=
    if_neg fun hfire => Bool.noConfusion ((hbusy hfire.1).symm.trans hfire.2.1)
  rw [hkeep]
  refine ⟨⟨hword, houtcome, harmed, fun hzero hopen => ?_⟩, rfl⟩
  exact Bool.noConfusion ((hbusy hzero).symm.trans hopen)

/-- A join and a countdown answer every call alike and stay alike. -/
theorem call (h : j.Counts c) (aggregate : Aggregator ρ ε) (call : Call ρ ε)
    (hrange : (c.step aggregate call).1.remaining < countLimit) :
    (j.call aggregate call).1.Counts (c.step aggregate call).1 ∧
      (j.call aggregate call).2 = (c.step aggregate call).2 := by
  have hsettle : ∀ c : Countdown ρ ε, c.settle.1.remaining = c.remaining := by
    intro c
    unfold Countdown.settle
    split <;> rfl
  cases call with
  | setCount n =>
    simp only [Countdown.step, hsettle] at hrange
    exact of_settle (h.word.setCount hrange) h.outcome h.armed
  | register =>
    simp only [Countdown.step, hsettle] at hrange
    exact of_unsettled (h.word.register hrange) h.outcome h.armed fun hzero =>
      absurd hzero (Nat.succ_ne_zero _)
  | block => exact of_unsettled h.word.block h.outcome h.armed fun _ => rfl
  | unblock => exact of_settle h.word.unblock h.outcome h.armed
  | complete completion =>
    simp only [Join.call, Join.complete, Countdown.step]
    by_cases hzero : c.remaining = 0
    · rw [if_pos (h.remaining_eq_zero_iff.2 hzero), if_pos hzero]
      exact ⟨h, rfl⟩
    · rw [if_neg fun hj => hzero (h.remaining_eq_zero_iff.1 hj), if_neg hzero]
      have hlast : (j.remaining == 1) = (c.remaining == 1) := by
        rw [Bool.eq_iff_iff, beq_iff_eq, beq_iff_eq, ← UInt64.toNat_inj, h.shows.remaining]
        rfl
      have hfold : aggregate j.outcome completion (j.remaining == 1) =
          aggregate c.aggregate completion (c.remaining == 1) := by rw [h.outcome, hlast]
      exact of_settle (h.word.complete hzero) hfold h.armed

end Counts

theorem counts_new : (new : Join ρ ε).Counts .new :=
  ⟨packs_gate, rfl, rfl, fun _ hopen => Bool.noConfusion hopen⟩

/-! ## Histories -/

/-- A join with what it was told and what it told. -/
structure History (ρ ε : Type) where
  join : Join ρ ε
  /-- The completions that were counted, in order; the flag marks one that left none outstanding. -/
  counted : List (Except ε ρ × Bool)
  /-- The outcomes that were handed over. -/
  outcomes : List (Outcome ρ ε)

/-- What completions come to. -/
def total (aggregate : Aggregator ρ ε) (counted : List (Except ε ρ × Bool)) : Outcome ρ ε :=
  counted.foldl (fun o x => aggregate o x.1 x.2) .initial

namespace History

def new : History ρ ε := ⟨.new, [], []⟩

/-- The completion a call brings. -/
def brought (j : Join ρ ε) : Call ρ ε → List (Except ε ρ × Bool)
  | .complete completion => [(completion, j.remaining == 1)]
  | _ => []

def step (aggregate : Aggregator ρ ε) (h : History ρ ε) (c : Call ρ ε) : History ρ ε :=
  match h.join.call aggregate c with
  | (j, .error _) => { h with join := j }
  | (j, .ok fired) => ⟨j, h.counted ++ brought h.join c, h.outcomes ++ fired.toList⟩

def run (aggregate : Aggregator ρ ε) (calls : List (Call ρ ε)) : History ρ ε :=
  calls.foldl (step aggregate) new

theorem join_step (aggregate : Aggregator ρ ε) (h : History ρ ε) (c : Call ρ ε) :
    (h.step aggregate c).join = (h.join.call aggregate c).1 := by
  unfold step
  split <;> rename_i heq <;> rw [heq]

end History

/-- A join that settles keeps its outcome or hands it over. -/
theorem settle_cases (j : Join ρ ε) :
    (∃ j', j.settle = (j', none) ∧ j'.armed = j.armed ∧ j'.outcome = j.outcome) ∨
      ∃ j', j.settle = (j', some j.outcome) ∧ j.armed = true ∧ j'.armed = false := by
  unfold settle
  split
  · rename_i hfire
    exact .inr ⟨_, rfl, hfire.2, rfl⟩
  · exact .inl ⟨j, rfl, rfl, rfl⟩

/-- A call overruns, or folds in what it brings; the outcome of that is kept, or handed over. -/
theorem call_cases (aggregate : Aggregator ρ ε) (j : Join ρ ε) (c : Call ρ ε) :
    let folded := (History.brought j c).foldl (fun o x => aggregate o x.1 x.2) j.outcome
    j.call aggregate c = (j, .error .overrun) ∨
      (∃ j', j.call aggregate c = (j', .ok none) ∧ j'.armed = j.armed ∧ j'.outcome = folded) ∨
      ∃ j', j.call aggregate c = (j', .ok (some folded)) ∧ j.armed = true ∧ j'.armed = false := by
  cases c with
  | setCount n =>
    refine .inr ?_
    simp only [call, setCount]
    rcases settle_cases { j with word := (n <<< 1) ||| (j.word &&& gate) } with
      ⟨j', hs, harmed, houtcome⟩ | ⟨j', hs, harmed, hfired⟩
    · exact .inl ⟨j', by rw [hs], harmed, houtcome⟩
    · exact .inr ⟨j', by rw [hs]; rfl, harmed, hfired⟩
  | register => exact .inr (.inl ⟨_, rfl, rfl, rfl⟩)
  | block => exact .inr (.inl ⟨_, rfl, rfl, rfl⟩)
  | unblock =>
    refine .inr ?_
    simp only [call, unblock]
    rcases settle_cases { j with word := j.word &&& ~~~gate } with
      ⟨j', hs, harmed, houtcome⟩ | ⟨j', hs, harmed, hfired⟩
    · exact .inl ⟨j', by rw [hs], harmed, houtcome⟩
    · exact .inr ⟨j', by rw [hs]; rfl, harmed, hfired⟩
  | complete x =>
    simp only [call, complete]
    by_cases hzero : j.remaining = 0
    · exact .inl (if_pos hzero)
    · rw [if_neg hzero]
      refine .inr ?_
      rcases settle_cases ⟨j.word - member, aggregate j.outcome x (j.remaining == 1), j.armed⟩ with
        ⟨j', hs, harmed, houtcome⟩ | ⟨j', hs, harmed, hfired⟩
      · exact .inl ⟨j', by rw [hs], harmed, houtcome⟩
      · exact .inr ⟨j', by rw [hs]; rfl, harmed, hfired⟩

/-- A join that is armed no longer after a call has fired in it. -/
theorem armed_call (aggregate : Aggregator ρ ε) {j j' : Join ρ ε} (c : Call ρ ε)
    {fired : Option (Outcome ρ ε)} (h : j.call aggregate c = (j', .ok fired)) :
    j.armed.toNat = j'.armed.toNat + fired.toList.length := by
  rcases call_cases aggregate j c with hover | ⟨k, hcall, harmed, -⟩ | ⟨k, hcall, hbefore, hafter⟩
  · cases hover.symm.trans h
  · cases hcall.symm.trans h
    rw [harmed]
    rfl
  · cases hcall.symm.trans h
    rw [hbefore, hafter]
    rfl

/-- What was handed over, and what is to be, is the total of what was counted. -/
structure History.Sums (aggregate : Aggregator ρ ε) (h : History ρ ε) : Prop where
  outcome : h.join.armed = true → h.join.outcome = total aggregate h.counted
  outcomes : h.outcomes.length = if h.join.hasFired then 1 else 0

theorem total_append (aggregate : Aggregator ρ ε) (xs ys : List (Except ε ρ × Bool)) :
    total aggregate (xs ++ ys) = ys.foldl (fun o x => aggregate o x.1 x.2) (total aggregate xs) :=
  List.foldl_append

theorem sums_new (aggregate : Aggregator ρ ε) : (History.new : History ρ ε).Sums aggregate :=
  ⟨fun _ => rfl, rfl⟩

/-- A call keeps the sums, and hands over nothing but the total. -/
theorem History.Sums.step {aggregate : Aggregator ρ ε} {h : History ρ ε} (hs : h.Sums aggregate)
    (c : Call ρ ε) :
    (h.step aggregate c).Sums aggregate ∧
      ∀ o, (h.join.call aggregate c).2 = .ok (some o) →
        o = total aggregate (h.step aggregate c).counted ∧ (h.step aggregate c).outcomes = [o] := by
  rcases call_cases aggregate h.join c with hcall | ⟨j', hcall, harmed, houtcome⟩ |
    ⟨j', hcall, harmed, hfired⟩
  · unfold History.step
    rw [hcall]
    exact ⟨⟨hs.outcome, hs.outcomes⟩, fun o ho => nomatch ho⟩
  · unfold History.step
    rw [hcall]
    refine ⟨⟨fun hj' => ?_, ?_⟩, fun o ho => nomatch ho⟩
    · show j'.outcome = total aggregate (h.counted ++ brought h.join c)
      rw [total_append, houtcome, hs.outcome (harmed ▸ hj')]
    · simpa [hasFired, harmed] using hs.outcomes
  · have hnone : h.outcomes = [] := by
      have hlen := hs.outcomes
      rw [hasFired, harmed] at hlen
      exact List.eq_nil_of_length_eq_zero hlen
    unfold History.step
    rw [hcall]
    refine ⟨⟨fun hj' => Bool.noConfusion (hfired.symm.trans hj'), ?_⟩, fun o ho => ?_⟩
    · simp [hasFired, hfired, hnone]
    · cases ho
      show _ = total aggregate (h.counted ++ brought h.join c) ∧ h.outcomes ++ _ = _
      rw [total_append, hs.outcome harmed, hnone]
      exact ⟨rfl, rfl⟩

theorem History.sums_run (aggregate : Aggregator ρ ε) (calls : List (Call ρ ε)) :
    (History.run aggregate calls).Sums aggregate := by
  unfold History.run
  suffices h : ∀ h : History ρ ε, h.Sums aggregate →
      (calls.foldl (History.step aggregate) h).Sums aggregate from h _ (sums_new aggregate)
  induction calls with
  | nil => exact fun h hs => hs
  | cons c calls ih => exact fun h hs => ih _ (hs.step c).1

/-! ## The first error -/

/-- The error of a failed completion. -/
def error? : Except ε ρ → Option ε
  | .error e => some e
  | .ok _ => none

/-- The first result and the first error are kept, and success is that of all. -/
theorem total_firstError (counted : List (Except ε ρ × Bool)) :
    total firstError counted =
      { success := counted.all fun x => x.1.isOk
        result := counted.findSome? fun x => x.1.toOption
        error := counted.findSome? fun x => error? x.1 } := by
  suffices h : ∀ o : Outcome ρ ε, counted.foldl (fun o x => firstError o x.1 x.2) o =
      { success := o.success && counted.all fun x => x.1.isOk
        result := o.result.or (counted.findSome? fun x => x.1.toOption)
        error := o.error.or (counted.findSome? fun x => error? x.1) } from h .initial
  induction counted with
  | nil =>
    intro o
    simp
  | cons x counted ih =>
    intro o
    obtain ⟨e | r, last⟩ := x
    · rw [List.foldl_cons, ih]
      cases hkept : o.error <;> simp [firstError, hkept, error?, Except.isOk, Except.toBool, Except.toOption]
    · rw [List.foldl_cons, ih]
      cases hkept : o.result <;> simp [firstError, hkept, error?, Except.isOk, Except.toBool, Except.toOption]

/-! ## What callers see -/

/-- A countdown fires in the calls that leave it settled for the first time. -/
theorem Countdown.fires_iff {c : Countdown ρ ε}
    (hsettled : c.remaining = 0 → c.blocked = false → c.fired = true) (aggregate : Aggregator ρ ε)
    (call : Call ρ ε) :
    (∃ o, (c.step aggregate call).2 = .ok (some o)) ↔
      c.fired = false ∧ (c.step aggregate call).1.remaining = 0 ∧
        (c.step aggregate call).1.blocked = false := by
  have hsettle : ∀ d : Countdown ρ ε, (∃ o, d.settle.2 = .ok (some o)) ↔
      d.fired = false ∧ d.settle.1.remaining = 0 ∧ d.settle.1.blocked = false := by
    intro d
    unfold settle
    split
    · rename_i hfire
      exact ⟨fun _ => ⟨hfire.2.2, hfire.1, hfire.2.1⟩, fun _ => ⟨_, rfl⟩⟩
    · rename_i hkeep
      constructor
      · rintro ⟨o, ho⟩
        cases ho
      · rintro ⟨hfired, hzero, hopen⟩
        exact absurd ⟨hzero, hopen, hfired⟩ hkeep
  cases call with
  | setCount n => exact hsettle _
  | register => exact hsettle _
  | block => exact hsettle _
  | unblock => exact hsettle _
  | complete completion =>
    simp only [step]
    by_cases hzero : c.remaining = 0
    · rw [if_pos hzero]
      constructor
      · rintro ⟨o, ho⟩
        cases ho
      · rintro ⟨hfired, -, hopen⟩
        exact Bool.noConfusion (hfired.symm.trans (hsettled hzero hopen))
    · rw [if_neg hzero]
      exact hsettle _

/-- Only a completion that nobody waits for overruns. -/
theorem Countdown.overruns_iff (c : Countdown ρ ε) (aggregate : Aggregator ρ ε) (call : Call ρ ε) :
    (c.step aggregate call).2 = .error .overrun ↔
      c.remaining = 0 ∧ ∃ completion, call = .complete completion := by
  have hsettle : ∀ d : Countdown ρ ε, d.settle.2 ≠ .error .overrun := by
    intro d
    unfold settle
    split <;> exact nofun
  cases call with
  | complete completion =>
    simp only [step]
    by_cases hzero : c.remaining = 0
    · rw [if_pos hzero]
      exact ⟨fun _ => ⟨hzero, completion, rfl⟩, fun _ => rfl⟩
    · rw [if_neg hzero]
      exact ⟨fun h => absurd h (hsettle _), fun h => absurd h.1 hzero⟩
  | _ => exact ⟨fun h => absurd h (hsettle _), fun ⟨_, _, h⟩ => nomatch h⟩

/-- An overrun changes nothing. -/
theorem History.step_of_overrun {aggregate : Aggregator ρ ε} {h : History ρ ε} {c : Call ρ ε}
    (hover : (h.join.call aggregate c).2 = .error .overrun) : h.step aggregate c = h := by
  rcases call_cases aggregate h.join c with hcall | ⟨j', hcall, -⟩ | ⟨j', hcall, -⟩
  · unfold step
    rw [hcall]
  · rw [hcall] at hover
    cases hover
  · rw [hcall] at hover
    cases hover

/-- While the count stays in the range of the word, a join counts down. -/
theorem counts_run {aggregate : Aggregator ρ ε} {calls : List (Call ρ ε)}
    (hrange : ∀ k, (Countdown.run aggregate (calls.take k)).remaining < countLimit) :
    (History.run aggregate calls).join.Counts (Countdown.run aggregate calls) := by
  unfold History.run Countdown.run at *
  suffices h : ∀ (h : History ρ ε) (c : Countdown ρ ε), h.join.Counts c →
      (∀ k, ((calls.take k).foldl (fun c call => (c.step aggregate call).1) c).remaining < countLimit) →
      (calls.foldl (History.step aggregate) h).join.Counts
        (calls.foldl (fun c call => (c.step aggregate call).1) c) from h _ _ counts_new hrange
  clear hrange
  induction calls with
  | nil => exact fun h c hc _ => hc
  | cons call calls ih =>
    intro h c hc hrange
    refine ih _ _ ?_ fun k => hrange (k + 1)
    rw [History.join_step]
    exact (hc.call aggregate call (hrange 1)).1

/-- **A join fires once, and exactly when it is settled.** Let the count stay below `2 ^ 63` through
some calls and one more. Then before and after the last call the join shows what a countdown shows,
and the call answers the same. Completing when nothing is outstanding is an overrun and changes
nothing. The last call fires the join if and only if it had not fired before and the call leaves
nothing outstanding and the gate open; so there is never a second outcome, and a join that is settled
has fired. The outcome is the total, in the order of the calls, of the completions counted so far, and
for the keeper of the first error that is: success if none failed, with the first result and the first
error. -/
theorem fires_once_when_settled (aggregate : Aggregator ρ ε) (calls : List (Call ρ ε)) (c : Call ρ ε)
    (hrange : ∀ k, (Countdown.run aggregate ((calls ++ [c]).take k)).remaining < countLimit) :
    let before := History.run aggregate calls
    let after := before.step aggregate c
    let answer := (before.join.call aggregate c).2
    let plain := Countdown.run aggregate calls
    before.join.Shows plain ∧
      after.join.Shows (plain.step aggregate c).1 ∧
      answer = (plain.step aggregate c).2 ∧
      (answer = .error .overrun ↔ plain.remaining = 0 ∧ ∃ completion, c = .complete completion) ∧
      (answer = .error .overrun → after = before) ∧
      ((∃ o, answer = .ok (some o)) ↔
        before.join.hasFired = false ∧ after.join.remaining = 0 ∧ after.join.isBlocked = false) ∧
      (after.join.remaining = 0 → after.join.isBlocked = false → after.join.hasFired = true) ∧
      (after.outcomes.length = if after.join.hasFired then 1 else 0) ∧
      (∀ o, answer = .ok (some o) → o = total aggregate after.counted ∧ after.outcomes = [o]) ∧
      ∀ counted : List (Except ε ρ × Bool),
        (total firstError counted).success = counted.all (fun x => x.1.isOk) ∧
          (total firstError counted).result = counted.findSome? (fun x => x.1.toOption) ∧
          (total firstError counted).error = counted.findSome? (fun x => error? x.1) := by
  intro before after answer plain
  have hbefore : before.join.Counts plain := by
    refine counts_run fun k => ?_
    have hk := hrange (min k calls.length)
    rwa [List.take_append_of_le_length (Nat.min_le_right _ _), ← List.take_take, List.take_length] at hk
  have hlast : (plain.step aggregate c).1.remaining < countLimit := by
    have hk := hrange (calls ++ [c]).length
    rwa [List.take_length, Countdown.run_concat] at hk
  obtain ⟨hafter, hanswer⟩ := hbefore.call aggregate c hlast
  rw [← History.join_step] at hafter
  obtain ⟨hsums, houtcome⟩ := (History.sums_run aggregate calls).step c
  have hfires := Countdown.fires_iff hbefore.settled aggregate c
  refine ⟨hbefore.shows, hafter.shows, hanswer, ?_, History.step_of_overrun, ?_, ?_, hsums.outcomes,
    houtcome, fun counted => ?_⟩
  · rw [show answer = _ from hanswer]
    exact plain.overruns_iff aggregate c
  · rw [hbefore.shows.hasFired, hafter.remaining_eq_zero_iff, hafter.shows.isBlocked, ← hfires,
      show answer = _ from hanswer]
  · rw [hafter.remaining_eq_zero_iff, hafter.shows.isBlocked, hafter.shows.hasFired]
    exact hafter.settled
  · rw [total_firstError]
    exact ⟨rfl, rfl, rfl⟩

/-- Two completions with the gate open: the second one, a failure, fires the join. -/
theorem fires_at_the_last_completion :
    let calls : List (Call Nat String) := [.register, .register, .unblock, .complete (.ok 7)]
    let late : Call Nat String := .complete (.error "late")
    (∀ k, (Countdown.run firstError ((calls ++ [late]).take k)).remaining < countLimit) ∧
      ∃ o, ((History.run firstError calls).join.call firstError late).2 = .ok (some o) := by
  intro calls late
  have hrange : ∀ k, (Countdown.run firstError ((calls ++ [late]).take k)).remaining < countLimit := by
    have hprefixes : ∀ k < 5, (Countdown.run firstError ((calls ++ [late]).take k)).remaining < countLimit :=
      by decide
    intro k
    by_cases hk : k < 5
    · exact hprefixes k hk
    · rw [List.take_of_length_le (Nat.le_of_not_lt hk)]
      decide
  exact ⟨hrange, (fires_once_when_settled firstError calls late hrange).2.2.2.2.2.1.2 (by decide)⟩

end ChunkRouter.Join
