import ChunkRouter.Proofs.Lane.Objects

/-!
# Forgetting lanes

Forgetting the idle lanes of a pool is not to be seen but in the number of its lanes. Two pools that
differ only in which idle lanes they know (`Pool.Alike`) answer every call alike, and a pool that forgets
some is alike itself, so a run that forgets lanes anywhere in it and the run that does not go the same way.
-/

namespace ChunkRouter.Lane

variable {τ : Type}

namespace Pool

/-- Two pools that tell the same about every lane, though the first may not know all the lanes that the
second knows. -/
structure Alike (p p' : Pool τ) : Prop where
  lane : ∀ t, p.lane t = p'.lane t
  turns : p.turns = p'.turns
  panics : p.panics = p'.panics
  meter : p.meter = p'.meter
  known : ∀ t ∈ p.lanes.map (·.1), t ∈ p'.lanes.map (·.1)

section

variable {p p' : Pool τ} {t : Token} {i : Nat}

theorem Alike.refl (p : Pool τ) : p.Alike p := ⟨fun _ => rfl, rfl, rfl, rfl, fun _ => id⟩

theorem Alike.setLane (h : p.Alike p') (t : Token) (l : State τ) :
    (p.setLane t l).Alike (p'.setLane t l) where
  lane := fun u => by rw [lane_setLane, lane_setLane, h.lane u]
  turns := by rw [turns_setLane, turns_setLane, h.turns]
  panics := by rw [(Shift.panics_setLane p t l).1, (Shift.panics_setLane p' t l).1, h.panics]
  meter := by rw [(Shift.panics_setLane p t l).2, (Shift.panics_setLane p' t l).2, h.meter]
  known := fun u hu =>
    (mem_names_setLane p' t u l).2 (((mem_names_setLane p t u l).1 hu).imp_right (h.known u))

theorem Alike.addTurn (h : p.Alike p') (t : Token) : (p.addTurn t).Alike (p'.addTurn t) :=
  ⟨h.lane, congrArg (· ++ [t]) h.turns, h.panics, h.meter, h.known⟩

theorem Alike.reportPanic (h : p.Alike p') : p.reportPanic.Alike p'.reportPanic :=
  ⟨h.lane, h.turns, congrArg (· + 1) h.panics, congrArg (Panic.report .lane) h.meter, h.known⟩

theorem Alike.push (h : p.Alike p') (t : Token) (task : τ) :
    (p.push t task).1.Alike (p'.push t task).1 ∧ (p.push t task).2 = (p'.push t task).2 := by
  unfold Pool.push
  rw [h.lane t]
  exact ⟨h.setLane t _, rfl⟩

theorem Alike.finishTurn (h : p.Alike p') (t : Token) :
    (p.finishTurn t).1.Alike (p'.finishTurn t).1 ∧ (p.finishTurn t).2 = (p'.finishTurn t).2 := by
  unfold Pool.finishTurn
  rw [h.lane t]
  split
  · exact ⟨h.setLane t _, rfl⟩
  · exact ⟨h, rfl⟩

theorem Alike.beginTurn (h : p.Alike p') (i : Nat) :
    (p.beginTurn i = none ∧ p'.beginTurn i = none) ∨
      ∃ q q' t task, p.beginTurn i = some (q, t, task) ∧ p'.beginTurn i = some (q', t, task) ∧
        q.Alike q' := by
  cases hturn : p.turns[i]? with
  | none =>
    exact .inl ⟨beginTurn_of_none hturn, beginTurn_of_none (h.turns ▸ hturn)⟩
  | some t =>
    have hturn' : p'.turns[i]? = some t := h.turns ▸ hturn
    have hpulled : Alike { p with turns := p.turns.eraseIdx i } { p' with turns := p'.turns.eraseIdx i } :=
      ⟨h.lane, congrArg (List.eraseIdx · i) h.turns, h.panics, h.meter, h.known⟩
    refine .inr ?_
    cases htasks : (p.lane t).tasks with
    | nil =>
      exact ⟨_, _, t, none, beginTurn_of_nil hturn htasks, beginTurn_of_nil hturn' (h.lane t ▸ htasks),
        hpulled.setLane t _⟩
    | cons task tasks =>
      have hbegin' := beginTurn_of_cons hturn' (h.lane t ▸ htasks)
      rw [← h.lane t] at hbegin'
      exact ⟨_, _, t, some task, beginTurn_of_cons hturn htasks, hbegin', hpulled.setLane t _⟩

/-- A pool that forgets idle lanes tells the same about every lane. -/
theorem Alike.forget (h : p.Alike p') (hdistinct : p.Distinct) (among : Token → Bool) :
    (p.forget among).Alike p' where
  lane := fun t => (hdistinct.lane_forget among t).trans (h.lane t)
  turns := h.turns
  panics := h.panics
  meter := h.meter
  known := fun t ht => h.known t ((List.filter_sublist.map _).subset ht)

end

end Pool

def Move.isForget : Move τ → Bool
  | .forget _ => true
  | _ => false

namespace Shift

/-- The same but for the idle lanes that are known. -/
def Alike (s s' : Shift τ) : Prop := s.pool.Alike s'.pool ∧ s' = { s with pool := s'.pool }

/-- A lane on which nothing waits and that has no turn, due, spawned or under way, and did not lose it. -/
def Vacant (s : Shift τ) (t : Token) : Prop := (s.pool.lane t).tasks = [] ∧ t ∉ s.busy ++ s.pool.turns

instance (s : Shift τ) (t : Token) : Decidable (s.Vacant t) := inferInstanceAs (Decidable (_ ∧ _))

section

variable {s s' : Shift τ} {t : Token}

/-- What is alike stays so when both do the same. -/
theorem Alike.step (h : s.Alike s') {m : Move τ} (hm : m.isForget = false) :
    (s.step m).Alike (s'.step m) := by
  obtain ⟨hpool, heq⟩ := h
  generalize s'.pool = p' at hpool heq
  subst heq
  cases m with
  | dispatch t task =>
    obtain ⟨hpush, hasks⟩ := hpool.push t task
    refine ⟨hpush, ?_⟩
    show Shift.mk _ (s.due ++ if (p'.push t task).2 then [t] else []) _ _ _ _ _ _ _ = _
    rw [← hasks]
    rfl
  | spawn i =>
    simp only [Shift.step]
    cases s.due[i]? with
    | none => exact ⟨hpool, rfl⟩
    | some t => exact ⟨hpool.addTurn t, rfl⟩
  | begin i =>
    show (s.begin i).Alike (Shift.begin { s with pool := p' } i)
    unfold Shift.begin
    rcases hpool.beginTurn i with ⟨hnone, hnone'⟩ | ⟨q, q', t, task, hsome, hsome', hq⟩
    · rw [hnone, hnone']
      exact ⟨hpool, rfl⟩
    · rw [hsome, hsome']
      cases task <;> exact ⟨hq, rfl⟩
  | finish i panics =>
    simp only [Shift.step]
    cases s.running[i]? with
    | none => exact ⟨hpool, rfl⟩
    | some r =>
      obtain ⟨t, task⟩ := r
      have hcounted : (if panics then s.pool.reportPanic else s.pool).Alike
          (if panics then p'.reportPanic else p') := by
        split
        · exact hpool.reportPanic
        · exact hpool
      obtain ⟨hfinish, hasks⟩ := hcounted.finishTurn t
      refine ⟨hfinish, ?_⟩
      show Shift.mk _ (s.due ++ if (Pool.finishTurn _ t).2 then [t] else []) _ _ _ _ _ _ _ = _
      rw [← hasks]
      rfl
  | burst i =>
    simp only [Shift.step]
    cases s.running[i]? with
    | none => exact ⟨hpool, rfl⟩
    | some r => exact ⟨hpool.reportPanic, rfl⟩
  | forget among => cases hm

/-- A run with prunes is alike the run without. -/
theorem Alike.foldl (h : s.Alike s') (hsound : s.Sound) (moves : List (Move τ)) :
    (moves.foldl Shift.step s).Alike ((moves.filter fun m => !m.isForget).foldl Shift.step s') := by
  induction moves generalizing s s' with
  | nil => exact h
  | cons m moves ih =>
    cases hm : m.isForget with
    | false =>
      rw [List.filter_cons_of_pos (by rw [hm]; rfl)]
      exact ih (h.step hm) (hsound.step m)
    | true =>
      rw [List.filter_cons_of_neg (by rw [hm]; exact Bool.false_ne_true)]
      refine ih ?_ (hsound.step m)
      cases m with
      | forget among => exact ⟨h.1.forget hsound.sane.distinct among, h.2⟩
      | _ => cases hm

/-- The idle lanes are those with neither a task nor a turn. -/
theorem Sound.isIdle_iff (h : s.Sound) {l : Token × State τ} (hl : l ∈ s.pool.lanes) :
    l.2.isIdle = true ↔ s.Vacant l.1 := by
  rw [Vacant, ← h.sane.scheduled, h.sane.distinct.lane_of_mem hl, State.isIdle]
  cases l.2.scheduled <;> simp

/-- The lanes that are forgotten are those among them with neither a task nor a turn. -/
theorem Sound.forget_eq (h : s.Sound) (among : Token → Bool) :
    s.pool.forget among =
      { s.pool with lanes := s.pool.lanes.filter fun l => ¬(among l.1 = true ∧ s.Vacant l.1) } := by
  refine congrArg (fun lanes => { s.pool with lanes := lanes }) (List.filter_congr fun l hl => ?_)
  have hidle : decide (s.Vacant l.1) = l.2.isIdle := by
    rw [Bool.eq_iff_iff, decide_eq_true_iff, h.isIdle_iff hl]
  rw [decide_not, Bool.decide_and, Bool.decide_eq_true, hidle]

/-- A prune in one step forgets all lanes with neither a task nor a turn, and tells how many they were. -/
theorem Sound.prune_eq (h : s.Sound) :
    s.pool.prune = ({ s.pool with lanes := s.pool.lanes.filter fun l => ¬s.Vacant l.1 },
      (s.pool.lanes.filter fun l => s.Vacant l.1).length) := by
  have hall := h.forget_eq fun _ => true
  simp only [true_and] at hall
  have hlength := List.length_eq_length_filter_add (l := s.pool.lanes) fun l => s.Vacant l.1
  have hkept : s.pool.prune.1.lanes.length =
      (s.pool.lanes.filter fun l => !decide (s.Vacant l.1)).length := by
    rw [Pool.prune_eq_forget, hall]
    simp only [decide_not]
  refine Prod.ext ((Pool.prune_eq_forget _).trans hall) ?_
  show s.pool.lanes.length - s.pool.prune.1.lanes.length = _
  omega

end

end Shift

end ChunkRouter.Lane
