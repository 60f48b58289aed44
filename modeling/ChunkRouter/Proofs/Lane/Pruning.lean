import Mathlib.Data.List.FinRange
import ChunkRouter.Proofs.Lane.Forgetting

/-!
# Pruning

A call that prunes is not one step. The directory of a pool is kept in shards, each behind a lock of its
own, and the call counts the lanes shard by shard, goes through the shards and looks at one lane after
another, and counts again; the difference of its counts is the answer. A `Yard` is a pool at work with
calls that are that far, and anything may happen between any two of their steps. (The locks rule out some
of that: while a call is in a shard no lane is added to it.) So a call answers how many lanes it forgot,
give or take those that came and went between its counts (`Call.Books`), and it forgets every lane that was
idle from its beginning to its end (`Call.Swept`). A call that nothing comes in between is the prune in one
step (`Call.alone`).
-/

namespace ChunkRouter.Lane

variable {τ : Type}

/-! ## Calls under way -/

/-- How far a call that prunes has come. -/
inductive Stage (n : Nat) where
  /-- It counts the lanes, and has yet to count those in these shards. -/
  | counting (shards : List (Fin n))
  /-- It has yet to look at these lanes of the shard that it is in, and to enter these shards. -/
  | sweeping (lanes : List Token) (shards : List (Fin n))
  /-- It counts again, and has yet to count these shards. -/
  | recounting (shards : List (Fin n))

/-- A call that prunes, in a directory of `n` shards. -/
structure Call (n : Nat) where
  stage : Stage n
  /-- The lanes that it counted first. -/
  before : Nat
  /-- The lanes that it counted again. -/
  after : Nat
  /-- The lanes that it forgot. -/
  forgotten : List Token
  /-- How many lanes came into shards that were counted and not counted again. -/
  came : Nat
  /-- How many lanes went from such shards, those that the call itself forgot left out. -/
  went : Nat
  /-- The lanes that were known when it began, and idle from then on. -/
  still : List Token

/-- The shards that are yet to be counted, entered or counted again. -/
def Stage.shards {n : Nat} : Stage n → List (Fin n)
  | .counting shards | .sweeping _ shards | .recounting shards => shards

/-- The lanes in a shard are counted, and to be counted again. -/
def Stage.watches {n : Nat} (k : Fin n) : Stage n → Bool
  | .counting shards => decide (k ∉ shards)
  | .sweeping _ _ => true
  | .recounting shards => decide (k ∈ shards)

namespace Call

variable {n : Nat}

def new (n : Nat) (p : Pool τ) : Call n :=
  ⟨.counting (List.finRange n), 0, 0, [], 0, 0, (p.lanes.filter (·.2.isIdle)).map (·.1)⟩

def IsOver (c : Call n) : Prop := c.stage = .recounting []

def answer (c : Call n) : Nat := c.before - c.after

variable (shard : Token → Fin n)

/-- How many lanes there are that the call counted and is to count again. -/
def watched (c : Call n) (p : Pool τ) : Nat := p.lanes.countP fun l => c.stage.watches (shard l.1)

/-- Somebody made `p'` of a pool. -/
def note (p p' : Pool τ) (c : Call n) : Call n :=
  { c with
    came := c.came + (c.watched shard p' - c.watched shard p)
    went := c.went + (c.watched shard p - c.watched shard p')
    still := c.still.filter fun t => (p'.lane t).isIdle }

/-- The lane that a call looks at next. -/
def looksAt? (c : Call n) : Option Token :=
  match c.stage with
  | .sweeping (t :: _) _ => some t
  | _ => none

/-- What a call makes of a pool in its next step: it forgets the lane that it looks at, if that is idle. -/
def pool (c : Call n) (p : Pool τ) : Pool τ :=
  match c.looksAt? with
  | some t => p.forget fun u => decide (u = t)
  | none => p

/-- The next step of a call on a pool. -/
def advance (p : Pool τ) (c : Call n) : Call n :=
  match c.stage with
  | .counting (k :: shards) =>
    { c with stage := .counting shards, before := c.before + p.lanes.countP fun l => decide (shard l.1 = k) }
  | .counting [] => { c with stage := .sweeping [] (List.finRange n) }
  | .sweeping (t :: lanes) shards =>
    { c with
      stage := .sweeping lanes shards
      forgotten := c.forgotten ++ (p.lanes.filter fun l => decide (l.1 = t) && l.2.isIdle).map (·.1) }
  | .sweeping [] (k :: shards) =>
    { c with stage := .sweeping ((p.lanes.filter fun l => decide (shard l.1 = k)).map (·.1)) shards }
  | .sweeping [] [] => { c with stage := .recounting (List.finRange n) }
  | .recounting (k :: shards) =>
    { c with stage := .recounting shards, after := c.after + p.lanes.countP fun l => decide (shard l.1 = k) }
  | .recounting [] => c

end Call

/-! ## What a call counts -/

namespace Call

/-- The counts of a call that went through a pool: what it counted and what came since is what it is to
count again, what it counted again, what it forgot and what went otherwise. -/
structure Books {n : Nat} (shard : Token → Fin n) (p : Pool τ) (c : Call n) : Prop where
  fresh : c.stage.shards.Nodup
  balance : c.before + c.came = c.watched shard p + c.after + c.forgotten.length + c.went

section

variable {n : Nat} {shard : Token → Fin n} {p p' : Pool τ} {c : Call n} {k : Fin n}

theorem books_new (shard : Token → Fin n) (p : Pool τ) : (new n p).Books shard p where
  fresh := List.nodup_finRange n
  balance := by
    have hnone : (new n p).watched shard p = 0 := by
      refine List.countP_eq_zero.2 fun l _ => ?_
      simp [new, Stage.watches, List.mem_finRange]
    rw [hnone]
    rfl

theorem Books.note (h : c.Books shard p) (p' : Pool τ) : (c.note shard p p').Books shard p' where
  fresh := h.fresh
  balance := by
    have hbalance := h.balance
    show c.before + (c.came + (c.watched shard p' - c.watched shard p)) =
      c.watched shard p' + c.after + c.forgotten.length +
        (c.went + (c.watched shard p - c.watched shard p'))
    omega

/-- What is counted of one kind and of another is counted of both, if they exclude each other. -/
theorem countP_add {α : Type} {q r both : α → Bool} {l : List α}
    (h : ∀ x, (both x).toNat = (q x).toNat + (r x).toNat) : l.countP both = l.countP q + l.countP r := by
  induction l with
  | nil => rfl
  | cons x l ih =>
    have hx := h x
    rw [List.countP_cons, List.countP_cons, List.countP_cons, ih]
    cases hb : both x <;> cases hq : q x <;> cases hr : r x <;> rw [hb, hq, hr] at hx <;> simp at hx ⊢
    all_goals omega

/-- A shard that is counted is watched from then on. -/
theorem watched_counting (p : Pool τ) {shards : List (Fin n)} (hk : k ∉ shards) :
    (p.lanes.countP fun l => (Stage.counting shards).watches (shard l.1)) =
      (p.lanes.countP fun l => (Stage.counting (k :: shards)).watches (shard l.1)) +
        p.lanes.countP fun l => decide (shard l.1 = k) := by
  refine countP_add fun l => ?_
  by_cases hl : shard l.1 = k
  · simp [Stage.watches, hl, hk]
  · simp [Stage.watches, hl]

/-- A shard that is counted again is watched no longer. -/
theorem watched_recounting (p : Pool τ) {shards : List (Fin n)} (hk : k ∉ shards) :
    (p.lanes.countP fun l => (Stage.recounting (k :: shards)).watches (shard l.1)) =
      (p.lanes.countP fun l => (Stage.recounting shards).watches (shard l.1)) +
        p.lanes.countP fun l => decide (shard l.1 = k) := by
  refine countP_add fun l => ?_
  by_cases hl : shard l.1 = k
  · simp [Stage.watches, hl, hk]
  · simp [Stage.watches, hl]

/-- Every lane is watched between the counts. -/
theorem watched_all (p : Pool τ) {stage : Stage n} (h : ∀ k, stage.watches k = true) :
    (p.lanes.countP fun l => stage.watches (shard l.1)) = p.lanes.length := by
  rw [List.countP_eq_length]
  exact fun l _ => h _

/-- A lane that is looked at is forgotten or stays. -/
theorem length_forget (p : Pool τ) (among : Token → Bool) :
    p.lanes.length =
      (p.forget among).lanes.length + (p.lanes.filter fun l => among l.1 && l.2.isIdle).length := by
  have hlength := List.length_eq_length_filter_add (l := p.lanes) fun l => among l.1 && l.2.isIdle
  show p.lanes.length = (p.lanes.filter fun l => !(among l.1 && l.2.isIdle)).length + _
  omega

theorem Books.advance (h : c.Books shard p) : (c.advance shard p).Books shard (c.pool p) := by
  obtain ⟨stage, before, after, forgotten, came, went, still⟩ := c
  obtain ⟨hfresh, hbalance⟩ := h
  simp only [watched] at hbalance
  cases stage with
  | counting shards =>
    cases shards with
    | nil =>
      refine ⟨List.nodup_finRange n, ?_⟩
      simp only [Call.advance, Call.pool, looksAt?, watched]
      rw [watched_all p fun _ => rfl]
      rwa [watched_all p fun k => by simp [Stage.watches]] at hbalance
    | cons k shards =>
      obtain ⟨hk, hrest⟩ := List.nodup_cons.1 hfresh
      refine ⟨hrest, ?_⟩
      simp only [Call.advance, Call.pool, looksAt?, watched]
      rw [watched_counting p hk]
      omega
  | sweeping lanes shards =>
    rw [watched_all p fun _ => rfl] at hbalance
    rcases lanes with _ | ⟨t, lanes⟩
    · rcases shards with _ | ⟨k, shards⟩
      · refine ⟨List.nodup_finRange n, ?_⟩
        simp only [Call.advance, Call.pool, looksAt?, watched]
        rwa [watched_all p fun k => by simp [Stage.watches, List.mem_finRange]]
      · refine ⟨(List.nodup_cons.1 hfresh).2, ?_⟩
        simp only [Call.advance, Call.pool, looksAt?, watched]
        rwa [watched_all p fun _ => rfl]
    · refine ⟨hfresh, ?_⟩
      have hlength := length_forget p fun u => decide (u = t)
      simp only [Call.advance, Call.pool, looksAt?, watched, List.length_append, List.length_map]
      rw [watched_all _ fun _ => rfl]
      omega
  | recounting shards =>
    cases shards with
    | nil => exact ⟨hfresh, hbalance⟩
    | cons k shards =>
      obtain ⟨hk, hrest⟩ := List.nodup_cons.1 hfresh
      refine ⟨hrest, ?_⟩
      rw [watched_recounting p hk] at hbalance
      simp only [Call.advance, Call.pool, looksAt?, watched]
      omega

/-- A call answers how many lanes it forgot, and those that went otherwise, less those that came. -/
theorem Books.answer_eq (h : c.Books shard p) (hover : c.IsOver) :
    c.answer = c.forgotten.length + c.went - c.came := by
  have hbalance := h.balance
  have hnone : c.watched shard p = 0 := by
    refine List.countP_eq_zero.2 fun l _ => ?_
    rw [hover]
    simp [Stage.watches]
  unfold answer
  omega

end

end Call

/-! ## What a call forgets -/

/-- The call has yet to look at a lane. -/
def Stage.awaits {n : Nat} (shard : Token → Fin n) (t : Token) : Stage n → Prop
  | .counting _ => True
  | .sweeping lanes shards => t ∈ lanes ∨ shard t ∈ shards
  | .recounting _ => False

/-- How far a call has come: what is left of the call, then the shards, then the lanes. -/
def Stage.rank {n : Nat} : Stage n → Nat × Nat × Nat
  | .counting shards => (2, shards.length, 0)
  | .sweeping lanes shards => (1, shards.length, lanes.length)
  | .recounting shards => (0, shards.length, 0)

/-- A lane that was idle since a call began is still idle, and it is forgotten or to be looked at. -/
structure Call.Swept {n : Nat} (shard : Token → Fin n) (p : Pool τ) (c : Call n) : Prop where
  idle : ∀ t ∈ c.still, (p.lane t).isIdle = true
  ahead : ∀ t ∈ c.still, t ∈ p.lanes.map (·.1) → c.stage.awaits shard t

/-- The end of a turn makes no lane known but that of the turn. -/
theorem Pool.mem_names_finishTurn {p : Pool τ} {t u : Token}
    (h : t ∈ (p.finishTurn u).1.lanes.map (·.1)) : t = u ∨ t ∈ p.lanes.map (·.1) := by
  unfold Pool.finishTurn at h
  split at h
  · exact (Pool.mem_names_setLane p u t _).1 h
  · exact .inr h

/-- A lane that is made known is not idle. -/
theorem Shift.Sound.known_of_isIdle {s : Shift τ} (h : s.Sound) {m : Move τ} {t : Token}
    (hidle : (s.pool.lane t).isIdle = true) (hidle' : ((s.step m).pool.lane t).isIdle = true)
    (hknown : t ∈ (s.step m).pool.lanes.map (·.1)) : t ∈ s.pool.lanes.map (·.1) := by
  have hoff : (s.pool.lane t).scheduled = false := by
    rw [Pool.State.eq_idle_of_isIdle hidle]
    rfl
  -- a lane that has a turn is scheduled
  have hturn : t ∉ s.busy ++ s.pool.turns := fun hmem =>
    Bool.false_ne_true (hoff.symm.trans ((h.sane.scheduled t).2 hmem))
  cases m with
  | dispatch u task =>
    refine ((Pool.mem_names_setLane s.pool u t _).1 hknown).resolve_left fun htu => ?_
    rw [← htu] at hidle'
    have hon : ((s.step (.dispatch t task)).pool.lane t).isIdle = false := by
      show ((s.pool.setLane t _).lane t).isIdle = false
      rw [Pool.lane_setLane, if_pos rfl]
      rfl
    exact Bool.false_ne_true (hon.symm.trans hidle')
  | spawn i =>
    simp only [Shift.step] at hknown
    split at hknown <;> exact hknown
  | begin i =>
    cases hfront : s.pool.turns[i]? with
    | none =>
      simp only [Shift.step, Shift.begin, Pool.beginTurn_of_none hfront] at hknown
      exact hknown
    | some u =>
      have hne : t ≠ u := fun htu =>
        hturn (List.mem_append_right _ (htu ▸ List.mem_of_getElem? hfront))
      cases htasks : (s.pool.lane u).tasks with
      | nil =>
        simp only [Shift.step, Shift.begin, Pool.beginTurn_of_nil hfront htasks] at hknown
        exact ((Pool.mem_names_setLane _ u t _).1 hknown).resolve_left hne
      | cons task tasks =>
        simp only [Shift.step, Shift.begin, Pool.beginTurn_of_cons hfront htasks] at hknown
        exact ((Pool.mem_names_setLane _ u t _).1 hknown).resolve_left hne
  | finish i panics =>
    cases hrun : s.running[i]? with
    | none =>
      simp only [Shift.step, hrun] at hknown
      exact hknown
    | some r =>
      have hne : t ≠ r.1 := fun htr => hturn <| by
        have hmem : r.1 ∈ s.running.map (·.1) := List.mem_map_of_mem (List.mem_of_getElem? hrun)
        simp only [Shift.busy, List.mem_append]
        exact .inl (.inl (.inr (htr ▸ hmem)))
      have hcounted : (if panics then s.pool.reportPanic else s.pool).lanes = s.pool.lanes := by
        cases panics <;> rfl
      simp only [Shift.step, hrun] at hknown
      have hmem := (Pool.mem_names_finishTurn hknown).resolve_left hne
      rwa [hcounted] at hmem
  | burst i =>
    simp only [Shift.step] at hknown
    split at hknown <;> exact hknown
  | forget among => exact (List.filter_sublist.map _).subset hknown

namespace Call

section

variable {n : Nat} {shard : Token → Fin n} {p p' : Pool τ} {c : Call n} {t : Token}

theorem swept_new (shard : Token → Fin n) (hdistinct : p.Distinct) : (new n p).Swept shard p where
  idle := fun t ht => by
    obtain ⟨l, hl, rfl⟩ := List.mem_map.1 ht
    obtain ⟨hmem, hidle⟩ := List.mem_filter.1 hl
    rwa [hdistinct.lane_of_mem hmem]
  ahead := fun _ _ _ => trivial

theorem Swept.note (h : c.Swept shard p)
    (hknown : ∀ t, (p.lane t).isIdle = true → (p'.lane t).isIdle = true → t ∈ p'.lanes.map (·.1) →
      t ∈ p.lanes.map (·.1)) :
    (c.note shard p p').Swept shard p' where
  idle := fun _ ht => (List.mem_filter.1 ht).2
  ahead := fun t ht hmem => by
    obtain ⟨hstill, hidle⟩ := List.mem_filter.1 ht
    exact h.ahead t hstill (hknown t (h.idle t hstill) hidle hmem)

/-- A call makes nothing of a pool, or forgets the lane that it looks at. -/
theorem pool_eq_forget (c : Call n) (p : Pool τ) : ∃ among, c.pool p = p.forget among := by
  unfold pool
  split
  · exact ⟨_, rfl⟩
  · refine ⟨fun _ => false, ?_⟩
    have hall : p.lanes.filter (fun _ => true) = p.lanes := List.filter_eq_self.2 fun _ _ => rfl
    show p = { p with lanes := p.lanes.filter fun _ => true }
    rw [hall]

/-- A lane that was looked at is not known any more if it was idle. -/
theorem ne_of_mem_forget (hdistinct : p.Distinct) {u : Token} (hidle : (p.lane t).isIdle = true)
    (h : t ∈ (p.forget fun v => decide (v = u)).lanes.map (·.1)) : t ≠ u := by
  obtain ⟨l, hl, rfl⟩ := List.mem_map.1 h
  obtain ⟨hmem, hkept⟩ := List.mem_filter.1 hl
  rw [hdistinct.lane_of_mem hmem] at hidle
  rw [hidle, Bool.and_true] at hkept
  exact fun htu => Bool.false_ne_true ((congrArg not (decide_eq_true htu)).symm.trans hkept)

theorem still_advance (c : Call n) (p : Pool τ) : (c.advance shard p).still = c.still := by
  unfold advance
  split <;> rfl

theorem Swept.advance (h : c.Swept shard p) (hdistinct : p.Distinct) :
    (c.advance shard p).Swept shard (c.pool p) where
  idle := fun t ht => by
    rw [still_advance] at ht
    obtain ⟨among, heq⟩ := c.pool_eq_forget p
    rw [heq, hdistinct.lane_forget]
    exact h.idle t ht
  ahead := fun t ht hmem => by
    rw [still_advance] at ht
    obtain ⟨stage, before, after, forgotten, came, went, still⟩ := c
    have hahead := h.ahead t ht
    cases stage with
    | counting shards =>
      cases shards with
      | nil => exact .inr (List.mem_finRange _)
      | cons k shards => trivial
    | sweeping lanes shards =>
      rcases lanes with _ | ⟨u, lanes⟩
      · rcases shards with _ | ⟨k, shards⟩
        · exact (hahead hmem).elim List.not_mem_nil List.not_mem_nil
        · rcases List.mem_cons.1 ((hahead hmem).resolve_left List.not_mem_nil) with hk | hlater
          · obtain ⟨l, hl, rfl⟩ := List.mem_map.1 hmem
            exact .inl (List.mem_map_of_mem (List.mem_filter.2 ⟨hl, decide_eq_true hk⟩))
          · exact .inr hlater
      · have hne := ne_of_mem_forget hdistinct (h.idle t ht) hmem
        have hwas : t ∈ p.lanes.map (·.1) := (List.filter_sublist.map _).subset hmem
        exact (hahead hwas).imp_left fun hlanes => (List.mem_cons.1 hlanes).resolve_left hne
    | recounting shards =>
      cases shards with
      | nil => exact hahead hmem
      | cons k shards => exact hahead hmem

/-- Every step brings a call nearer to its end. -/
theorem rank_advance (hover : ¬c.IsOver) (p : Pool τ) :
    Prod.Lex (· < ·) (Prod.Lex (· < ·) (· < ·)) (c.advance shard p).stage.rank c.stage.rank := by
  obtain ⟨stage, before, after, forgotten, came, went, still⟩ := c
  cases stage with
  | counting shards =>
    cases shards with
    | nil => exact .left _ _ Nat.one_lt_two
    | cons k shards => exact .right _ (.left _ _ (Nat.lt_succ_self _))
  | sweeping lanes shards =>
    rcases lanes with _ | ⟨t, lanes⟩
    · rcases shards with _ | ⟨k, shards⟩
      · exact .left _ _ Nat.one_pos
      · exact .right _ (.left _ _ (Nat.lt_succ_self _))
    · exact .right _ (.right _ (Nat.lt_succ_self _))
  | recounting shards =>
    cases shards with
    | nil => exact absurd rfl hover
    | cons k shards => exact .right _ (.left _ _ (Nat.lt_succ_self _))

end

/-! ## A call that nothing comes in between -/

/-- A call goes on, on a pool that nobody else has to do with. -/
def stride {n : Nat} (shard : Token → Fin n) (x : Pool τ × Call n) : Pool τ × Call n :=
  (x.2.pool x.1, x.2.advance shard x.1)

/-- What a call makes of a pool `p` that nobody else has to do with. -/
structure Alone {n : Nat} (shard : Token → Fin n) (p : Pool τ) (x : Pool τ × Call n) : Prop where
  books : x.2.Books shard x.1
  swept : x.2.Swept shard x.1
  pool : ∃ among, x.1 = p.forget among
  length : p.lanes.length = x.1.lanes.length + x.2.forgotten.length
  came : x.2.came = 0
  went : x.2.went = 0
  still : x.2.still = (p.lanes.filter (·.2.isIdle)).map (·.1)

section

variable {n : Nat} {shard : Token → Fin n} {p : Pool τ} {x : Pool τ × Call n}

theorem forget_forget (p : Pool τ) (among among' : Token → Bool) :
    (p.forget among).forget among' = p.forget fun t => among t || among' t := by
  refine congrArg (fun lanes => { p with lanes := lanes }) ?_
  rw [Pool.forget, List.filter_filter]
  refine List.filter_congr fun l _ => ?_
  show (!(among' l.1 && l.2.isIdle) && !(among l.1 && l.2.isIdle)) =
    !((among l.1 || among' l.1) && l.2.isIdle)
  rw [Bool.and_or_distrib_right, Bool.not_or, Bool.and_comm]

/-- What a call forgets is what the pool loses. -/
theorem length_pool (shard : Token → Fin n) (c : Call n) (p : Pool τ) :
    (c.pool p).lanes.length + (c.advance shard p).forgotten.length =
      p.lanes.length + c.forgotten.length := by
  obtain ⟨stage, before, after, forgotten, came, went, still⟩ := c
  cases stage with
  | counting shards => cases shards <;> rfl
  | sweeping lanes shards =>
    rcases lanes with _ | ⟨t, lanes⟩
    · cases shards <;> rfl
    · have hlength := length_forget p fun u => decide (u = t)
      simp only [Call.advance, Call.pool, looksAt?, List.length_append, List.length_map]
      omega
  | recounting shards => cases shards <;> rfl

theorem alone_new (shard : Token → Fin n) (hdistinct : p.Distinct) : Alone shard p (p, new n p) where
  books := books_new shard p
  swept := swept_new shard hdistinct
  pool := (new n p).pool_eq_forget p
  length := rfl
  came := rfl
  went := rfl
  still := rfl

theorem Alone.stride (h : Alone shard p x) (hdistinct : p.Distinct) :
    Alone shard p (stride shard x) := by
  obtain ⟨among, hpool⟩ := h.pool
  have hdistinct' : x.1.Distinct := hpool ▸ hdistinct.forget among
  have hnote : (x.2.advance shard x.1).came = x.2.came ∧ (x.2.advance shard x.1).went = x.2.went := by
    unfold Call.advance
    split <;> exact ⟨rfl, rfl⟩
  refine ⟨h.books.advance, h.swept.advance hdistinct', ?_, ?_, hnote.1.trans h.came,
    hnote.2.trans h.went, (still_advance x.2 x.1).trans h.still⟩
  · obtain ⟨among', hnext⟩ := x.2.pool_eq_forget x.1
    refine ⟨fun t => among t || among' t, ?_⟩
    rw [← forget_forget, ← hpool]
    exact hnext
  · have hlength := h.length
    have hnext := length_pool shard x.2 x.1
    show p.lanes.length = (x.2.pool x.1).lanes.length + (x.2.advance shard x.1).forgotten.length
    omega

/-- A call comes to its end. -/
theorem exists_isOver (shard : Token → Fin n) (x : Pool τ × Call n) :
    ∃ k, ((stride shard)^[k] x).2.IsOver := by
  by_cases hover : x.2.IsOver
  · exact ⟨0, hover⟩
  · obtain ⟨k, hk⟩ := exists_isOver shard (stride shard x)
    exact ⟨k + 1, hk⟩
termination_by x.2.stage.rank
decreasing_by exact rank_advance hover x.1

/-- When it is over, the pool is pruned and the number of the lanes it lost is the answer. -/
theorem Alone.eq_prune (h : Alone shard p x) (hover : x.2.IsOver) :
    (x.1, x.2.answer) = p.prune := by
  obtain ⟨among, hpool⟩ := h.pool
  have hidle : ∀ l ∈ p.lanes, l.2.isIdle = true → among l.1 = true := by
    intro l hl hidle
    by_contra hnot
    have hmem : l.1 ∈ x.1.lanes.map (·.1) := by
      rw [hpool]
      refine List.mem_map_of_mem (List.mem_filter.2 ⟨hl, ?_⟩)
      rw [Bool.not_eq_true] at hnot
      rw [hnot]
      rfl
    have hstill : l.1 ∈ x.2.still := by
      rw [h.still]
      exact List.mem_map_of_mem (List.mem_filter.2 ⟨hl, hidle⟩)
    have hahead := h.swept.ahead l.1 hstill hmem
    rw [hover] at hahead
    exact hahead
  have hpruned : x.1 = p.prune.1 := by
    rw [hpool]
    refine congrArg (fun lanes => { p with lanes := lanes }) (List.filter_congr fun l hl => ?_)
    cases hi : l.2.isIdle
    · rw [Bool.and_false]
    · rw [hidle l hl hi]
      rfl
  refine Prod.ext hpruned ?_
  have hlength := h.length
  show x.2.answer = p.lanes.length - p.prune.1.lanes.length
  rw [h.books.answer_eq hover, h.came, h.went, ← hpruned]
  omega

/-- A call that nothing comes in between is a prune in one step. -/
theorem alone (shard : Token → Fin n) (hdistinct : p.Distinct) :
    ∃ k, ((stride shard)^[k] (p, new n p)).2.IsOver ∧
      (((stride shard)^[k] (p, new n p)).1, ((stride shard)^[k] (p, new n p)).2.answer) = p.prune := by
  obtain ⟨k, hover⟩ := exists_isOver shard (p, new n p)
  have halone : ∀ k, Alone shard p ((stride shard)^[k] (p, new n p)) := by
    intro k
    induction k with
    | zero => exact alone_new shard hdistinct
    | succ k ih =>
      rw [Function.iterate_succ_apply']
      exact ih.stride hdistinct
  exact ⟨k, hover, (halone k).eq_prune hover⟩

end

end Call

/-! ## Any number of calls -/

/-- A pool at work, and the calls that prune it. -/
structure Yard (n : Nat) (τ : Type) where
  /-- The moves so far, in order. -/
  trace : List (Move τ)
  calls : List (Call n)

namespace Yard

variable {n : Nat}

/-- What happens next: a move, or a call that prunes begins, or the call at place `j` goes on. -/
inductive Act (τ : Type) where
  | move (m : Move τ)
  | call
  | advance (j : Nat)

/-- What an act is when nobody prunes. -/
def Act.kept? : Act τ → Option (Move τ)
  | .move m => if m.isForget then none else some m
  | _ => none

def new (n : Nat) : Yard n τ := ⟨[], []⟩

def shift (y : Yard n τ) : Shift τ := Shift.run y.trace

variable (shard : Token → Fin n)

/-- Make a move, of which the calls take note. -/
def move (y : Yard n τ) (m : Move τ) : Yard n τ :=
  ⟨y.trace ++ [m], y.calls.map (Call.note shard y.shift.pool (y.shift.step m).pool)⟩

/-- The call at place `j`, which is `c`, goes on. -/
def advance (y : Yard n τ) (j : Nat) (c : Call n) : Yard n τ :=
  let y' := match c.looksAt? with
    | some t => y.move shard (.forget fun u => decide (u = t))
    | none => y
  { y' with calls := y'.calls.set j (c.advance shard y.shift.pool) }

def act (y : Yard n τ) : Act τ → Yard n τ
  | .move m => y.move shard m
  | .call => { y with calls := y.calls ++ [.new n y.shift.pool] }
  | .advance j =>
    match y.calls[j]? with
    | some c => y.advance shard j c
    | none => y

def run (acts : List (Act τ)) : Yard n τ := acts.foldl (act shard) (new n)

/-- What every act keeps of the calls. -/
def Kept (y : Yard n τ) : Prop :=
  ∀ c ∈ y.calls, c.Books shard y.shift.pool ∧ c.Swept shard y.shift.pool

section

variable {shard : Token → Fin n} {y : Yard n τ} {c : Call n} {j : Nat}

theorem sound_shift (y : Yard n τ) : y.shift.Sound := Shift.sound_new.foldl y.trace

theorem shift_move (y : Yard n τ) (m : Move τ) : (y.move shard m).shift = y.shift.step m := by
  show Shift.run (y.trace ++ [m]) = (Shift.run y.trace).step m
  unfold Shift.run
  rw [List.foldl_append]
  rfl

theorem Kept.move (h : y.Kept shard) (m : Move τ) : (y.move shard m).Kept shard := by
  intro c hc
  obtain ⟨c, hmem, rfl⟩ := List.mem_map.1 hc
  obtain ⟨hbooks, hswept⟩ := h c hmem
  rw [shift_move]
  exact ⟨hbooks.note _, hswept.note fun _ hidle hidle' => y.sound_shift.known_of_isIdle hidle hidle'⟩

theorem pool_advance (y : Yard n τ) (j : Nat) (c : Call n) :
    (y.advance shard j c).shift.pool = c.pool y.shift.pool := by
  unfold advance Call.pool
  cases c.looksAt? with
  | none => rfl
  | some t =>
    show (y.move shard _).shift.pool = _
    rw [shift_move]
    rfl

theorem Kept.advance (h : y.Kept shard) (hc : c ∈ y.calls) (j : Nat) :
    (y.advance shard j c).Kept shard := by
  have hothers : (match c.looksAt? with
      | some t => y.move shard (.forget fun u => decide (u = t))
      | none => y).Kept shard := by
    split
    · exact h.move _
    · exact h
  intro c' hc'
  rcases List.mem_or_eq_of_mem_set hc' with hmem | rfl
  · exact hothers c' hmem
  · obtain ⟨hbooks, hswept⟩ := h c hc
    rw [pool_advance]
    exact ⟨hbooks.advance, hswept.advance y.sound_shift.sane.distinct⟩

theorem Kept.act (h : y.Kept shard) (a : Act τ) : (y.act shard a).Kept shard := by
  cases a with
  | move m => exact h.move m
  | call =>
    intro c hc
    rcases List.mem_append.1 hc with hmem | hnew
    · exact h c hmem
    · rw [List.mem_singleton.1 hnew]
      exact ⟨Call.books_new shard _, Call.swept_new shard y.sound_shift.sane.distinct⟩
  | advance j =>
    simp only [Yard.act]
    split
    · rename_i hj
      exact h.advance (List.mem_of_getElem? hj) j
    · exact h

theorem Kept.foldl (h : y.Kept shard) (acts : List (Act τ)) :
    (acts.foldl (Yard.act shard) y).Kept shard := by
  induction acts generalizing y with
  | nil => exact h
  | cons a acts ih => exact ih (h.act a)

/-- The moves that are made, but for those that forget lanes, are those that are made when nobody prunes. -/
theorem trace_act (y : Yard n τ) (a : Act τ) :
    (y.act shard a).trace.filter (fun m => !m.isForget) =
      y.trace.filter (fun m => !m.isForget) ++ [a].filterMap Act.kept? := by
  have hmove : ∀ m : Move τ, (y.move shard m).trace.filter (fun m => !m.isForget) =
      y.trace.filter (fun m => !m.isForget) ++ [Act.move m].filterMap Act.kept? := by
    intro m
    show (y.trace ++ [m]).filter (fun m => !m.isForget) = _
    rw [List.filter_append]
    cases hm : m.isForget <;> simp [hm, Act.kept?]
  cases a with
  | move m => exact hmove m
  | call => exact (List.append_nil _).symm
  | advance j =>
    simp only [Yard.act]
    split
    · unfold advance
      split
      · exact hmove _
      · exact (List.append_nil _).symm
    · exact (List.append_nil _).symm

theorem trace_foldl (y : Yard n τ) (acts : List (Act τ)) :
    (acts.foldl (act shard) y).trace.filter (fun m => !m.isForget) =
      y.trace.filter (fun m => !m.isForget) ++ acts.filterMap Act.kept? := by
  induction acts generalizing y with
  | nil => exact (List.append_nil _).symm
  | cons a acts ih =>
    have hcons : (a :: acts).filterMap Act.kept? = [a].filterMap Act.kept? ++ acts.filterMap Act.kept? :=
      List.filterMap_append (l := [a])
    rw [List.foldl_cons, ih, trace_act, hcons, List.append_assoc]

/-- A call that goes on while nothing else happens does so alone. -/
theorem foldl_advance (shard : Token → Fin n) (hc : y.calls[j]? = some c) (k : Nat) :
    let y' := (List.replicate k (.advance j)).foldl (act shard) y
    let x := (Call.stride shard)^[k] (y.shift.pool, c)
    y'.shift.pool = x.1 ∧ y'.calls[j]? = some x.2 := by
  induction k generalizing y c with
  | zero => exact ⟨rfl, hc⟩
  | succ k ih =>
    have hact : y.act shard (.advance j) = y.advance shard j c := by
      simp only [act, hc]
    have hlt : j < y.calls.length := (List.getElem?_eq_some_iff.1 hc).1
    have hnext : (y.advance shard j c).calls[j]? = some (c.advance shard y.shift.pool) := by
      unfold advance
      refine List.getElem?_set_self ?_
      cases c.looksAt? with
      | none => exact hlt
      | some t => exact (List.length_map _).symm ▸ hlt
    have hrest := ih hnext
    rw [pool_advance] at hrest
    rw [List.replicate_succ, List.foldl_cons, hact]
    exact hrest

end

/-- A lane is forgotten once its task is over, and not while it runs. -/
example :
    let moves : List (Move Nat) := [.dispatch ⟨"a"⟩ 1, .forget fun _ => true, .spawn 0, .begin 0,
      .forget fun _ => true, .finish 0 false, .dispatch ⟨"b"⟩ 2, .forget fun _ => true]
    (Shift.run moves).pool.lanes.map (·.1) = [⟨"b"⟩] ∧ (Shift.run (moves.take 6)).pool.prune.2 = 1 ∧
      (Shift.run (moves.take 4)).pool.prune.2 = 0 ∧
      (Shift.run (moves.filter fun m => !m.isForget)).pool.laneCount = 2 := by decide

/-- A lane that comes while a call is under way hides from its counts the lane that is forgotten. -/
example :
    let y := run (n := 1) (τ := Nat) (fun _ => 0) ([.move (.dispatch ⟨"a"⟩ 1), .move (.spawn 0), .move (.begin 0),
      .move (.finish 0 false), .call, .advance 0, .move (.dispatch ⟨"b"⟩ 2)] ++ List.replicate 7 (.advance 0))
    y.calls.map (·.forgotten) = [[⟨"a"⟩]] ∧ y.calls.map (·.answer) = [0] ∧ y.calls.map (·.came) = [1] := by
  decide

end Yard

end ChunkRouter.Lane
