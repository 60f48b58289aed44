import Mathlib.Data.List.Perm.Basic
import ChunkRouter.Lane.Pool

/-!
# Turns

What a lane pool is at all times: a lane has a turn, in the line or being taken, exactly when it is
scheduled, it has no two of them, no lane with tasks goes without, and none without tasks is in the line.
`Sane` says so, for any lanes whose
turns are being taken; dispatching, taking a turn and ending it keep it, and each adds or removes just
the one task.
-/

namespace ChunkRouter.Lane.Pool

variable {τ : Type}

/-! ## Lanes by name -/

/-- The state of a lane among others. -/
def stateIn (lanes : List (Token × State τ)) (t : Token) : State τ :=
  ((lanes.find? (·.1 = t)).map (·.2)).getD .idle

/-- The lanes, the one called `t` in another state. -/
def replaced (lanes : List (Token × State τ)) (t : Token) (s : State τ) : List (Token × State τ) :=
  lanes.map fun l => if l.1 = t then (t, s) else l

section

variable {lanes : List (Token × State τ)} {t u : Token} {s : State τ}

theorem stateIn_cons (l : Token × State τ) (lanes : List (Token × State τ)) (t : Token) :
    stateIn (l :: lanes) t = if l.1 = t then l.2 else stateIn lanes t := by
  unfold stateIn
  rw [List.find?_cons]
  by_cases hl : l.1 = t
  · simp [hl]
  · simp [hl]

theorem stateIn_of_not_mem (h : t ∉ lanes.map (·.1)) : stateIn lanes t = .idle := by
  induction lanes with
  | nil => rfl
  | cons l lanes ih =>
    rw [List.map_cons, List.mem_cons, not_or] at h
    rw [stateIn_cons, if_neg (Ne.symm h.1), ih h.2]

theorem stateIn_of_mem (hnodup : (lanes.map (·.1)).Nodup) {l : Token × State τ} (hl : l ∈ lanes) :
    stateIn lanes l.1 = l.2 := by
  induction lanes with
  | nil => cases hl
  | cons m lanes ih =>
    rw [List.map_cons, List.nodup_cons] at hnodup
    rw [stateIn_cons]
    by_cases hm : m.1 = l.1
    · rw [if_pos hm]
      rcases List.mem_cons.1 hl with rfl | hl
      · rfl
      · exact absurd (List.mem_map.2 ⟨l, hl, hm.symm⟩) hnodup.1
    · rw [if_neg hm]
      refine ih hnodup.2 ((List.mem_cons.1 hl).resolve_left ?_)
      rintro rfl
      exact hm rfl

theorem stateIn_replaced_self (h : t ∈ lanes.map (·.1)) : stateIn (replaced lanes t s) t = s := by
  induction lanes with
  | nil => cases h
  | cons l lanes ih =>
    show stateIn ((if l.1 = t then (t, s) else l) :: replaced lanes t s) t = s
    by_cases hl : l.1 = t
    · rw [if_pos hl, stateIn_cons, if_pos rfl]
    · rw [List.map_cons, List.mem_cons] at h
      rw [if_neg hl, stateIn_cons, if_neg hl]
      exact ih (h.resolve_left (Ne.symm hl))

theorem stateIn_replaced_of_ne (h : u ≠ t) : stateIn (replaced lanes t s) u = stateIn lanes u := by
  induction lanes with
  | nil => rfl
  | cons l lanes ih =>
    show stateIn ((if l.1 = t then (t, s) else l) :: replaced lanes t s) u = _
    by_cases hl : l.1 = t
    · rw [if_pos hl, stateIn_cons, stateIn_cons, if_neg (Ne.symm h), if_neg (hl ▸ Ne.symm h), ih]
    · rw [if_neg hl, stateIn_cons, stateIn_cons, ih]

theorem replaced_of_not_mem (h : t ∉ lanes.map (·.1)) : replaced lanes t s = lanes := by
  refine (List.map_congr_left fun l hl => ?_).trans (List.map_id lanes)
  have hne : l.1 ≠ t := fun heq => h (List.mem_map.2 ⟨l, hl, heq⟩)
  rw [if_neg hne]
  rfl

/-- Replacing a state keeps the names. -/
theorem names_replaced (lanes : List (Token × State τ)) (t : Token) (s : State τ) :
    (replaced lanes t s).map (·.1) = lanes.map (·.1) := by
  rw [replaced, List.map_map]
  refine List.map_congr_left fun l _ => ?_
  by_cases hl : l.1 = t
  · simp [hl]
  · simp [hl]

theorem stateIn_append (h : t ∉ lanes.map (·.1)) :
    stateIn (lanes ++ [(t, s)]) u = if u = t then s else stateIn lanes u := by
  induction lanes with
  | nil =>
    rw [List.nil_append, stateIn_cons]
    simp only [eq_comm]
  | cons l lanes ih =>
    rw [List.map_cons, List.mem_cons, not_or] at h
    rw [List.cons_append, stateIn_cons, stateIn_cons, ih h.2]
    by_cases hu : u = t
    · subst hu
      rw [if_neg (Ne.symm h.1)]
      simp
    · simp [hu]

/-- What waits after a state was replaced, and what waited in it before. -/
theorem tasks_replaced (hnodup : (lanes.map (·.1)).Nodup) (h : t ∈ lanes.map (·.1)) :
    ((replaced lanes t s).flatMap (·.2.tasks) ++ (stateIn lanes t).tasks).Perm
      (lanes.flatMap (·.2.tasks) ++ s.tasks) := by
  induction lanes with
  | nil => cases h
  | cons l lanes ih =>
    rw [List.map_cons, List.nodup_cons] at hnodup
    rw [List.map_cons, List.mem_cons] at h
    show (((if l.1 = t then (t, s) else l) :: replaced lanes t s).flatMap (·.2.tasks) ++ _).Perm _
    by_cases hl : l.1 = t
    · have hrest : replaced lanes t s = lanes := replaced_of_not_mem (hl ▸ hnodup.1)
      rw [if_pos hl, hrest, stateIn_cons, if_pos hl, List.flatMap_cons, List.flatMap_cons]
      refine List.perm_append_comm.trans ?_
      rw [List.append_assoc]
      exact List.perm_append_comm.append_left _
    · have hrest := ih hnodup.2 (h.resolve_left (Ne.symm hl))
      rw [if_neg hl, stateIn_cons, if_neg hl, List.flatMap_cons, List.flatMap_cons, List.append_assoc,
        List.append_assoc]
      exact hrest.append_left _

end

/-- No lane is listed twice. -/
def Distinct (p : Pool τ) : Prop := (p.lanes.map (·.1)).Nodup

theorem setLane_cases (p : Pool τ) (t : Token) (s : State τ) :
    (t ∈ p.lanes.map (·.1) ∧ p.setLane t s = { p with lanes := replaced p.lanes t s }) ∨
      (t ∉ p.lanes.map (·.1) ∧ p.setLane t s = { p with lanes := p.lanes ++ [(t, s)] }) := by
  have hany : p.lanes.any (fun l => l.1 = t) = true ↔ t ∈ p.lanes.map (·.1) := by
    rw [List.any_eq_true, List.mem_map]
    simp only [decide_eq_true_eq]
  unfold setLane
  split
  · rename_i h
    exact .inl ⟨hany.1 h, rfl⟩
  · rename_i h
    exact .inr ⟨fun hmem => h (hany.2 hmem), rfl⟩

theorem lane_setLane (p : Pool τ) (t u : Token) (s : State τ) :
    (p.setLane t s).lane u = if u = t then s else p.lane u := by
  rcases setLane_cases p t s with ⟨hmem, heq⟩ | ⟨hmem, heq⟩
  · rw [heq]
    show stateIn (replaced p.lanes t s) u = if u = t then s else stateIn p.lanes u
    by_cases hu : u = t
    · rw [if_pos hu, hu]
      exact stateIn_replaced_self hmem
    · rw [if_neg hu]
      exact stateIn_replaced_of_ne hu
  · rw [heq]
    exact stateIn_append hmem

theorem turns_setLane (p : Pool τ) (t : Token) (s : State τ) : (p.setLane t s).turns = p.turns := by
  rcases setLane_cases p t s with ⟨-, heq⟩ | ⟨-, heq⟩ <;> rw [heq]

theorem Distinct.setLane {p : Pool τ} (h : p.Distinct) (t : Token) (s : State τ) :
    (p.setLane t s).Distinct := by
  rcases setLane_cases p t s with ⟨-, heq⟩ | ⟨hmem, heq⟩
  · rw [heq, Distinct, names_replaced]
    exact h
  · rw [heq, Distinct, List.map_append, List.nodup_append]
    refine ⟨h, List.nodup_cons.2 ⟨List.not_mem_nil, List.nodup_nil⟩, fun u hu v hv huv => ?_⟩
    rw [List.map_cons, List.map_nil, List.mem_singleton] at hv
    have htu : u = t := huv.trans hv
    exact hmem (htu ▸ hu)

/-! ## Tasks -/

/-- All tasks that wait. -/
def queued (p : Pool τ) : List τ := p.lanes.flatMap (·.2.tasks)

/-- What waits after a lane changed, and what waited on it before. -/
theorem Distinct.queued_setLane {p : Pool τ} (h : p.Distinct) (t : Token) (s : State τ) :
    ((p.setLane t s).queued ++ (p.lane t).tasks).Perm (p.queued ++ s.tasks) := by
  rcases setLane_cases p t s with ⟨hmem, heq⟩ | ⟨hmem, heq⟩
  · rw [heq]
    exact tasks_replaced h hmem
  · have hidle : p.lane t = .idle := stateIn_of_not_mem hmem
    rw [heq, hidle, queued, List.flatMap_append]
    simp [State.idle, queued]

theorem length_queued (p : Pool τ) :
    p.queued.length = total (p.lanes.map fun l => l.2.tasks.length) := by
  unfold queued
  induction p.lanes with
  | nil => rfl
  | cons l lanes ih => rw [List.flatMap_cons, List.length_append, ih, List.map_cons, total]

theorem queued_eq_nil_iff (p : Pool τ) :
    p.queued = [] ↔ (p.lanes.all fun l => l.2.tasks.isEmpty) = true := by
  simp [queued]

theorem mem_queued {p : Pool τ} {t : Token} {task : τ} (h : task ∈ (p.lane t).tasks) :
    task ∈ p.queued := by
  unfold lane at h
  cases hfind : p.lanes.find? (·.1 = t) with
  | none =>
    rw [hfind] at h
    cases h
  | some l =>
    rw [hfind] at h
    exact List.mem_flatMap.2 ⟨l, List.mem_of_find?_eq_some hfind, h⟩

theorem Distinct.lane_of_mem {p : Pool τ} (h : p.Distinct) {l : Token × State τ} (hl : l ∈ p.lanes) :
    p.lane l.1 = l.2 := stateIn_of_mem h hl

/-- A task that waits does so on some lane. -/
theorem Distinct.exists_lane {p : Pool τ} (h : p.Distinct) {task : τ} (hmem : task ∈ p.queued) :
    ∃ t, task ∈ (p.lane t).tasks := by
  obtain ⟨l, hl, htask⟩ := List.mem_flatMap.1 hmem
  exact ⟨l.1, by rw [h.lane_of_mem hl]; exact htask⟩

/-! ## Turns -/

/-- A pool some of whose lanes, `busy`, have their turn just now. -/
structure Sane (p : Pool τ) (busy : List Token) : Prop where
  distinct : p.Distinct
  line : (busy ++ p.turns).Nodup
  scheduled : ∀ t, (p.lane t).scheduled = true ↔ t ∈ busy ++ p.turns
  waiting : ∀ t, (p.lane t).tasks ≠ [] → (p.lane t).scheduled = true
  ready : ∀ t ∈ p.turns, (p.lane t).tasks ≠ []

theorem sane_empty : (empty : Pool τ).Sane [] where
  distinct := List.nodup_nil
  line := List.nodup_nil
  scheduled := fun t => by simp [empty, lane, State.idle]
  waiting := fun t h => absurd rfl h
  ready := fun t h => (nomatch h)

section

variable {p p' : Pool τ} {busy : List Token} {t : Token}

/-- A task that waits does so on a lane that has a turn. -/
theorem Sane.mem_of_queued (h : p.Sane busy) {task : τ} (hmem : task ∈ p.queued) :
    ∃ t ∈ busy ++ p.turns, task ∈ (p.lane t).tasks := by
  obtain ⟨t, ht⟩ := h.distinct.exists_lane hmem
  exact ⟨t, (h.scheduled t).1 (h.waiting t (List.ne_nil_of_mem ht)), ht⟩

/-- A lane gets a turn with its first task, and no second one. -/
theorem dispatch_cases (p : Pool τ) (t : Token) (task : τ) :
    ((p.lane t).scheduled = true ∧
        p.dispatch t task = p.setLane t ⟨(p.lane t).tasks ++ [task], true⟩) ∨
      ((p.lane t).scheduled = false ∧
        p.dispatch t task = (p.setLane t ⟨(p.lane t).tasks ++ [task], true⟩).addTurn t) := by
  cases hs : (p.lane t).scheduled
  · exact .inr ⟨rfl, by simp only [dispatch, hs, Bool.false_eq_true, if_false]⟩
  · exact .inl ⟨rfl, by simp only [dispatch, hs, if_true]⟩

theorem lane_dispatch (p : Pool τ) (t u : Token) (task : τ) :
    (p.dispatch t task).lane u = if u = t then ⟨(p.lane t).tasks ++ [task], true⟩ else p.lane u := by
  rcases dispatch_cases p t task with ⟨-, heq⟩ | ⟨-, heq⟩
  · rw [heq]
    exact lane_setLane p t u _
  · rw [heq]
    exact lane_setLane p t u _

theorem queued_dispatch (h : p.Distinct) (t : Token) (task : τ) :
    (p.dispatch t task).queued.Perm (task :: p.queued) := by
  have hset := h.queued_setLane t ⟨(p.lane t).tasks ++ [task], true⟩
  have hqueued : (p.dispatch t task).queued =
      (p.setLane t ⟨(p.lane t).tasks ++ [task], true⟩).queued := by
    rcases dispatch_cases p t task with ⟨-, heq⟩ | ⟨-, heq⟩
    · rw [heq]
    · rw [heq]
      rfl
  rw [hqueued]
  have hmove : (p.queued ++ ((p.lane t).tasks ++ [task])).Perm
      ((task :: p.queued) ++ (p.lane t).tasks) := by
    rw [← List.append_assoc]
    exact List.perm_append_comm
  exact (List.perm_append_right_iff _).1 (hset.trans hmove)

theorem Sane.dispatch (h : p.Sane busy) (t : Token) (task : τ) : (p.dispatch t task).Sane busy := by
  have hset := h.distinct.setLane t ⟨(p.lane t).tasks ++ [task], true⟩
  have hwaiting : ∀ u, ((p.dispatch t task).lane u).tasks ≠ [] →
      ((p.dispatch t task).lane u).scheduled = true := by
    intro u
    rw [lane_dispatch]
    by_cases hu : u = t
    · rw [if_pos hu]
      exact fun _ => rfl
    · rw [if_neg hu]
      exact h.waiting u
  have hready : ∀ u, u ∈ p.turns ∨ u = t → ((p.dispatch t task).lane u).tasks ≠ [] := by
    intro u hmem
    rw [lane_dispatch]
    by_cases hu : u = t
    · rw [if_pos hu]
      exact List.concat_ne_nil _ _
    · rw [if_neg hu]
      exact h.ready u (hmem.resolve_right hu)
  rcases dispatch_cases p t task with ⟨hs, heq⟩ | ⟨hs, heq⟩
  · have hturns : (p.dispatch t task).turns = p.turns := by rw [heq, turns_setLane]
    refine ⟨heq ▸ hset, hturns ▸ h.line, fun u => ?_, hwaiting, fun u hmem => ?_⟩
    · rw [lane_dispatch, hturns, ← h.scheduled u]
      by_cases hu : u = t
      · simp [hu, hs]
      · simp [hu]
    · rw [hturns] at hmem
      exact hready u (.inl hmem)
  · have hturns : (p.dispatch t task).turns = p.turns ++ [t] := by
      rw [heq]
      show (p.setLane t _).turns ++ [t] = _
      rw [turns_setLane]
    have hnew : t ∉ busy ++ p.turns := fun hmem =>
      Bool.noConfusion (hs.symm.trans ((h.scheduled t).2 hmem))
    refine ⟨heq ▸ hset, ?_, fun u => ?_, hwaiting, fun u hmem => ?_⟩
    · rw [hturns, ← List.append_assoc]
      exact List.perm_append_comm.nodup_iff.2 (List.nodup_cons.2 ⟨hnew, h.line⟩)
    · rw [lane_dispatch, hturns, ← List.append_assoc, List.mem_append, List.mem_singleton,
        ← h.scheduled u]
      by_cases hu : u = t
      · simp [hu]
      · simp [hu]
    · rw [hturns, List.mem_append, List.mem_singleton] at hmem
      exact hready u hmem

/-! ### Taking a turn -/

/-- A turn is taken out of the line, and the task its lane has first, if any. -/
theorem beginTurn_cases {i : Nat} {result : Pool τ × Token × Option τ}
    (hb : p.beginTurn i = some result) :
    ∃ t, p.turns[i]? = some t ∧
      (((p.lane t).tasks = [] ∧
          result = ({ p with turns := p.turns.eraseIdx i }.setLane t ⟨[], false⟩, t, none)) ∨
        ∃ task tasks, (p.lane t).tasks = task :: tasks ∧
          result = ({ p with turns := p.turns.eraseIdx i }.setLane t ⟨tasks, (p.lane t).scheduled⟩, t,
            some task)) := by
  rw [beginTurn, Option.map_eq_some_iff] at hb
  obtain ⟨t, ht, hresult⟩ := hb
  refine ⟨t, ht, ?_⟩
  have hlane : Pool.lane { p with turns := p.turns.eraseIdx i } t = p.lane t := rfl
  simp only [hlane] at hresult
  cases htasks : (p.lane t).tasks with
  | nil =>
    rw [htasks] at hresult
    exact .inl ⟨rfl, hresult.symm⟩
  | cons task tasks =>
    rw [htasks] at hresult
    exact .inr ⟨task, tasks, rfl, hresult.symm⟩

end

section

variable {p p' : Pool τ} {busy : List Token} {t : Token} {i : Nat}

/-- A turn leaves the line to be taken. -/
theorem Sane.pull (h : p.Sane busy) (ht : p.turns[i]? = some t) :
    Sane { p with turns := p.turns.eraseIdx i } (t :: busy) ∧
      (p.turns.eraseIdx i).length + 1 = p.turns.length := by
  obtain ⟨hi, hget⟩ := List.getElem?_eq_some_iff.1 ht
  have hperm : (t :: busy ++ p.turns.eraseIdx i).Perm (busy ++ p.turns) := by
    refine List.perm_middle.symm.trans (List.Perm.append_left busy ?_)
    rw [← hget]
    exact List.getElem_cons_eraseIdx_perm hi
  refine ⟨⟨h.distinct, hperm.nodup_iff.2 h.line, fun u => ?_, h.waiting, fun u hmem => ?_⟩, ?_⟩
  · exact (h.scheduled u).trans hperm.mem_iff.symm
  · exact h.ready u (List.mem_of_mem_eraseIdx hmem)
  · rw [List.length_eraseIdx, if_pos hi]
    omega

/-- A turn goes to the end of the line. -/
theorem Sane.requeue (h : p.Sane (t :: busy)) (hmore : (p.lane t).tasks ≠ []) :
    (p.addTurn t).Sane busy := by
  have hperm : (busy ++ (p.turns ++ [t])).Perm (t :: busy ++ p.turns) := by
    rw [← List.append_assoc]
    exact List.perm_append_comm
  refine ⟨h.distinct, hperm.nodup_iff.2 h.line, fun u => (h.scheduled u).trans hperm.mem_iff.symm,
    h.waiting, fun u hmem => ?_⟩
  rcases List.mem_append.1 hmem with hmem | hmem
  · exact h.ready u hmem
  · rw [List.mem_singleton.1 hmem]
    exact hmore

/-- A lane that takes its turn has no other one in the line. -/
theorem Sane.ne_of_mem_turns (h : p.Sane (t :: busy)) {u : Token} (hu : u ∈ p.turns) : u ≠ t := by
  rintro rfl
  exact (List.nodup_cons.1 h.line).1 (List.mem_append_right busy hu)

/-- The lane of a turn that is being taken gets other tasks. -/
theorem Sane.load (h : p.Sane (t :: busy)) (tasks : List τ) :
    (p.setLane t ⟨tasks, (p.lane t).scheduled⟩).Sane (t :: busy) := by
  have ht : (p.lane t).scheduled = true := (h.scheduled t).2 List.mem_cons_self
  refine ⟨h.distinct.setLane t _, ?_, fun u => ?_, fun u => ?_, fun u hmem => ?_⟩
  · rw [turns_setLane]
    exact h.line
  · rw [turns_setLane, lane_setLane, ← h.scheduled u]
    by_cases hu : u = t
    · rw [if_pos hu, hu]
    · rw [if_neg hu]
  · rw [lane_setLane]
    by_cases hu : u = t
    · rw [if_pos hu]
      exact fun _ => ht
    · rw [if_neg hu]
      exact h.waiting u
  · rw [turns_setLane] at hmem
    rw [lane_setLane, if_neg (h.ne_of_mem_turns hmem)]
    exact h.ready u hmem

/-- A lane without tasks gives up its turn. -/
theorem Sane.retire (h : p.Sane (t :: busy)) : (p.setLane t ⟨[], false⟩).Sane busy := by
  have hline := List.nodup_cons.1 h.line
  refine ⟨h.distinct.setLane t _, ?_, fun u => ?_, fun u => ?_, fun u hmem => ?_⟩
  · rw [turns_setLane]
    exact hline.2
  · rw [turns_setLane, lane_setLane]
    by_cases hu : u = t
    · rw [if_pos hu, hu]
      exact ⟨fun hfalse => Bool.noConfusion hfalse, fun hmem => absurd hmem hline.1⟩
    · rw [if_neg hu, h.scheduled u, List.cons_append, List.mem_cons]
      exact ⟨fun hmem => hmem.resolve_left hu, .inr⟩
  · rw [lane_setLane]
    by_cases hu : u = t
    · rw [if_pos hu]
      exact fun hne => absurd rfl hne
    · rw [if_neg hu]
      exact h.waiting u
  · rw [turns_setLane] at hmem
    rw [lane_setLane, if_neg (h.ne_of_mem_turns hmem)]
    exact h.ready u hmem

/-- A turn is begun for the task that its lane has first. -/
theorem Sane.beginTurn (h : p.Sane busy) {result : Pool τ × Token × Option τ}
    (hb : p.beginTurn i = some result) :
    ∃ p' t task, result = (p', t, some task) ∧ p'.Sane (t :: busy) ∧
      p.queued.Perm (task :: p'.queued) ∧
      (∀ u, (p.lane u).tasks = if u = t then task :: (p'.lane u).tasks else (p'.lane u).tasks) ∧
      p'.turns.length + 1 = p.turns.length := by
  obtain ⟨t, ht, ⟨hnone, -⟩ | ⟨task, tasks, htasks, hresult⟩⟩ := beginTurn_cases hb
  · exact absurd hnone (h.ready t (List.mem_of_getElem? ht))
  · refine ⟨_, t, task, hresult, ?_⟩
    obtain ⟨hpull, hlen⟩ := h.pull ht
    have hqueued := hpull.distinct.queued_setLane t ⟨tasks, (p.lane t).scheduled⟩
    have hold : (Pool.lane { p with turns := p.turns.eraseIdx i } t).tasks = task :: tasks := htasks
    rw [hold] at hqueued
    refine ⟨hpull.load tasks, ?_, fun u => ?_, by rw [turns_setLane]; exact hlen⟩
    · have hmove := List.perm_middle.symm.trans hqueued
      exact ((List.perm_append_right_iff tasks).1 hmove).symm
    · rw [lane_setLane]
      by_cases hu : u = t
      · rw [if_pos hu, if_pos hu, hu, htasks]
      · rw [if_neg hu, if_neg hu]
        rfl

/-- A turn that is done goes to the end of the line if its lane has more tasks. -/
theorem Sane.endTurn (h : p.Sane (t :: busy)) :
    (p.endTurn t).Sane busy ∧ (p.endTurn t).queued.Perm p.queued ∧
      (∀ u, ((p.endTurn t).lane u).tasks = (p.lane u).tasks) ∧
      (p.endTurn t).turns.length ≤ p.turns.length + 1 := by
  unfold Pool.endTurn
  split
  · rename_i hempty
    have htasks : (p.lane t).tasks = [] := List.isEmpty_iff.1 hempty
    have hqueued := h.distinct.queued_setLane t ⟨[], false⟩
    rw [htasks, List.append_nil, List.append_nil] at hqueued
    refine ⟨h.retire, hqueued, fun u => ?_, by rw [turns_setLane]; exact Nat.le_succ _⟩
    rw [lane_setLane]
    by_cases hu : u = t
    · rw [if_pos hu, hu, htasks]
    · rw [if_neg hu]
  · rename_i hmore
    refine ⟨h.requeue fun hnil => hmore (List.isEmpty_iff.2 hnil), List.Perm.refl _, fun u => rfl, ?_⟩
    show (p.turns ++ [t]).length ≤ _
    rw [List.length_append]
    exact Nat.le_refl _

/-- A dispatch lengthens the line by a turn at most. -/
theorem length_turns_dispatch (p : Pool τ) (t : Token) (task : τ) :
    (p.dispatch t task).turns.length ≤
      p.turns.length + if (p.lane t).scheduled then 0 else 1 := by
  rcases dispatch_cases p t task with ⟨hs, heq⟩ | ⟨hs, heq⟩
  · rw [heq, hs, turns_setLane]
    exact Nat.le_refl _
  · rw [heq, hs]
    show ((p.setLane t _).turns ++ [t]).length ≤ _
    rw [turns_setLane, List.length_append]
    exact Nat.le_refl _

end

end ChunkRouter.Lane.Pool
