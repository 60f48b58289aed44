import Mathlib.Data.List.InsertIdx
import Mathlib.Logic.Function.Basic
import ChunkRouter.Proofs.Lane.Serial

/-!
# Lane objects

A turn holds the lane object that it was asked for, which the directory of the pool need not list any
more: forgetting a lane only takes it off the directory, and the next task with its name would be put
on another object. `Objects` makes the moves of a `Shift` on such objects. It behaves as the shift that
knows the lanes by name (`Coherent.step`), since the directory never loses a lane that has a turn.
-/

namespace ChunkRouter.Lane

variable {τ : Type}

namespace Pool

section

variable {p : Pool τ} {t : Token}

theorem setLane_of_mem (h : t ∈ p.lanes.map (·.1)) (l : State τ) :
    p.setLane t l = { p with lanes := replaced p.lanes t l } := by
  rcases setLane_cases p t l with ⟨-, heq⟩ | ⟨hmem, -⟩
  · exact heq
  · exact absurd h hmem

theorem setLane_of_not_mem (h : t ∉ p.lanes.map (·.1)) (l : State τ) :
    p.setLane t l = { p with lanes := p.lanes ++ [(t, l)] } := by
  rcases setLane_cases p t l with ⟨hmem, -⟩ | ⟨-, heq⟩
  · exact absurd hmem h
  · exact heq

theorem mem_names_setLane (p : Pool τ) (t u : Token) (l : State τ) :
    u ∈ (p.setLane t l).lanes.map (·.1) ↔ u = t ∨ u ∈ p.lanes.map (·.1) := by
  rcases setLane_cases p t l with ⟨hmem, heq⟩ | ⟨-, heq⟩
  · rw [heq, names_replaced]
    exact ⟨.inr, fun h => h.elim (fun hu => hu ▸ hmem) id⟩
  · rw [heq, List.map_append, List.mem_append, or_comm]
    exact or_congr_left List.mem_singleton

theorem replaced_replaced (lanes : List (Token × State τ)) (t : Token) (l l' : State τ) :
    replaced (replaced lanes t l) t l' = replaced lanes t l' := by
  rw [replaced, replaced, List.map_map]
  refine List.map_congr_left fun m _ => ?_
  by_cases hm : m.1 = t
  · simp [hm]
  · simp [hm]

theorem replaced_concat (h : t ∉ p.lanes.map (·.1)) (l l' : State τ) :
    replaced (p.lanes ++ [(t, l)]) t l' = p.lanes ++ [(t, l')] := by
  have hfront : replaced p.lanes t l' = p.lanes := replaced_of_not_mem h
  rw [replaced] at hfront ⊢
  rw [List.map_append, hfront, List.map_singleton, if_pos rfl]

/-- The state that a lane was put in last is the one that it is in. -/
theorem setLane_setLane (p : Pool τ) (t : Token) (l l' : State τ) :
    (p.setLane t l).setLane t l' = p.setLane t l' := by
  rw [setLane_of_mem ((mem_names_setLane p t t l).2 (.inl rfl))]
  by_cases h : t ∈ p.lanes.map (·.1)
  · rw [setLane_of_mem h, setLane_of_mem h, replaced_replaced]
  · rw [setLane_of_not_mem h, setLane_of_not_mem h, replaced_concat h]

end

end Pool

/-- A pool at work, with the lane objects that it made. A turn is the name of its lane and the number
of the object that it holds. -/
structure Objects (τ : Type) where
  /-- What is in an object. -/
  state : Nat → State τ
  /-- The number of objects that were made. -/
  made : Nat
  /-- The directory: the lanes that are known and their objects. -/
  listed : List (Token × Nat)
  due : List (Token × Nat)
  turns : List (Token × Nat)
  running : List ((Token × Nat) × τ)
  /-- The lanes whose turn did not come to its end. -/
  lost : List Token
  panics : Nat
  meter : Meter
  dispatched : List (Token × τ)
  begun : List (Token × τ)
  ended : List (Token × τ)
  panicked : List (Token × τ)
  wasted : Nat

namespace Objects

def new : Objects τ := ⟨fun _ => .idle, 0, [], [], [], [], [], 0, .empty, [], [], [], [], 0⟩

/-- Put an object in another state. -/
def write (o : Objects τ) (i : Nat) (l : State τ) : Objects τ :=
  { o with state := Function.update o.state i l }

/-- Make an object for a lane and list it. -/
def enlist (o : Objects τ) (t : Token) : Objects τ :=
  { o.write o.made .idle with made := o.made + 1, listed := o.listed ++ [(t, o.made)] }

/-- The object of a lane, which is made if the lane is not known. -/
def entry (o : Objects τ) (t : Token) : Objects τ × Nat :=
  match o.listed.find? (·.1 = t) with
  | some e => (o, e.2)
  | none => (o.enlist t, o.made)

def dispatch (o : Objects τ) (t : Token) (task : τ) : Objects τ :=
  match o.entry t with
  | (o, i) =>
    { o.write i ⟨(o.state i).tasks ++ [task], true⟩ with
      due := o.due ++ if (o.state i).scheduled then [] else [(t, i)]
      dispatched := o.dispatched ++ [(t, task)] }

def begin (o : Objects τ) (i : Nat) (turn : Token × Nat) : Objects τ :=
  match (o.state turn.2).tasks with
  | [] => { o.write turn.2 .idle with turns := o.turns.eraseIdx i, wasted := o.wasted + 1 }
  | task :: tasks =>
    { o.write turn.2 ⟨tasks, (o.state turn.2).scheduled⟩ with
      turns := o.turns.eraseIdx i
      running := o.running ++ [(turn, task)]
      begun := o.begun ++ [(turn.1, task)] }

def finish (o : Objects τ) (i : Nat) (panics : Bool) (turn : Token × Nat) (task : τ) : Objects τ :=
  { o with
    state := if (o.state turn.2).tasks.isEmpty then Function.update o.state turn.2 .idle else o.state
    due := o.due ++ if (o.state turn.2).tasks.isEmpty then [] else [turn]
    running := o.running.eraseIdx i
    panics := if panics then o.panics + 1 else o.panics
    meter := if panics then Panic.report .lane o.meter else o.meter
    ended := o.ended ++ [(turn.1, task)]
    panicked := o.panicked ++ if panics then [(turn.1, task)] else [] }

def burst (o : Objects τ) (i : Nat) (turn : Token × Nat) (task : τ) : Objects τ :=
  { o with
    running := o.running.eraseIdx i
    lost := o.lost ++ [turn.1]
    panics := o.panics + 1
    meter := Panic.report .lane o.meter
    ended := o.ended ++ [(turn.1, task)]
    panicked := o.panicked ++ [(turn.1, task)] }

/-- Make a move. A turn acts on the object that it holds. -/
def step (o : Objects τ) : Move τ → Objects τ
  | .dispatch t task => o.dispatch t task
  | .spawn i =>
    match o.due[i]? with
    | some turn => { o with due := o.due.eraseIdx i, turns := o.turns ++ [turn] }
    | none => o
  | .begin i =>
    match o.turns[i]? with
    | some turn => o.begin i turn
    | none => o
  | .finish i panics =>
    match o.running[i]? with
    | some (turn, task) => o.finish i panics turn task
    | none => o
  | .burst i =>
    match o.running[i]? with
    | some (turn, task) => o.burst i turn task
    | none => o
  | .forget among =>
    { o with listed := o.listed.filter fun e => !(among e.1 && (o.state e.2).isIdle) }

def run (moves : List (Move τ)) : Objects τ := moves.foldl step new

/-- The pool, as it is known by the names of its lanes. -/
def pool (o : Objects τ) : Pool τ :=
  ⟨o.listed.map fun e => (e.1, o.state e.2), o.turns.map (·.1), o.panics, o.meter⟩

/-- The same without the objects. -/
def shift (o : Objects τ) : Shift τ :=
  ⟨o.pool, o.due.map (·.1), o.running.map fun r => (r.1.1, r.2), o.lost, o.dispatched, o.begun,
    o.ended, o.panicked, o.wasted⟩

/-- The turns that are due, under way or spawned. -/
def outstanding (o : Objects τ) : List (Token × Nat) := o.due ++ o.running.map (·.1) ++ o.turns

/-- No name and no object is listed twice, and every turn holds the object that is listed with its
lane. -/
structure Coherent (o : Objects τ) : Prop where
  made : ∀ e ∈ o.listed, e.2 < o.made
  names : (o.listed.map (·.1)).Nodup
  objects : (o.listed.map (·.2)).Nodup
  held : ∀ turn ∈ o.outstanding, turn ∈ o.listed

theorem coherent_new : (new : Objects τ).Coherent where
  made := fun _ h => absurd h List.not_mem_nil
  names := List.nodup_nil
  objects := List.nodup_nil
  held := fun _ h => absurd h List.not_mem_nil

section

variable {o : Objects τ} {e : Token × Nat} {t : Token} {task : τ} {i : Nat}

theorem names_pool (o : Objects τ) : o.pool.lanes.map (·.1) = o.listed.map (·.1) := by
  show (o.listed.map _).map _ = _
  rw [List.map_map]
  rfl

theorem Coherent.distinct (h : o.Coherent) : o.pool.Distinct := by
  rw [Pool.Distinct, names_pool]
  exact h.names

/-- A lane that is listed is in the state of its object. -/
theorem Coherent.lane (h : o.Coherent) (he : e ∈ o.listed) : o.pool.lane e.1 = o.state e.2 :=
  h.distinct.lane_of_mem (l := (e.1, o.state e.2)) (List.mem_map_of_mem he)

/-- What is written to an object is written to the lane that it is listed for, and to no other. -/
theorem Coherent.pool_write (h : o.Coherent) (he : e ∈ o.listed) (l : State τ) :
    (o.write e.2 l).pool = o.pool.setLane e.1 l := by
  have hname : e.1 ∈ o.pool.lanes.map (·.1) := by
    rw [names_pool]
    exact List.mem_map_of_mem he
  have hlanes : (o.write e.2 l).pool.lanes = Pool.replaced o.pool.lanes e.1 l := by
    show o.listed.map _ = (o.listed.map _).map _
    rw [List.map_map]
    refine List.map_congr_left fun x hx => ?_
    show (x.1, Function.update o.state e.2 l x.2) = if x.1 = e.1 then (e.1, l) else (x.1, o.state x.2)
    by_cases hxe : x.1 = e.1
    · have heq : x = e := List.inj_on_of_nodup_map h.names hx he hxe
      rw [if_pos hxe, heq, Function.update_self]
    · have hne : x.2 ≠ e.2 := fun heq => hxe (congrArg (·.1) (List.inj_on_of_nodup_map h.objects hx he heq))
      rw [if_neg hxe, Function.update_of_ne hne]
  rw [Pool.setLane_of_mem hname, ← hlanes]
  rfl

/-- What a pool at work is coherent about are its directory and the turns that are outstanding. -/
theorem Coherent.congr (h : o.Coherent) {o' : Objects τ} (hlisted : o'.listed = o.listed)
    (hmade : o'.made = o.made) (hheld : ∀ turn ∈ o'.outstanding, turn ∈ o.outstanding) :
    o'.Coherent where
  made := fun e he => hmade ▸ h.made e (hlisted ▸ he)
  names := hlisted ▸ h.names
  objects := hlisted ▸ h.objects
  held := fun turn hturn => hlisted ▸ h.held turn (hheld turn hturn)

theorem Coherent.enlist (h : o.Coherent) (hnew : t ∉ o.listed.map (·.1)) :
    (o.enlist t).Coherent ∧ (o.enlist t).pool = o.pool.setLane t .idle := by
  have hfresh : o.made ∉ o.listed.map (·.2) := by
    intro hmem
    obtain ⟨e, he, heq⟩ := List.mem_map.1 hmem
    exact Nat.lt_irrefl _ (heq ▸ h.made e he)
  refine ⟨⟨fun e he => ?_, ?_, ?_, fun turn hturn => List.mem_append_left _ (h.held turn hturn)⟩, ?_⟩
  · rcases List.mem_append.1 he with he | he
    · exact Nat.lt_succ_of_lt (h.made e he)
    · rw [List.mem_singleton.1 he]
      exact Nat.lt_succ_self _
  · show ((o.listed ++ [(t, o.made)]).map (·.1)).Nodup
    rw [List.map_append]
    exact (List.perm_append_singleton t _).nodup_iff.2 (List.nodup_cons.2 ⟨hnew, h.names⟩)
  · show ((o.listed ++ [(t, o.made)]).map (·.2)).Nodup
    rw [List.map_append]
    exact (List.perm_append_singleton o.made _).nodup_iff.2 (List.nodup_cons.2 ⟨hfresh, h.objects⟩)
  · have hkept : o.listed.map (fun e => (e.1, Function.update o.state o.made .idle e.2)) =
        o.pool.lanes := by
      refine List.map_congr_left fun e he => ?_
      rw [Function.update_of_ne (Nat.ne_of_lt (h.made e he))]
    have hlanes : (o.enlist t).pool.lanes = o.pool.lanes ++ [(t, .idle)] := by
      show (o.listed ++ [(t, o.made)]).map _ = _
      rw [List.map_append]
      refine congrArg₂ (· ++ ·) hkept ?_
      show [(t, Function.update o.state o.made .idle o.made)] = _
      rw [Function.update_self]
    rw [Pool.setLane_of_not_mem (names_pool o ▸ hnew), ← hlanes]
    rfl

/-- The object of a lane is listed for it and in its state; one that is made for a lane is in the state
that an unknown lane is in. -/
theorem Coherent.entry (h : o.Coherent) (t : Token) :
    ∃ state made listed i,
      let o' := { o with state := state, made := made, listed := listed }
      o.entry t = (o', i) ∧ o'.Coherent ∧ (t, i) ∈ listed ∧ state i = o.pool.lane t ∧
        ∀ l, o'.pool.setLane t l = o.pool.setLane t l := by
  unfold Objects.entry
  cases hfind : o.listed.find? (·.1 = t) with
  | some e =>
    have hname : e.1 = t := by simpa using List.find?_some hfind
    have hmem := List.mem_of_find?_eq_some hfind
    exact ⟨o.state, o.made, o.listed, e.2, rfl, h, hname ▸ hmem, hname ▸ (h.lane hmem).symm,
      fun _ => rfl⟩
  | none =>
    have hnew : t ∉ o.listed.map (·.1) := by
      intro hmem
      obtain ⟨e, he, heq⟩ := List.mem_map.1 hmem
      exact List.find?_eq_none.1 hfind e he (decide_eq_true heq)
    obtain ⟨h', hpool⟩ := h.enlist hnew
    have hidle : o.pool.lane t = .idle := Pool.stateIn_of_not_mem (names_pool o ▸ hnew)
    refine ⟨(o.enlist t).state, o.made + 1, o.listed ++ [(t, o.made)], o.made, rfl, h',
      List.mem_append_right _ List.mem_cons_self, ?_, fun l => ?_⟩
    · rw [hidle]
      exact Function.update_self ..
    · show (o.enlist t).pool.setLane t l = _
      rw [hpool, Pool.setLane_setLane]

/-! ## One move -/

/-- A task is put on the object that its lane is listed with. -/
theorem Coherent.dispatch (h : o.Coherent) (t : Token) (task : τ) :
    (o.dispatch t task).Coherent ∧ (o.dispatch t task).shift = o.shift.dispatch t task := by
  obtain ⟨state, made, listed, i, hentry, h', hmem, hstate, hset⟩ := h.entry t
  have hpool := (h'.pool_write hmem ⟨(o.pool.lane t).tasks ++ [task], true⟩).trans (hset _)
  have hdue : (o.due ++ if (o.pool.lane t).scheduled then [] else [(t, i)]).map (·.1) =
      o.due.map (·.1) ++ if !(o.pool.lane t).scheduled then [t] else [] := by
    rw [List.map_append]
    cases (o.pool.lane t).scheduled <;> rfl
  unfold Objects.dispatch
  rw [hentry]
  simp only [hstate]
  constructor
  · refine ⟨h'.made, h'.names, h'.objects, fun turn hturn => ?_⟩
    have hasked : turn ∈ (if (o.pool.lane t).scheduled then [] else [(t, i)]) → turn ∈ listed := by
      split
      · exact fun hnone => absurd hnone List.not_mem_nil
      · exact fun hone => List.mem_singleton.1 hone ▸ hmem
    have hheld := h'.held turn
    simp only [outstanding, List.mem_append] at hturn hheld
    tauto
  · show Shift.mk (Objects.pool _) (List.map _ _) _ _ _ _ _ _ _ = _
    rw [hdue]
    exact congrArg (fun p => Shift.mk p _ _ _ _ _ _ _ _) hpool

theorem Coherent.begin (h : o.Coherent) {turn : Token × Nat} (hturn : o.turns[i]? = some turn) :
    (o.begin i turn).Coherent ∧ (o.begin i turn).shift = o.shift.begin i := by
  have hlisted : turn ∈ o.listed :=
    h.held turn (List.mem_append_right _ (List.mem_of_getElem? hturn))
  have hlane := h.lane hlisted
  have hfront : o.shift.pool.turns[i]? = some turn.1 := by
    show (o.turns.map (·.1))[i]? = _
    rw [List.getElem?_map, hturn]
    rfl
  -- the pool without the turn that is taken
  have h' : Coherent { o with turns := o.turns.eraseIdx i } := by
    refine h.congr rfl rfl fun turn hturn => ?_
    simp only [outstanding, List.mem_append] at hturn ⊢
    exact hturn.imp_right List.mem_of_mem_eraseIdx
  have hpulled : pool { o with turns := o.turns.eraseIdx i } =
      { o.shift.pool with turns := o.shift.pool.turns.eraseIdx i } := by
    show Pool.mk _ _ _ _ = Pool.mk _ ((o.turns.map (·.1)).eraseIdx i) _ _
    rw [List.eraseIdx_map]
    rfl
  have hwrite := h'.pool_write hlisted
  rw [hpulled] at hwrite
  unfold Objects.begin Shift.begin
  cases htasks : (o.state turn.2).tasks with
  | nil =>
    rw [Pool.beginTurn_of_nil hfront (by rw [← htasks]; exact congrArg State.tasks hlane)]
    exact ⟨h'.congr rfl rfl fun _ => id, congrArg (fun p => Shift.mk p _ _ _ _ _ _ _ _) (hwrite _)⟩
  | cons task tasks =>
    have hscheduled : (o.shift.pool.lane turn.1).scheduled = (o.state turn.2).scheduled :=
      congrArg State.scheduled hlane
    rw [Pool.beginTurn_of_cons hfront (by rw [← htasks]; exact congrArg State.tasks hlane), hscheduled]
    constructor
    · refine h.congr rfl rfl fun held hheld => ?_
      have hmem := List.mem_of_getElem? hturn
      simp only [outstanding, List.map_append, List.mem_append, List.map_singleton,
        List.mem_singleton] at hheld ⊢
      rcases hheld with (hdue | hrunning | rfl) | hspawned
      · exact .inl (.inl hdue)
      · exact .inl (.inr hrunning)
      · exact .inr hmem
      · exact .inr (List.mem_of_mem_eraseIdx hspawned)
    · show Shift.mk (Objects.pool _) _ (List.map _ _) _ _ _ _ _ _ = _
      rw [List.map_append]
      exact congrArg (fun p => Shift.mk p _ _ _ _ _ _ _ _) (hwrite _)

/-- The task of a turn is over, whose object is empty or gets its next turn. -/
theorem Coherent.finish (h : o.Coherent) (panics : Bool) {turn : Token × Nat}
    (hturn : o.running[i]? = some (turn, task)) :
    (o.finish i panics turn task).Coherent ∧
      (o.finish i panics turn task).shift = o.shift.finish i panics turn.1 task := by
  have hrunning : turn ∈ o.running.map (·.1) := List.mem_map_of_mem (List.mem_of_getElem? hturn)
  have hlisted : turn ∈ o.listed :=
    h.held turn (List.mem_append_left _ (List.mem_append_right _ hrunning))
  -- the pool that has counted the panic
  have h' : Coherent { o with
      panics := if panics then o.panics + 1 else o.panics
      meter := if panics then Panic.report .lane o.meter else o.meter } := h.congr rfl rfl fun _ => id
  have hcounted : (if panics then o.shift.pool.reportPanic else o.shift.pool) = pool { o with
      panics := if panics then o.panics + 1 else o.panics
      meter := if panics then Panic.report .lane o.meter else o.meter } := by
    cases panics <;> rfl
  have hlane := h'.lane hlisted
  have hwrite := h'.pool_write hlisted .idle
  have herase : (o.running.eraseIdx i).map (fun r => (r.1.1, r.2)) =
      (o.running.map fun r => (r.1.1, r.2)).eraseIdx i := (List.eraseIdx_map ..).symm
  constructor
  · refine h.congr rfl rfl fun held hheld => ?_
    have hdue : held ∈ (if (o.state turn.2).tasks.isEmpty then [] else [turn]) →
        held ∈ o.running.map (·.1) := by
      split
      · exact fun hnone => absurd hnone List.not_mem_nil
      · exact fun hone => List.mem_singleton.1 hone ▸ hrunning
    have hrest : held ∈ (o.running.eraseIdx i).map (·.1) → held ∈ o.running.map (·.1) :=
      fun hmem => ((List.eraseIdx_sublist _ _).map _).subset hmem
    simp only [outstanding, Objects.finish, List.mem_append] at hheld ⊢
    tauto
  · unfold Objects.finish Shift.finish Pool.finishTurn
    rw [hcounted, hlane]
    show Shift.mk (Objects.pool _) (List.map _ _) (List.map _ _) _ _ _ _ _ _ = _
    rw [herase]
    by_cases hempty : (o.state turn.2).tasks.isEmpty = true
    · simp only [if_pos hempty, Bool.false_eq_true, if_false, List.append_nil]
      exact congrArg (fun p => Shift.mk p _ _ _ _ _ _ _ _) hwrite
    · simp only [if_neg hempty, List.map_append]
      rfl

/-- The turn of a task that bursts holds its object no longer. -/
theorem Coherent.burst (h : o.Coherent) {turn : Token × Nat} :
    (o.burst i turn task).Coherent ∧ (o.burst i turn task).shift = o.shift.burst i turn.1 task := by
  constructor
  · refine h.congr rfl rfl fun held hheld => ?_
    have hrest : held ∈ (o.running.eraseIdx i).map (·.1) → held ∈ o.running.map (·.1) :=
      fun hmem => ((List.eraseIdx_sublist _ _).map _).subset hmem
    simp only [outstanding, Objects.burst, List.mem_append] at hheld ⊢
    tauto
  · show Shift.mk _ _ ((o.running.eraseIdx i).map _) _ _ _ _ _ _ =
      Shift.mk _ _ ((o.running.map _).eraseIdx i) _ _ _ _ _ _
    rw [List.eraseIdx_map]
    rfl

/-- A lane object that a turn holds is scheduled. -/
theorem Coherent.scheduled (h : o.Coherent) (hsound : o.shift.Sound) {turn : Token × Nat}
    (hturn : turn ∈ o.outstanding) : (o.state turn.2).scheduled = true := by
  have hnames : turn.1 ∈ o.shift.busy ++ o.shift.pool.turns := by
    show turn.1 ∈ o.due.map (·.1) ++ (o.running.map _).map _ ++ o.lost ++ o.turns.map (·.1)
    rw [List.map_map]
    simp only [outstanding, List.mem_append] at hturn ⊢
    rcases hturn with (hdue | hrunning) | hspawned
    · exact .inl (.inl (.inl (List.mem_map_of_mem hdue)))
    · obtain ⟨r, hr, rfl⟩ := List.mem_map.1 hrunning
      exact .inl (.inl (.inr (List.mem_map_of_mem hr)))
    · exact .inr (List.mem_map_of_mem hspawned)
  rw [← h.lane (h.held turn hturn)]
  exact (hsound.sane.scheduled turn.1).2 hnames

/-- The moves of a pool whose turns hold lane objects are those of one that knows its lanes by name. In
particular a lane that is forgotten has no turn. -/
theorem Coherent.step (h : o.Coherent) (hsound : o.shift.Sound) (m : Move τ) :
    (o.step m).Coherent ∧ (o.step m).shift = o.shift.step m := by
  cases m with
  | dispatch t task => exact h.dispatch t task
  | spawn i =>
    have hdue : o.shift.due[i]? = o.due[i]?.map (·.1) := List.getElem?_map
    simp only [Objects.step, Shift.step, hdue]
    cases hi : o.due[i]? with
    | none => exact ⟨h, rfl⟩
    | some turn =>
      constructor
      · refine h.congr rfl rfl fun held hheld => ?_
        have hmem := List.mem_of_getElem? hi
        simp only [outstanding, List.mem_append, List.mem_singleton] at hheld ⊢
        rcases hheld with (hdue | hrunning) | hspawned | rfl
        · exact .inl (.inl (List.mem_of_mem_eraseIdx hdue))
        · exact .inl (.inr hrunning)
        · exact .inr hspawned
        · exact .inl (.inl hmem)
      · show Shift.mk (Pool.mk _ (List.map _ (_ ++ _)) _ _) (List.map _ (List.eraseIdx _ _)) _ _ _ _ _ _ _ = _
        rw [List.map_append, ← List.eraseIdx_map]
        rfl
  | begin i =>
    simp only [Objects.step]
    cases hi : o.turns[i]? with
    | none =>
      have hturns : o.shift.pool.turns[i]? = none := by
        show (o.turns.map (·.1))[i]? = none
        rw [List.getElem?_map, hi]
        rfl
      refine ⟨h, ?_⟩
      show o.shift = o.shift.begin i
      rw [Shift.begin, Pool.beginTurn_of_none hturns]
    | some turn => exact h.begin hi
  | finish i panics =>
    have hrunning : o.shift.running[i]? = o.running[i]?.map (fun r => (r.1.1, r.2)) := List.getElem?_map
    simp only [Objects.step, Shift.step, hrunning]
    cases hi : o.running[i]? with
    | none => exact ⟨h, rfl⟩
    | some r => exact h.finish panics hi
  | burst i =>
    have hrunning : o.shift.running[i]? = o.running[i]?.map (fun r => (r.1.1, r.2)) := List.getElem?_map
    simp only [Objects.step, Shift.step, hrunning]
    cases hi : o.running[i]? with
    | none => exact ⟨h, rfl⟩
    | some r => exact h.burst
  | forget among =>
    constructor
    · refine ⟨fun e he => h.made e (List.mem_of_mem_filter he),
        h.names.sublist (List.filter_sublist.map _), h.objects.sublist (List.filter_sublist.map _),
        fun turn hturn => ?_⟩
      have hlisted : turn ∈ o.listed := h.held turn hturn
      have hscheduled := h.scheduled hsound hturn
      refine List.mem_filter.2 ⟨hlisted, ?_⟩
      show (!(among turn.1 && (!(o.state turn.2).scheduled && _))) = true
      rw [hscheduled, Bool.not_true, Bool.false_and, Bool.and_false]
      rfl
    · show Shift.mk (Pool.mk ((o.listed.filter _).map _) _ _ _) _ _ _ _ _ _ _ _ =
        Shift.mk (Pool.mk ((o.listed.map _).filter _) _ _ _) _ _ _ _ _ _ _ _
      rw [List.filter_map]
      rfl

/-! ## Whole runs -/

theorem Coherent.foldl (h : o.Coherent) (hsound : o.shift.Sound) (moves : List (Move τ)) :
    (moves.foldl Objects.step o).Coherent ∧
      (moves.foldl Objects.step o).shift = moves.foldl Shift.step o.shift := by
  induction moves generalizing o with
  | nil => exact ⟨h, rfl⟩
  | cons m moves ih =>
    obtain ⟨h', hshift⟩ := h.step hsound m
    obtain ⟨hrest, heq⟩ := ih h' (hshift ▸ hsound.step m)
    exact ⟨hrest, heq.trans (congrArg (moves.foldl Shift.step) hshift)⟩

theorem coherent_run (moves : List (Move τ)) : (run moves).Coherent :=
  (coherent_new.foldl Shift.sound_new moves).1

/-- Whether turns hold lane objects or the names of lanes is not to be seen. -/
theorem shift_run (moves : List (Move τ)) : (run moves).shift = Shift.run moves :=
  (coherent_new.foldl Shift.sound_new moves).2

end

end Objects

end ChunkRouter.Lane
