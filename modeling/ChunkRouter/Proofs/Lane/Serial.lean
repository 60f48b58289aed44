import Mathlib.Data.List.Nodup
import ChunkRouter.Lane.Session
import ChunkRouter.Proofs.Lane.Turns

/-!
# Serial lanes

A pool on a runtime that takes turns in any order it likes, several at a time, while tasks are
dispatched from anywhere, panic or not. Putting a task on its lane and spawning the turn that this
asks for are two acts, and so are the end of a task and the next turn of its lane. `Shift.Sound` says
that every scheduled lane has just one turn, and tells from the dispatches of a lane which of its
tasks are over, which one runs and which wait. So `serial_lanes` concludes that a lane runs its tasks
one at a time, in the order of their dispatch, each of them once, whatever panics.

What a task panics with is dropped before its turn is ended, and outside of what contains the panic. If that
panics as well the turn does not come to its end (`Move.burst`): its lane stays scheduled without a turn,
and what waits there, or is dispatched there later, never runs. Such a lane is lost, and no other is.
-/

namespace ChunkRouter.Lane

variable {τ : Type}

/-! ## Halves of an act -/

namespace Pool

/-- Put a task at the end of a lane; the answer asks for a turn to be spawned. -/
def push (p : Pool τ) (t : Token) (task : τ) : Pool τ × Bool :=
  (p.setLane t ⟨(p.lane t).tasks ++ [task], true⟩, !(p.lane t).scheduled)

/-- The task of a turn is over; the answer asks for another turn to be spawned. -/
def finishTurn (p : Pool τ) (t : Token) : Pool τ × Bool :=
  if (p.lane t).tasks.isEmpty then (p.setLane t ⟨[], false⟩, false) else (p, true)

/-- Forget the idle ones of some lanes. -/
def forget (p : Pool τ) (among : Token → Bool) : Pool τ :=
  { p with lanes := p.lanes.filter fun l => !(among l.1 && l.2.isIdle) }

/-- A prune forgets the idle ones of all lanes. -/
theorem prune_eq_forget (p : Pool τ) : p.prune.1 = p.forget fun _ => true := rfl

/-- A dispatch is a push, and the turn that it asks for. -/
theorem dispatch_eq_push (p : Pool τ) (t : Token) (task : τ) :
    p.dispatch t task =
      if (p.push t task).2 then (p.push t task).1.addTurn t else (p.push t task).1 := by
  rcases dispatch_cases p t task with ⟨hs, heq⟩ | ⟨hs, heq⟩ <;> rw [heq, push, hs] <;> rfl

/-- The end of a turn is the end of its task, and the turn that this asks for. -/
theorem endTurn_eq_finishTurn (p : Pool τ) (t : Token) :
    p.endTurn t = if (p.finishTurn t).2 then (p.finishTurn t).1.addTurn t else (p.finishTurn t).1 := by
  unfold endTurn finishTurn
  split <;> rfl

section

variable {p : Pool τ} {busy : List Token} {t : Token}

/-- In which order the busy lanes are listed does not matter. -/
theorem Sane.perm (h : p.Sane busy) {busy' : List Token} (hperm : busy.Perm busy') :
    p.Sane busy' where
  distinct := h.distinct
  line := (hperm.append_right p.turns).nodup_iff.1 h.line
  scheduled := fun t => (h.scheduled t).trans (hperm.append_right p.turns).mem_iff
  waiting := h.waiting
  ready := h.ready

/-- A pool is told by its lanes and its line of turns. -/
theorem Sane.congr (h : p.Sane busy) {p' : Pool τ} (hdistinct : p'.Distinct)
    (hlane : ∀ t, p'.lane t = p.lane t) (hturns : p'.turns = p.turns) : p'.Sane busy where
  distinct := hdistinct
  line := hturns ▸ h.line
  scheduled := fun t => by rw [hlane, hturns]; exact h.scheduled t
  waiting := fun t => by rw [hlane]; exact h.waiting t
  ready := fun t ht => by rw [hlane]; exact h.ready t (hturns ▸ ht)

/-- A lane that gets its first task has a turn from then on, which is yet to be spawned. -/
theorem Sane.push (h : p.Sane busy) (t : Token) (task : τ) :
    (p.push t task).1.Sane (if (p.push t task).2 then t :: busy else busy) := by
  have hdispatch := h.dispatch t task
  rcases dispatch_cases p t task with ⟨hs, heq⟩ | ⟨hs, heq⟩
  · have hasks : (p.push t task).2 = false := congrArg not hs
    rw [hasks, if_neg Bool.false_ne_true]
    rw [heq] at hdispatch
    exact hdispatch
  · have hasks : (p.push t task).2 = true := congrArg not hs
    have hturns : (p.dispatch t task).turns = (p.push t task).1.turns ++ [t] := by
      rw [heq]
      rfl
    have hlast : (p.dispatch t task).turns[(p.push t task).1.turns.length]? = some t := by
      rw [hturns]
      exact List.getElem?_concat_length
    have herase : (p.dispatch t task).turns.eraseIdx (p.push t task).1.turns.length =
        (p.push t task).1.turns := by
      rw [hturns, List.eraseIdx_append_of_length_le (Nat.le_refl _), Nat.sub_self]
      exact List.append_nil _
    rw [hasks, if_pos rfl]
    have hpull := (hdispatch.pull hlast).1
    rw [herase, heq] at hpull
    exact hpull.congr hpull.distinct (fun _ => rfl) rfl

/-- The end of a task takes no task away. -/
theorem Sane.finishTurn (h : p.Sane (t :: busy)) :
    (p.finishTurn t).1.Sane (if (p.finishTurn t).2 then t :: busy else busy) ∧
      (∀ u, ((p.finishTurn t).1.lane u).tasks = (p.lane u).tasks) ∧
      ((p.finishTurn t).2 = true → (p.lane t).tasks ≠ []) := by
  unfold Pool.finishTurn
  split
  · rename_i hempty
    refine ⟨h.retire, fun u => ?_, fun hasks => Bool.noConfusion hasks⟩
    rw [lane_setLane]
    by_cases hu : u = t
    · rw [if_pos hu, hu, List.isEmpty_iff.1 hempty]
    · rw [if_neg hu]
  · rename_i hmore
    exact ⟨h, fun _ => rfl, fun _ hnil => hmore (List.isEmpty_iff.2 hnil)⟩

theorem State.eq_idle_of_isIdle {s : State τ} (h : s.isIdle = true) : s = .idle := by
  obtain ⟨tasks, scheduled⟩ := s
  obtain ⟨hscheduled, htasks⟩ := Bool.and_eq_true_iff.1 h
  rw [List.isEmpty_iff] at htasks
  rw [Bool.not_eq_true'] at hscheduled
  subst hscheduled htasks
  rfl

/-- A lane that was idle is so when it is forgotten. -/
theorem stateIn_filter {lanes : List (Token × State τ)} (hnodup : (lanes.map (·.1)).Nodup)
    {keep : Token × State τ → Bool} (hkeep : ∀ l, keep l = false → l.2.isIdle = true) (t : Token) :
    stateIn (lanes.filter keep) t = stateIn lanes t := by
  induction lanes with
  | nil => rfl
  | cons l lanes ih =>
    rw [List.map_cons, List.nodup_cons] at hnodup
    rw [stateIn_cons, List.filter_cons]
    cases hl : keep l
    · rw [if_neg Bool.false_ne_true, ih hnodup.2]
      by_cases ht : l.1 = t
      · rw [if_pos ht, State.eq_idle_of_isIdle (hkeep l hl)]
        exact stateIn_of_not_mem (ht ▸ hnodup.1)
      · rw [if_neg ht]
    · rw [if_pos rfl, stateIn_cons, ih hnodup.2]

theorem Distinct.lane_forget (h : p.Distinct) (among : Token → Bool) (t : Token) :
    (p.forget among).lane t = p.lane t := by
  refine stateIn_filter h (fun l hl => ?_) t
  rw [Bool.not_eq_false', Bool.and_eq_true] at hl
  exact hl.2

theorem Distinct.forget (h : p.Distinct) (among : Token → Bool) : (p.forget among).Distinct :=
  h.sublist (List.filter_sublist.map _)

theorem Sane.forget (h : p.Sane busy) (among : Token → Bool) : (p.forget among).Sane busy :=
  h.congr (h.distinct.forget among) (h.distinct.lane_forget among) rfl

theorem Sane.reportPanic (h : p.Sane busy) : p.reportPanic.Sane busy :=
  h.congr h.distinct (fun _ => rfl) rfl

end

end Pool

/-! ## Shifts -/

/-- A pool at work, with what became of the tasks that were dispatched. -/
structure Shift (τ : Type) where
  pool : Pool τ
  /-- Turns that were asked for and are not spawned yet. -/
  due : List Token
  /-- The turns under way, each with the task it runs. -/
  running : List (Token × τ)
  /-- The lanes whose turn did not come to its end. -/
  lost : List Token
  /-- The dispatches, in order. -/
  dispatched : List (Token × τ)
  /-- The tasks that were begun, in order. -/
  begun : List (Token × τ)
  /-- The tasks that are over, in order. -/
  ended : List (Token × τ)
  /-- Those of them that panicked. -/
  panicked : List (Token × τ)
  /-- Turns that found their lane empty. -/
  wasted : Nat

/-- What happens next. -/
inductive Move (τ : Type) where
  /-- Somebody, a task perhaps, puts a task on a lane. -/
  | dispatch (lane : Token) (task : τ)
  /-- The `i`th turn that is due is spawned. -/
  | spawn (i : Nat)
  /-- The runtime takes the turn that is `i` behind the front of the line. -/
  | begin (i : Nat)
  /-- The task of the `i`th turn under way returns, or panics. -/
  | finish (i : Nat) (panics : Bool)
  /-- The task of the `i`th turn under way panics, and so does the drop of what it panicked with. -/
  | burst (i : Nat)
  /-- Somebody forgets the idle ones of some lanes. -/
  | forget (among : Token → Bool)

def Move.isBurst : Move τ → Bool
  | .burst _ => true
  | _ => false

/-- The same, with the task returning where it panicked. -/
def Move.calm : Move τ → Move τ
  | .finish i _ => .finish i false
  | m => m

/-- The tasks of one lane among those of all lanes. -/
def tasksOn (t : Token) (log : List (Token × τ)) : List τ :=
  log.filterMap fun e => if e.1 = t then some e.2 else none

namespace Shift

def new : Shift τ := ⟨.empty, [], [], [], [], [], [], [], 0⟩

def dispatch (s : Shift τ) (t : Token) (task : τ) : Shift τ :=
  match s.pool.push t task with
  | (p, asks) =>
    { s with
      pool := p
      due := s.due ++ if asks then [t] else []
      dispatched := s.dispatched ++ [(t, task)] }

def spawn (s : Shift τ) (i : Nat) (t : Token) : Shift τ :=
  { s with pool := s.pool.addTurn t, due := s.due.eraseIdx i }

def begin (s : Shift τ) (i : Nat) : Shift τ :=
  match s.pool.beginTurn i with
  | none => s
  | some (p, _, none) => { s with pool := p, wasted := s.wasted + 1 }
  | some (p, t, some task) =>
    { s with
      pool := p
      running := s.running ++ [(t, task)]
      begun := s.begun ++ [(t, task)] }

def finish (s : Shift τ) (i : Nat) (panics : Bool) (t : Token) (task : τ) : Shift τ :=
  match (if panics then s.pool.reportPanic else s.pool).finishTurn t with
  | (p, asks) =>
    { s with
      pool := p
      due := s.due ++ if asks then [t] else []
      running := s.running.eraseIdx i
      ended := s.ended ++ [(t, task)]
      panicked := s.panicked ++ if panics then [(t, task)] else [] }

/-- The panic is counted, and the turn is not ended. -/
def burst (s : Shift τ) (i : Nat) (t : Token) (task : τ) : Shift τ :=
  { s with
    pool := s.pool.reportPanic
    running := s.running.eraseIdx i
    lost := s.lost ++ [t]
    ended := s.ended ++ [(t, task)]
    panicked := s.panicked ++ [(t, task)] }

/-- Make a move. A turn that is not there does not move. -/
def step (s : Shift τ) : Move τ → Shift τ
  | .dispatch t task => s.dispatch t task
  | .spawn i =>
    match s.due[i]? with
    | some t => s.spawn i t
    | none => s
  | .begin i => s.begin i
  | .finish i panics =>
    match s.running[i]? with
    | some (t, task) => s.finish i panics t task
    | none => s
  | .burst i =>
    match s.running[i]? with
    | some (t, task) => s.burst i t task
    | none => s
  | .forget among => { s with pool := s.pool.forget among }

def run (moves : List (Move τ)) : Shift τ := moves.foldl step new

/-! ## Logs -/

section

variable {t u : Token} {task : τ} {i : Nat} {log : List (Token × τ)}

theorem tasksOn_append (t : Token) (log log' : List (Token × τ)) :
    tasksOn t (log ++ log') = tasksOn t log ++ tasksOn t log' := List.filterMap_append

theorem tasksOn_singleton (t u : Token) (task : τ) :
    tasksOn t [(u, task)] = if u = t then [task] else [] := by
  unfold tasksOn
  by_cases hu : u = t
  · simp [hu]
  · simp [hu]

theorem tasksOn_eq_nil (h : t ∉ log.map (·.1)) : tasksOn t log = [] := by
  refine List.filterMap_eq_nil_iff.2 fun e he => if_neg fun heq => h ?_
  exact heq ▸ List.mem_map_of_mem he

/-- A lane that runs one task at most has none left when that one is taken out. -/
theorem tasksOn_eraseIdx (hnodup : (log.map (·.1)).Nodup) (hi : log[i]? = some (u, task)) (t : Token) :
    tasksOn t log = tasksOn t [(u, task)] ++ tasksOn t (log.eraseIdx i) := by
  obtain ⟨hlt, hget⟩ := List.getElem?_eq_some_iff.1 hi
  have hsplit : log = log.take i ++ (u, task) :: log.drop (i + 1) := by
    rw [← hget, ← List.drop_eq_getElem_cons hlt, List.take_append_drop]
  have herase : log.eraseIdx i = log.take i ++ log.drop (i + 1) := List.eraseIdx_eq_take_drop_succ ..
  have hcons : (u, task) :: log.drop (i + 1) = [(u, task)] ++ log.drop (i + 1) := rfl
  rw [hsplit, List.map_append, List.map_cons] at hnodup
  have hfront : u ∉ (log.take i).map (·.1) := fun hmem =>
    (List.nodup_append.1 hnodup).2.2 u hmem u List.mem_cons_self rfl
  rw [herase, tasksOn_append]
  conv_lhs => rw [hsplit, hcons, tasksOn_append, tasksOn_append]
  by_cases hu : u = t
  · rw [tasksOn_eq_nil (hu ▸ hfront)]
    rfl
  · rw [tasksOn_singleton, if_neg hu]
    rfl

end

/-! ## What every move keeps -/

/-- The lanes whose turn is due or under way, and those that lost theirs. -/
def busy (s : Shift τ) : List Token := s.due ++ s.running.map (·.1) ++ s.lost

/-- Every lane with tasks has one turn, due, spawned, under way or lost; the tasks dispatched to it are those
that are over, the one that runs and those that wait; and the panics are counted. -/
structure Sound (s : Shift τ) : Prop where
  sane : s.pool.Sane s.busy
  due : ∀ t ∈ s.due, (s.pool.lane t).tasks ≠ []
  order : ∀ t, tasksOn t s.begun ++ (s.pool.lane t).tasks = tasksOn t s.dispatched
  begun : ∀ t, tasksOn t s.begun = tasksOn t s.ended ++ tasksOn t s.running
  wasted : s.wasted = 0
  panics : s.pool.panics = s.panicked.length
  counted : s.pool.meter.count (.taskPanics .lane) = s.panicked.length
  blamed : s.panicked.Sublist s.ended

theorem sound_new : (new : Shift τ).Sound where
  sane := Pool.sane_empty
  due := fun _ h => nomatch h
  order := fun _ => rfl
  begun := fun _ => rfl
  wasted := rfl
  panics := rfl
  counted := rfl
  blamed := List.Sublist.slnil

section

variable {s : Shift τ} {t : Token} {task : τ} {i : Nat}

/-- No lane has two turns, due, under way or spawned. -/
theorem Sound.turns (h : s.Sound) : (s.due ++ s.running.map (·.1) ++ s.pool.turns).Nodup :=
  h.sane.line.sublist ((List.sublist_append_left _ _).append_right _)

/-- No lane has two turns under way. -/
theorem Sound.serial (h : s.Sound) : (s.running.map (·.1)).Nodup :=
  (List.nodup_append.1 (List.nodup_append.1 h.turns).1).2.1

theorem panics_setLane (p : Pool τ) (t : Token) (l : State τ) :
    (p.setLane t l).panics = p.panics ∧ (p.setLane t l).meter = p.meter := by
  rcases Pool.setLane_cases p t l with ⟨-, heq⟩ | ⟨-, heq⟩ <;> rw [heq] <;> exact ⟨rfl, rfl⟩

theorem panics_finishTurn (p : Pool τ) (t : Token) :
    (p.finishTurn t).1.panics = p.panics ∧ (p.finishTurn t).1.meter = p.meter := by
  unfold Pool.finishTurn
  split
  · exact panics_setLane p t _
  · exact ⟨rfl, rfl⟩

/-- A turn that becomes due is one more. -/
theorem perm_busy (due running lost : List Token) (t : Token) (asks : Bool) :
    (if asks then t :: (due ++ running ++ lost) else due ++ running ++ lost).Perm
      (due ++ (if asks then [t] else []) ++ running ++ lost) := by
  split
  · simp only [List.append_assoc]
    exact List.perm_middle.symm
  · rw [List.append_nil]

/-- A task is put on its lane. -/
theorem Sound.dispatch (h : s.Sound) (t : Token) (task : τ) : (s.dispatch t task).Sound := by
  have hlane : ∀ u, ((s.pool.push t task).1.lane u).tasks =
      if u = t then (s.pool.lane t).tasks ++ [task] else (s.pool.lane u).tasks := by
    intro u
    rw [Pool.push, Pool.lane_setLane]
    split <;> rfl
  have hpanics := panics_setLane s.pool t ⟨(s.pool.lane t).tasks ++ [task], true⟩
  refine ⟨?_, ?_, ?_, h.begun, h.wasted, hpanics.1.trans h.panics, ?_, h.blamed⟩
  · refine (h.sane.push t task).perm ?_
    exact perm_busy s.due _ s.lost t _
  · intro u hu
    show ((s.pool.push t task).1.lane u).tasks ≠ []
    rw [hlane]
    by_cases hut : u = t
    · rw [if_pos hut]
      exact List.concat_ne_nil _ _
    · rw [if_neg hut]
      refine h.due u ((List.mem_append.1 hu).resolve_right fun hnew => hut ?_)
      split at hnew
      · exact List.mem_singleton.1 hnew
      · cases hnew
  · intro u
    show tasksOn u s.begun ++ ((s.pool.push t task).1.lane u).tasks =
      tasksOn u (s.dispatched ++ [(t, task)])
    rw [hlane, tasksOn_append, tasksOn_singleton, ← h.order u]
    by_cases hu : u = t
    · rw [if_pos hu, if_pos hu.symm, hu, List.append_assoc]
    · rw [if_neg hu, if_neg (Ne.symm hu), List.append_nil]
  · show (s.pool.setLane t _).meter.count _ = _
    rw [hpanics.2]
    exact h.counted

/-- A turn that is due is spawned. -/
theorem Sound.spawn (h : s.Sound) (hi : s.due[i]? = some t) : (s.spawn i t).Sound := by
  obtain ⟨hlt, hget⟩ := List.getElem?_eq_some_iff.1 hi
  have hperm : (t :: s.due.eraseIdx i).Perm s.due := hget ▸ List.getElem_cons_eraseIdx_perm hlt
  refine ⟨?_, fun u hu => h.due u (List.mem_of_mem_eraseIdx hu), h.order, h.begun, h.wasted, h.panics,
    h.counted, h.blamed⟩
  have hbusy : s.busy.Perm (t :: (s.due.eraseIdx i ++ s.running.map (·.1) ++ s.lost)) :=
    ((hperm.append_right _).append_right _).symm
  exact (h.sane.perm hbusy).requeue (h.due t (List.mem_of_getElem? hi))

/-- A turn begins, and its lane has a task for it. -/
theorem Sound.begin (h : s.Sound) : (s.begin i).Sound := by
  unfold Shift.begin
  cases hb : s.pool.beginTurn i with
  | none => exact h
  | some result =>
    obtain ⟨p, t, task, rfl, hsane, -, htasks, -⟩ := h.sane.beginTurn hb
    have hpool : p.panics = s.pool.panics ∧ p.meter = s.pool.meter := by
      obtain ⟨_, -, ⟨-, hresult⟩ | ⟨_, _, -, hresult⟩⟩ := Pool.beginTurn_cases hb
      · cases hresult
      · cases hresult
        exact panics_setLane _ _ _
    have hnot : t ∉ s.busy := fun hmem =>
      (List.nodup_cons.1 hsane.line).1 (List.mem_append_left _ hmem)
    refine ⟨?_, ?_, ?_, ?_, h.wasted, hpool.1.trans h.panics, hpool.2 ▸ h.counted, h.blamed⟩
    · refine hsane.perm ?_
      show List.Perm _ (s.due ++ (s.running ++ [(t, task)]).map (·.1) ++ s.lost)
      rw [List.map_append, ← List.append_assoc, List.append_assoc _ _ s.lost]
      exact List.perm_middle.symm
    · intro u hu
      have hne : u ≠ t := by
        rintro rfl
        exact hnot (List.mem_append_left _ (List.mem_append_left _ hu))
      have hdue := h.due u hu
      rw [htasks u, if_neg hne] at hdue
      exact hdue
    · intro u
      show tasksOn u (s.begun ++ [(t, task)]) ++ (p.lane u).tasks = tasksOn u s.dispatched
      rw [tasksOn_append, tasksOn_singleton, ← h.order u, htasks u]
      by_cases hu : u = t
      · rw [if_pos hu.symm, if_pos hu, List.append_assoc]
        rfl
      · rw [if_neg (Ne.symm hu), if_neg hu, List.append_nil]
    · intro u
      show tasksOn u (s.begun ++ [(t, task)]) =
        tasksOn u s.ended ++ tasksOn u (s.running ++ [(t, task)])
      rw [tasksOn_append, tasksOn_append, h.begun u, List.append_assoc]

/-- A panic that is reported is counted, and a pool is not changed by it in any other way. -/
theorem reported (h : s.pool.Sane s.busy) (panics : Bool) :
    let p := if panics then s.pool.reportPanic else s.pool
    p.Sane s.busy ∧ (∀ u, p.lane u = s.pool.lane u) ∧ p.panics = s.pool.panics + panics.toNat ∧
      p.meter.count (.taskPanics .lane) =
        s.pool.meter.count (.taskPanics .lane) + panics.toNat := by
  cases panics with
  | false => exact ⟨h, fun _ => rfl, rfl, rfl⟩
  | true =>
    exact ⟨h.reportPanic, fun _ => rfl, rfl,
      Meter.count_bump s.pool.meter (.taskPanics .lane) (.taskPanics .lane)⟩

/-- A turn under way is one of the busy ones. -/
theorem busy_perm (hi : s.running[i]? = some (t, task)) :
    s.busy.Perm (t :: (s.due ++ (s.running.eraseIdx i).map (·.1) ++ s.lost)) := by
  obtain ⟨hlt, hget⟩ := List.getElem?_eq_some_iff.1 hi
  have hperm := (List.getElem_cons_eraseIdx_perm hlt).map (·.1)
  rw [hget] at hperm
  exact ((hperm.symm.append_left s.due).trans List.perm_middle).append_right s.lost

/-- A task returns or panics. -/
theorem Sound.finish (h : s.Sound) (panics : Bool) (hi : s.running[i]? = some (t, task)) :
    (s.finish i panics t task).Sound := by
  have hlength : (s.panicked ++ if panics then [(t, task)] else []).length =
      s.panicked.length + panics.toNat := by
    rw [List.length_append]
    cases panics <;> rfl
  obtain ⟨hsane, hlane, hpanics, hcounted⟩ := reported h.sane panics
  unfold Shift.finish
  generalize (if panics then s.pool.reportPanic else s.pool) = p at hsane hlane hpanics hcounted ⊢
  obtain ⟨hsane', htasks, hasks⟩ := (hsane.perm (busy_perm hi)).finishTurn
  have hsame := panics_finishTurn p t
  refine ⟨?_, ?_, ?_, ?_, h.wasted, ?_, ?_, ?_⟩
  · refine hsane'.perm ?_
    exact perm_busy s.due _ s.lost t _
  · intro u hu
    show ((p.finishTurn t).1.lane u).tasks ≠ []
    rw [htasks u]
    rcases List.mem_append.1 hu with hold | hnew
    · rw [hlane u]
      exact h.due u hold
    · split at hnew
      · rename_i hmore
        rw [List.mem_singleton.1 hnew]
        exact hasks hmore
      · cases hnew
  · intro u
    show tasksOn u s.begun ++ ((p.finishTurn t).1.lane u).tasks = tasksOn u s.dispatched
    rw [htasks u, hlane u]
    exact h.order u
  · intro u
    show tasksOn u s.begun = tasksOn u (s.ended ++ [(t, task)]) ++ tasksOn u (s.running.eraseIdx i)
    rw [h.begun u, tasksOn_eraseIdx h.serial hi u, tasksOn_append, List.append_assoc]
  · show (p.finishTurn t).1.panics = (s.panicked ++ if panics then [(t, task)] else []).length
    rw [hsame.1, hlength, ← h.panics, hpanics]
  · show (p.finishTurn t).1.meter.count _ = (s.panicked ++ if panics then [(t, task)] else []).length
    rw [hsame.2, hlength, ← h.counted, hcounted]
  · refine h.blamed.append ?_
    split
    · exact List.Sublist.refl _
    · exact List.nil_sublist _

/-- A task panics, and its lane stays busy without a turn. -/
theorem Sound.burst (h : s.Sound) (hi : s.running[i]? = some (t, task)) : (s.burst i t task).Sound := by
  obtain ⟨hsane, hlane, hpanics, hcounted⟩ := reported h.sane true
  refine ⟨?_, h.due, h.order, fun u => ?_, h.wasted, ?_, ?_, h.blamed.append (List.Sublist.refl _)⟩
  · refine hsane.perm ((busy_perm hi).trans ?_)
    show List.Perm _ (s.due ++ (s.running.eraseIdx i).map (·.1) ++ (s.lost ++ [t]))
    rw [← List.append_assoc]
    exact (List.perm_append_singleton t _).symm
  · show tasksOn u s.begun = tasksOn u (s.ended ++ [(t, task)]) ++ tasksOn u (s.running.eraseIdx i)
    rw [h.begun u, tasksOn_eraseIdx h.serial hi u, tasksOn_append, List.append_assoc]
  · show s.pool.reportPanic.panics = (s.panicked ++ [(t, task)]).length
    rw [List.length_append, ← h.panics]
    exact hpanics
  · show s.pool.reportPanic.meter.count _ = (s.panicked ++ [(t, task)]).length
    rw [List.length_append, ← h.counted]
    exact hcounted

theorem Sound.forget (h : s.Sound) (among : Token → Bool) :
    Sound { s with pool := s.pool.forget among } where
  sane := h.sane.forget among
  due := fun t ht => by
    show ((s.pool.forget among).lane t).tasks ≠ []
    rw [h.sane.distinct.lane_forget]
    exact h.due t ht
  order := fun t => by
    show tasksOn t s.begun ++ ((s.pool.forget among).lane t).tasks = _
    rw [h.sane.distinct.lane_forget]
    exact h.order t
  begun := h.begun
  wasted := h.wasted
  panics := h.panics
  counted := h.counted
  blamed := h.blamed

theorem Sound.step (h : s.Sound) (m : Move τ) : (s.step m).Sound := by
  cases m with
  | dispatch t task => exact h.dispatch t task
  | spawn i =>
    simp only [Shift.step]
    split
    · exact h.spawn (by assumption)
    · exact h
  | begin i => exact h.begin
  | finish i panics =>
    simp only [Shift.step]
    split
    · exact h.finish panics (by assumption)
    · exact h
  | burst i =>
    simp only [Shift.step]
    split
    · exact h.burst (by assumption)
    · exact h
  | forget among => exact h.forget among

theorem Sound.foldl (h : s.Sound) (moves : List (Move τ)) : (moves.foldl Shift.step s).Sound := by
  induction moves generalizing s with
  | nil => exact h
  | cons m moves ih => exact ih (h.step m)

end

end Shift

/-! ## Panics make no difference -/

/-- A pool that has not counted its panics. -/
def Pool.uncounted (p : Pool τ) : Pool τ := { p with panics := 0, meter := .empty }

namespace Pool

theorem setLane_uncounted (p : Pool τ) (t : Token) (l : State τ) :
    p.uncounted.setLane t l = (p.setLane t l).uncounted := by
  rcases setLane_cases p t l with ⟨hmem, heq⟩ | ⟨hmem, heq⟩
  · rcases setLane_cases p.uncounted t l with ⟨-, heq'⟩ | ⟨hmem', -⟩
    · rw [heq, heq']
      rfl
    · exact absurd hmem hmem'
  · rcases setLane_cases p.uncounted t l with ⟨hmem', -⟩ | ⟨-, heq'⟩
    · exact absurd hmem' hmem
    · rw [heq, heq']
      rfl

theorem push_uncounted (p : Pool τ) (t : Token) (task : τ) :
    p.uncounted.push t task = ((p.push t task).1.uncounted, (p.push t task).2) :=
  congrArg (·, _) (setLane_uncounted p t _)

theorem finishTurn_uncounted (p : Pool τ) (t : Token) :
    p.uncounted.finishTurn t = ((p.finishTurn t).1.uncounted, (p.finishTurn t).2) := by
  have hlane : p.uncounted.lane t = p.lane t := rfl
  unfold finishTurn
  rw [hlane, setLane_uncounted]
  split <;> rfl

theorem beginTurn_of_none {p : Pool τ} {i : Nat} (ht : p.turns[i]? = none) : p.beginTurn i = none := by
  rw [beginTurn, ht]
  rfl

theorem beginTurn_of_nil {p : Pool τ} {i : Nat} {t : Token} (ht : p.turns[i]? = some t)
    (htasks : (p.lane t).tasks = []) :
    p.beginTurn i = some ({ p with turns := p.turns.eraseIdx i }.setLane t ⟨[], false⟩, t, none) := by
  have hlane : (lane { p with turns := p.turns.eraseIdx i } t).tasks = [] := htasks
  simp only [beginTurn, ht, Option.map_some, hlane]

theorem beginTurn_of_cons {p : Pool τ} {i : Nat} {t : Token} {task : τ} {tasks : List τ}
    (ht : p.turns[i]? = some t) (htasks : (p.lane t).tasks = task :: tasks) :
    p.beginTurn i = some ({ p with turns := p.turns.eraseIdx i }.setLane t
      ⟨tasks, (p.lane t).scheduled⟩, t, some task) := by
  have hlane : (lane { p with turns := p.turns.eraseIdx i } t).tasks = task :: tasks := htasks
  simp only [beginTurn, ht, Option.map_some, hlane]
  rfl

theorem beginTurn_uncounted (p : Pool τ) (i : Nat) :
    p.uncounted.beginTurn i = (p.beginTurn i).map fun r => (r.1.uncounted, r.2) := by
  have hset := fun t => setLane_uncounted { p with turns := p.turns.eraseIdx i } t
  cases ht : p.turns[i]? with
  | none =>
    rw [beginTurn_of_none ht, beginTurn_of_none (p := p.uncounted) ht]
    rfl
  | some t =>
    have ht' : p.uncounted.turns[i]? = some t := ht
    cases htasks : (p.lane t).tasks with
    | nil =>
      rw [beginTurn_of_nil ht htasks, beginTurn_of_nil ht' htasks]
      exact congrArg (fun q => some (q, t, none)) (hset t _)
    | cons task tasks =>
      rw [beginTurn_of_cons ht htasks, beginTurn_of_cons ht' htasks]
      exact congrArg (fun q => some (q, t, some task)) (hset t _)

end Pool

namespace Shift

/-- The same but for the count of panics and of those who did. -/
def uncounted (s : Shift τ) : Shift τ := { s with pool := s.pool.uncounted, panicked := [] }

theorem step_uncounted (s : Shift τ) {m : Move τ} (hburst : m.isBurst = false) :
    s.uncounted.step m.calm = (s.step m).uncounted := by
  cases m with
  | dispatch t task =>
    show Shift.dispatch s.uncounted t task = _
    unfold Shift.dispatch
    rw [show s.uncounted.pool = s.pool.uncounted from rfl, Pool.push_uncounted]
    rfl
  | spawn i =>
    show (match s.due[i]? with
      | some t => s.uncounted.spawn i t
      | none => s.uncounted) = (s.step (.spawn i)).uncounted
    simp only [Shift.step]
    cases s.due[i]? <;> rfl
  | begin i =>
    show Shift.begin s.uncounted i = Shift.uncounted (s.begin i)
    unfold Shift.begin
    rw [show s.uncounted.pool = s.pool.uncounted from rfl, Pool.beginTurn_uncounted]
    rcases s.pool.beginTurn i with _ | ⟨p, t, _ | task⟩ <;> rfl
  | finish i panics =>
    show (match s.running[i]? with
      | some (t, task) => s.uncounted.finish i false t task
      | none => s.uncounted) = (s.step (.finish i panics)).uncounted
    simp only [Shift.step]
    rcases s.running[i]? with _ | ⟨t, task⟩
    · rfl
    · have hpool : (if panics then s.pool.reportPanic else s.pool).uncounted = s.pool.uncounted := by
        split <;> rfl
      have hfinish := Pool.finishTurn_uncounted (if panics then s.pool.reportPanic else s.pool) t
      rw [hpool] at hfinish
      show Shift.finish s.uncounted i false t task = Shift.uncounted (s.finish i panics t task)
      unfold Shift.finish
      rw [if_neg Bool.false_ne_true, show s.uncounted.pool = s.pool.uncounted from rfl, hfinish]
      rfl
  | burst i => cases hburst
  | forget among => rfl

theorem foldl_uncounted (s : Shift τ) {moves : List (Move τ)} (hbursts : ∀ m ∈ moves, m.isBurst = false) :
    (moves.map Move.calm).foldl step s.uncounted = (moves.foldl step s).uncounted := by
  induction moves generalizing s with
  | nil => rfl
  | cons m moves ih =>
    obtain ⟨hburst, hbursts⟩ := List.forall_mem_cons.1 hbursts
    rw [List.map_cons, List.foldl_cons, List.foldl_cons, step_uncounted s hburst]
    exact ih (s.step m) hbursts

/-! ## Lost lanes -/

/-- A turn is lost by a burst, and a burst loses no other. -/
theorem length_lost_step (s : Shift τ) (m : Move τ) :
    (s.step m).lost.length ≤ s.lost.length + m.isBurst.toNat := by
  cases m with
  | dispatch t task => exact Nat.le_refl _
  | spawn i =>
    simp only [step]
    split <;> exact Nat.le_refl _
  | begin i =>
    show (s.begin i).lost.length ≤ _
    unfold Shift.begin
    split <;> exact Nat.le_refl _
  | finish i panics =>
    simp only [step]
    split <;> exact Nat.le_refl _
  | burst i =>
    simp only [step]
    split
    · exact Nat.le_of_eq List.length_append
    · exact Nat.le_succ _
  | forget among => exact Nat.le_refl _

theorem length_lost_foldl (s : Shift τ) (moves : List (Move τ)) :
    (moves.foldl step s).lost.length ≤ s.lost.length + moves.countP Move.isBurst := by
  induction moves generalizing s with
  | nil => exact Nat.le_refl _
  | cons m moves ih =>
    have hstep := length_lost_step s m
    have hrest := ih (s.step m)
    rw [List.countP_cons]
    cases hm : m.isBurst
    all_goals
      rw [hm] at hstep
      simp only [List.foldl_cons, Bool.toNat_false, Bool.toNat_true, Bool.false_eq_true, if_true, if_false]
        at hstep hrest ⊢
      omega

/-! ## What callers see -/

/-- A lane with two tasks, one of which dispatches to another lane and panics. -/
example :
    let s := run (τ := Nat) [.dispatch ⟨"a"⟩ 1, .spawn 0, .dispatch ⟨"a"⟩ 2, .begin 0,
      .dispatch ⟨"b"⟩ 3, .finish 0 true, .spawn 1, .spawn 0, .begin 0, .begin 0, .finish 1 false, .finish 0 false]
    s.ended.map (·.2) = [1, 3, 2] ∧ s.pool.turns = [] ∧ s.pool.panics = 1 := by decide

/-- A lane that lost its turn takes tasks and runs none of them, while another one is not concerned. -/
example :
    let s := run (τ := Nat) [.dispatch ⟨"a"⟩ 1, .spawn 0, .begin 0, .burst 0, .dispatch ⟨"a"⟩ 2,
      .dispatch ⟨"b"⟩ 3, .spawn 0, .begin 0, .finish 0 false]
    s.lost = [⟨"a"⟩] ∧ s.due = [] ∧ s.pool.turns = [] ∧ (s.pool.lane ⟨"a"⟩).tasks = [2] ∧
      s.ended.map (·.2) = [1, 3] ∧ s.pool.panics = 1 := by decide

end Shift

/-! ## Sessions -/

namespace Session

open Shift (step)

variable {s s' : Session} {w : Shift Task} {t : Token} {task : Task}

/-- A dispatch whose turn is spawned at once. -/
theorem foldl_dispatch (hdue : w.due = []) (t : Token) (task : Task) :
    [Move.dispatch t task, .spawn 0].foldl step w =
      { w with pool := w.pool.dispatch t task, dispatched := w.dispatched ++ [(t, task)] } := by
  obtain ⟨pool, due, running, lost, dispatched, begun, ended, panicked, wasted⟩ := w
  subst hdue
  rw [Pool.dispatch_eq_push]
  show step (Shift.dispatch _ t task) (.spawn 0) = _
  unfold Shift.dispatch
  rcases hpush : pool.push t task with ⟨p, _ | _⟩ <;> rfl

/-- The end of the only task that runs, whose lane takes its next turn at once. -/
theorem foldl_finish (hdue : w.due = []) (hrunning : w.running = [(t, task)]) (panics : Bool) :
    [Move.finish 0 panics, .spawn 0].foldl step w =
      { w with
        pool := (if panics then w.pool.reportPanic else w.pool).endTurn t
        running := []
        ended := w.ended ++ [(t, task)]
        panicked := w.panicked ++ if panics then [(t, task)] else [] } := by
  obtain ⟨pool, due, running, lost, dispatched, begun, ended, panicked, wasted⟩ := w
  subst hdue hrunning
  rw [Pool.endTurn_eq_finishTurn]
  show step (Shift.finish _ 0 panics t task) (.spawn 0) = _
  unfold Shift.finish
  rcases hfinish : (if panics then pool.reportPanic else pool).finishTurn t with ⟨p, _ | _⟩ <;>
    simp [step, Shift.spawn]

theorem foldl_dispatches (hdue : w.due = []) (ds : List (Token × Task)) :
    (ds.flatMap fun d => [Move.dispatch d.1 d.2, .spawn 0]).foldl step w =
      { w with
        pool := ds.foldl (fun p d => p.dispatch d.1 d.2) w.pool
        dispatched := w.dispatched ++ ds } := by
  induction ds generalizing w with
  | nil => rw [List.append_nil]; rfl
  | cons d ds ih =>
    rw [List.flatMap_cons, List.foldl_append, foldl_dispatch hdue]
    refine (ih (by exact hdue)).trans ?_
    rw [List.append_assoc]
    rfl

theorem foldl_prune (w : Shift Task) (prunes : Bool) :
    (if prunes then [Move.forget fun _ => true] else []).foldl step w =
      { w with pool := if prunes then w.pool.prune.1 else w.pool } := by
  cases prunes <;> rfl

/-- What a task does to the pool: it dispatches, prunes perhaps, and panics perhaps. -/
theorem pool_run (s : Session) (label : String) (ds : List (Token × Task)) (probes : List Token)
    (prunes : Bool) (failure : Option String) :
    (s.run (.mk label ds probes prunes failure)).pool =
      let p := ds.foldl (fun p d => p.dispatch d.1 d.2) s.pool
      let p := if prunes then p.prune.1 else p
      if failure.isSome then p.reportPanic else p := by
  have hprobes : ∀ (probes : List Token) (s : Session),
      (probes.foldl (fun s t => s.note (.pending (s.pool.pending t))) s).pool = s.pool := by
    intro probes
    induction probes with
    | nil => exact fun _ => rfl
    | cons t probes ih => exact fun s => ih _
  have hpool := hprobes probes { (s.note (.label label)) with
    pool := ds.foldl (fun p d => p.dispatch d.1 d.2) s.pool }
  have hperform : (s.perform (.mk label ds probes prunes failure)).pool =
      if prunes then (ds.foldl (fun p d => p.dispatch d.1 d.2) s.pool).prune.1
      else ds.foldl (fun p d => p.dispatch d.1 d.2) s.pool := by
    cases prunes
    · exact hpool
    · exact congrArg (fun p => p.prune.1) hpool
  unfold run
  cases failure
  · exact hperform
  · exact congrArg Pool.reportPanic hperform

/-- The first turn in the line is taken while nothing else runs. -/
theorem step_begin (hrunning : w.running = []) {p : Pool Task}
    (hb : w.pool.beginTurn 0 = some (p, t, some task)) :
    step w (.begin 0) =
      { w with pool := p, running := [(t, task)], begun := w.begun ++ [(t, task)] } := by
  show Shift.begin w 0 = _
  rw [Shift.begin, hb, hrunning]
  rfl

/-- What a task of a session does, and the end of its turn. -/
def taskMoves : Task → List (Move Task)
  | .mk _ ds _ prunes failure =>
    (ds.flatMap fun d => [.dispatch d.1 d.2, .spawn 0]) ++ (if prunes then [.forget fun _ => true] else []) ++
      [.finish 0 failure.isSome, .spawn 0]

theorem foldl_taskMoves (hpool : w.pool = s.pool) (hdue : w.due = [])
    (hrunning : w.running = [(t, task)]) :
    ((taskMoves task).foldl step w).pool = (s.run task).pool.endTurn t ∧
      ((taskMoves task).foldl step w).due = [] ∧ ((taskMoves task).foldl step w).running = [] := by
  obtain ⟨label, ds, probes, prunes, failure⟩ := task
  unfold taskMoves
  rw [List.foldl_append, List.foldl_append, foldl_dispatches hdue, foldl_prune,
    foldl_finish (by exact hdue) (by exact hrunning), pool_run, ← hpool]
  exact ⟨rfl, hdue, rfl⟩

/-- A turn of a session is a turn of a shift that nobody else takes part in. -/
theorem turn_moves (hpool : w.pool = s.pool) (hdue : w.due = []) (hrunning : w.running = [])
    (h : s.turn = some s') :
    ∃ moves : List (Move Task), (moves.foldl step w).pool = s'.pool ∧ (moves.foldl step w).due = [] ∧
      (moves.foldl step w).running = [] := by
  obtain ⟨⟨p, t, task⟩, hb, hs'⟩ := Option.map_eq_some_iff.1 h
  rw [← hpool] at hb
  subst hs'
  cases task with
  | none =>
    refine ⟨[.begin 0], ?_⟩
    show (Shift.begin w 0).pool = p ∧ (Shift.begin w 0).due = [] ∧ (Shift.begin w 0).running = []
    rw [Shift.begin, hb]
    exact ⟨rfl, hdue, hrunning⟩
  | some task =>
    refine ⟨.begin 0 :: taskMoves task, ?_⟩
    rw [List.foldl_cons, step_begin hrunning hb]
    exact foldl_taskMoves (s := { s with pool := p }) rfl hdue rfl

/-- Waiting until a pool is idle takes its turns in one of the orders that a shift allows. -/
theorem turns_moves (fuel : Nat) (hpool : w.pool = s.pool) (hdue : w.due = [])
    (hrunning : w.running = []) :
    ∃ moves : List (Move Task), (moves.foldl step w).pool = (s.turns fuel).pool ∧
      (moves.foldl step w).due = [] ∧ (moves.foldl step w).running = [] := by
  induction fuel generalizing s w with
  | zero => exact ⟨[], hpool, hdue, hrunning⟩
  | succ fuel ih =>
    unfold turns
    cases hturn : s.turn with
    | none => exact ⟨[], hpool, hdue, hrunning⟩
    | some s' =>
      obtain ⟨first, hpool', hdue', hrunning'⟩ := turn_moves hpool hdue hrunning hturn
      obtain ⟨rest, hrest⟩ := ih hpool' hdue' hrunning'
      refine ⟨first ++ rest, ?_⟩
      rw [List.foldl_append]
      exact hrest

end Session

end ChunkRouter.Lane
