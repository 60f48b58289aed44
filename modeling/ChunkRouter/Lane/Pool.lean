import ChunkRouter.Lane.Token
import ChunkRouter.Panic

/-!
# Lane pools

A pool holds a line of waiting tasks per lane. A lane with work has exactly one turn, which is either
in the line of turns or being taken; a turn runs one task of its lane and then, if the lane has more,
goes to the end of the line. A lane that never had a task, or was pruned, is idle.

The operations here are what each does when nothing comes between its steps. To the threads of a program
a pruning is a reading of the number of lanes, a sweep and another reading; what its answer is then is
said in `ChunkRouter.Proofs.Lane.Pruning`. A turn ends after its panic, if there was one, has been
reported and its payload dropped; a payload that cannot be dropped takes the turn with it, as `Shift.burst`
in `ChunkRouter.Proofs.Lane.Serial` does.
-/

namespace ChunkRouter.Lane

/-- One lane: the tasks that wait, and whether it has a turn. -/
structure State (τ : Type) where
  tasks : List τ
  scheduled : Bool
  deriving Repr

namespace State

variable {τ : Type}

def idle : State τ := ⟨[], false⟩

def isIdle (s : State τ) : Bool := !s.scheduled && s.tasks.isEmpty

end State

structure Pool (τ : Type) where
  /-- The known lanes, in the order they were first used. -/
  lanes : List (Token × State τ)
  /-- The lanes whose turn is to come, in order. -/
  turns : List Token
  panics : Nat
  meter : Meter
  deriving Repr

namespace Pool

variable {τ : Type}

def empty : Pool τ := ⟨[], [], 0, .empty⟩

def laneCount (p : Pool τ) : Nat := p.lanes.length

/-- The state of a lane. -/
def lane (p : Pool τ) (t : Token) : State τ := ((p.lanes.find? (·.1 = t)).map (·.2)).getD .idle

/-- Tasks waiting on a lane. -/
def pending (p : Pool τ) (t : Token) : Nat := (p.lane t).tasks.length

/-- Replace the state of a lane, which becomes known if it was not. -/
def setLane (p : Pool τ) (t : Token) (s : State τ) : Pool τ :=
  if p.lanes.any (·.1 = t) then
    { p with lanes := p.lanes.map fun l => if l.1 = t then (t, s) else l }
  else { p with lanes := p.lanes ++ [(t, s)] }

/-- Append a turn of `t` to the line. -/
def addTurn (p : Pool τ) (t : Token) : Pool τ := { p with turns := p.turns ++ [t] }

/-- Put a task at the end of a lane. The lane gets a turn unless it has one. -/
def dispatch (p : Pool τ) (t : Token) (task : τ) : Pool τ :=
  let s := p.lane t
  let p' := p.setLane t ⟨s.tasks ++ [task], true⟩
  if s.scheduled then p' else p'.addTurn t

/-- Take the turn that is `i` behind the front of the line: its lane and the task it runs. A lane
without tasks would lose its turn. -/
def beginTurn (p : Pool τ) (i : Nat) : Option (Pool τ × Token × Option τ) :=
  p.turns[i]?.map fun t =>
    let p := { p with turns := p.turns.eraseIdx i }
    match (p.lane t).tasks with
    | [] => (p.setLane t ⟨[], false⟩, t, none)
    | task :: tasks => (p.setLane t ⟨tasks, (p.lane t).scheduled⟩, t, some task)

/-- The task of a turn is done, and so is what was left of its panic; its lane takes another turn if it
has more. -/
def endTurn (p : Pool τ) (t : Token) : Pool τ :=
  if (p.lane t).tasks.isEmpty then p.setLane t ⟨[], false⟩ else p.addTurn t

/-- The task of a turn panicked. -/
def reportPanic (p : Pool τ) : Pool τ :=
  { p with panics := p.panics + 1, meter := Panic.report .lane p.meter }

/-- Forget the lanes that are idle and tell how many they were, with no other call in between. -/
def prune (p : Pool τ) : Pool τ × Nat :=
  let lanes := p.lanes.filter fun l => !l.2.isIdle
  ({ p with lanes := lanes }, p.lanes.length - lanes.length)

def describe (p : Pool τ) : String :=
  "LanePool \x7b lanes: " ++ toString p.laneCount ++ ", panics: " ++ toString p.panics ++ ", .. \x7d"

end Pool

end ChunkRouter.Lane
