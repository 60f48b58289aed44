import ChunkRouter.Lane.Pool

/-!
# Pool sessions

A pool in use: its tasks write their label down, dispatch further tasks, look at lanes, prune and
panic. Waiting until the pool is idle takes turns in order until none is left; the pool does not move
while nobody waits. Tasks are finite trees, and each turn uses up one of their nodes, so `weight` bounds the number of turns.
-/

namespace ChunkRouter.Lane

/-- What a task does, in the order of the fields. -/
inductive Task where
  | mk (label : String) (dispatches : List (Token × Task)) (probes : List Token) (prunes : Bool)
    (failure : Option String)

instance : Inhabited Task := ⟨.mk "" [] [] false none⟩

/-- What tasks write down. -/
inductive Note where
  | label (s : String)
  | pending (n : Nat)
  | pruned (n : Nat)
  deriving DecidableEq, Repr

mutual

/-- The number of tasks in a tree of tasks. -/
def Task.weight : Task → Nat
  | .mk _ dispatches _ _ _ => 1 + Task.weights dispatches

def Task.weights : List (Token × Task) → Nat
  | [] => 0
  | t :: ts => t.2.weight + Task.weights ts

end

structure Session where
  pool : Pool Task
  /-- What was written down, the latest first. -/
  notes : List Note

namespace Session

def new : Session := ⟨.empty, []⟩

def note (s : Session) (n : Note) : Session := { s with notes := n :: s.notes }

/-- Carry a task out, up to its panic. -/
def perform (s : Session) : Task → Session
  | .mk label dispatches probes prunes _ =>
    let s := s.note (.label label)
    let s := { s with pool := dispatches.foldl (fun p d => p.dispatch d.1 d.2) s.pool }
    let s := probes.foldl (fun s t => s.note (.pending (s.pool.pending t))) s
    if prunes then
      match s.pool.prune with
      | (pool, n) => { s with pool := pool }.note (.pruned n)
    else s

/-- Run one task as a turn; a panic ends the turn only. -/
def run (s : Session) (t : Task) : Session :=
  match t with
  | .mk _ _ _ _ failure =>
    let s := s.perform t
    if failure.isSome then { s with pool := s.pool.reportPanic } else s

/-- Take the turn at the front of the line. -/
def turn (s : Session) : Option Session :=
  (s.pool.beginTurn 0).map fun (pool, lane, task) =>
    match task with
    | none => { s with pool := pool }
    | some t =>
      let s := run { s with pool := pool } t
      { s with pool := s.pool.endTurn lane }

/-- The number of tasks that wait, those they will dispatch included. -/
def weight (s : Session) : Nat :=
  total (s.pool.lanes.map fun l => total (l.2.tasks.map Task.weight))

/-- Take up to `fuel` turns. -/
def turns : (fuel : Nat) → Session → Session
  | 0, s => s
  | fuel + 1, s =>
    match s.turn with
    | none => s
    | some s => turns fuel s

/-- Take turns until none is left, as long as anybody waits for that. -/
def waitIdle (s : Session) (waiters : Nat) : Session := if waiters = 0 then s else s.turns s.weight

end Session

end ChunkRouter.Lane
