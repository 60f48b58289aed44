import ChunkRouter.Lane.Executor
import ChunkRouter.Memory
import ChunkRouter.Router.Visitor

/-!
# Desks

A visitor at work on an executor: chunks are put before it, and the tasks of its batches are run at
once or off a bench.
-/

namespace ChunkRouter.Router

open Message (Reply Request)

structure Desk where
  visitor : Visitor
  executor : Lane.Executor ItemTask

namespace Desk

/-- The bytes that a lane's name takes in the list of batch lanes. -/
def laneSize : Nat := 16

/-- A desk for a connection, if there is memory for its batch lanes. -/
def tryNew (connection : ConnectionId) (batchLanes : Nat) (executor : Lane.Executor ItemTask) :
    Except Panic Desk :=
  let visitor := Visitor.new connection batchLanes
  (Memory.reserve laneSize visitor.batchLanes).map fun _ => ⟨visitor, executor⟩

/-- Dispatch the task of an item, and run it if the executor asks for that. -/
def dispatch (d : Desk) (lane : Lane.Token) (task : ItemTask) : Desk :=
  match d.executor.dispatch lane task with
  | (executor, now) =>
    { visitor := if now then d.visitor.runItem task else d.visitor, executor := executor }

/-- Register and dispatch the items of a batch, `n` of which were dispatched before. -/
def dispatchItems (batch : Nat) : (n : Nat) → List Bytes → Desk → Desk
  | _, [], d => d
  | n, item :: items, d =>
    dispatchItems batch (n + 1) items
      (dispatch { d with visitor := d.visitor.registerItem batch } (d.visitor.laneOfItem n)
        ⟨batch, item⟩)

/-- Spread a batch over the batch lanes, then open its gate. -/
def visitBatch (d : Desk) (id : UInt64) (items : List Bytes) : Desk :=
  match d.visitor.openBatch id with
  | (visitor, batch) =>
    let d := dispatchItems batch 0 items { d with visitor := visitor }
    { d with visitor := d.visitor.openGate batch }

/-- Answer a chunk. -/
def visit (d : Desk) : Inbound → Desk
  | .request (.ping nonce) => { d with visitor := d.visitor.reply (.pong nonce) }
  | .request (.echo body) => { d with visitor := d.visitor.reply (.echo body) }
  | .request (.batch id items) => d.visitBatch id items
  | .malformed reason => { d with visitor := d.visitor.reply (.rejected reason) }

/-- Run the task that was taken off the bench, and tell whether there was one. -/
def runTaken (d : Desk) : Option (ItemTask × Lane.Executor ItemTask) → Desk × Bool
  | none => (d, false)
  | some (task, executor) => ({ visitor := d.visitor.runItem task, executor := executor }, true)

def runNext (d : Desk) : Desk × Bool := d.runTaken d.executor.next

def runNextOn (d : Desk) (lane : Lane.Token) : Desk × Bool := d.runTaken (d.executor.nextOn lane)

/-- Run up to `fuel` tasks; `n` counts those run before. -/
def runTasks : (fuel : Nat) → (n : Nat) → Desk → Desk × Nat
  | 0, n, d => (d, n)
  | fuel + 1, n, d =>
    match d.runNext with
    | (d, false) => (d, n)
    | (d, true) => runTasks fuel (n + 1) d

/-- Run tasks until the bench is empty. Tasks of batch items dispatch nothing, so as many tasks are
run as are parked. -/
def runUntilIdle (d : Desk) : Desk × Nat := d.runTasks d.executor.parkedCount 0

/-- Receive the replies sent so far, in order. -/
def receive (d : Desk) : Desk × List Reply :=
  ({ d with visitor := { d.visitor with sent := [] } }, d.visitor.sent.reverse)

/-- Stop receiving replies. -/
def hangUp (d : Desk) : Desk :=
  { d with visitor := { d.visitor with sent := [], listening := false } }

end Desk

end ChunkRouter.Router
