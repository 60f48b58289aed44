import ChunkRouter.Join.Basic
import ChunkRouter.Lane.Token
import ChunkRouter.Message.Reply
import ChunkRouter.Message.Request
import ChunkRouter.Router.ConnectionId

/-!
# Visitors

A visitor answers the chunks of one connection. Most are answered at once; a batch is spread over the
connection's batch lanes, one task per item, and answered when a join has all of them. The gate of the
join stays shut while items are still being dispatched.

The steps here are indivisible; who runs the tasks of a batch, and when, is up to an executor.
-/

namespace ChunkRouter.Router

open Join (Tally)
open Message (Reply Request)

/-- A chunk as it reaches the visitor. -/
inductive Inbound where
  | request (r : Request)
  /-- The chunk was no request, for this reason. -/
  | malformed (reason : String)
  deriving DecidableEq, Repr

namespace Inbound

/-- What a chunk holds. A request has to end where the chunk does. -/
def ofChunk (chunk : Bytes) : Inbound :=
  match Request.decode chunk with
  | .ok (r, []) => .request r
  | .ok (_, rest) => .malformed (toString rest.length ++ " trailing bytes after request")
  | .error e => .malformed e.message

end Inbound

/-- A batch that was opened. -/
structure Batch where
  id : UInt64
  join : Join Tally String
  deriving DecidableEq, Repr

/-- The task of one batch item. -/
structure ItemTask where
  batch : Nat
  item : Bytes
  deriving DecidableEq, Repr

structure Visitor where
  connection : ConnectionId
  batchLanes : Nat
  /-- All batches, by number. -/
  batches : Array Batch
  /-- Replies sent and not yet received, the latest first. -/
  sent : List Reply
  /-- Whether anybody receives replies. -/
  listening : Bool
  deriving Repr

namespace Visitor

/-- A visitor with at least one batch lane. -/
def new (connection : ConnectionId) (batchLanes : Nat) : Visitor :=
  ⟨connection, max batchLanes 1, #[], [], true⟩

/-- The batch lane with number `k`. -/
def batchLane (connection : ConnectionId) (k : Nat) : Lane.Token :=
  ⟨connection.name ++ "/batch-" ++ toString k⟩

/-- The lane of the `n`th item of a batch: the batch lanes in turn. -/
def laneOfItem (v : Visitor) (n : Nat) : Lane.Token := batchLane v.connection (n % v.batchLanes)

def reply (v : Visitor) (r : Reply) : Visitor :=
  if v.listening then { v with sent := r :: v.sent } else v

/-- What came of one batch item. -/
def handleItem (item : Bytes) : Except String Tally :=
  if item.isEmpty then .error "empty batch item" else .ok ⟨1, 0⟩

/-- The reply to a batch whose items came to `o`. -/
def batchReply (id : UInt64) (o : Join.Outcome Tally String) : Reply :=
  let t := o.result.getD .zero
  .batchDone id t.accepted t.rejected o.error

/-- Put a join back, and reply if it fired. -/
def settleBatch (v : Visitor) (batch : Nat) (id : UInt64) (join : Join Tally String)
    (fired : Option (Join.Outcome Tally String)) : Visitor :=
  let v := { v with batches := v.batches.setIfInBounds batch ⟨id, join⟩ }
  match fired with
  | none => v
  | some o => v.reply (batchReply id o)

/-- Open a batch; its number comes back. -/
def openBatch (v : Visitor) (id : UInt64) : Visitor × Nat :=
  ({ v with batches := v.batches.push ⟨id, .new⟩ }, v.batches.size)

/-- An item of a batch is about to be dispatched. -/
def registerItem (v : Visitor) (batch : Nat) : Visitor :=
  { v with batches := v.batches.modify batch fun b => { b with join := b.join.register } }

/-- Run the task of a batch item. -/
def runItem (v : Visitor) (task : ItemTask) : Visitor :=
  match v.batches[task.batch]? with
  | none => v
  | some b =>
    match b.join.complete Join.tally (handleItem task.item) with
    | (_, .error .overrun) => v
    | (join, .ok fired) => v.settleBatch task.batch b.id join fired

/-- All items of a batch are dispatched. -/
def openGate (v : Visitor) (batch : Nat) : Visitor :=
  match v.batches[batch]? with
  | none => v
  | some b =>
    match b.join.unblock with
    | (join, fired) => v.settleBatch batch b.id join fired

/-- A visitor as it is shown to people. -/
def describe (v : Visitor) : String :=
  "RouterVisitor \x7b connection: " ++ v.connection.describe ++ ", batch_lanes: " ++
    toString v.batchLanes ++ ", .. \x7d"

end Visitor

end ChunkRouter.Router
