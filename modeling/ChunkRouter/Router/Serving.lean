import ChunkRouter.Router.Connection

/-!
# Serving in a fixed order

One order of a connection's acts that leaves nothing undone: lanes before the writer, and the line of
turns from its front. `workLeft` counts the acts that are still to come before the connection has
nothing to do but wait for its peer.
-/

namespace ChunkRouter.Router

open Message (Reply)

namespace Connection

/-- The act that comes next, if there is one that does not wait for the peer or the reader. -/
def nextAct? (c : Connection) : Option Act :=
  if c.visiting.isSome then some .visit
  else if !c.pool.turns.isEmpty then some (.takeTurn 0)
  else
    match c.phase, c.visitor.sent, c.writer.ready with
    | .collecting, _ :: _, _ => some .collect
    | .collecting, [], _ =>
      if 0 < c.round then some .beginSending else if c.noneReplies then some .finish else none
    | .sending, _, front :: _ => some (.send front.unsent.length)
    | .sending, _, [] => some .release
    | .done _, _, _ => none

/-! ## Work -/

/-- Acts for a reply in the channel: it is collected, opens a round perhaps, and is sent, a byte at
a time at worst. -/
def replyWork (r : Reply) : Nat := 8 + r.encode.length

/-- Acts for a chunk that is yet to be visited. Replies to batches have less than a hundred bytes. -/
def inboundWork : Inbound → Nat
  | .request (.batch _ items) => 200 + 5 * items.length
  | x => 2 + ((replyTo? x).map replyWork).getD 0

def inboundsWork (xs : List Inbound) : Nat := total (xs.map inboundWork)

def visitingWork (v : Visiting) : Nat :=
  5 + inboundsWork v.rest + (v.spreading.map fun s => 5 * s.rest.length + 2).getD 0

/-- Acts that end the round the writer is in. -/
def roundWork (c : Connection) : Nat :=
  match c.phase with
  | .collecting => if c.round = 0 then 1 else 3
  | .sending => 2
  | .done _ => 0

/-- A bound on the acts of lanes and writer that are still to come. -/
def workLeft (c : Connection) : Nat :=
  inboundsWork c.pipeline.queue.pending + 4 * c.pipeline.queue.len +
    (c.visiting.map visitingWork).getD 0 + c.pool.turns.length +
    3 * total (c.pool.lanes.map fun l => l.2.tasks.length) +
    120 * (c.visitor.batches.toList.filter fun b => !b.join.hasFired).length +
    total (c.visitor.sent.map replyWork) + c.writer.unsent.length + c.roundWork

/-- Up to `fuel` acts of lanes and writer. -/
def settleLoop : (fuel : Nat) → Connection → Connection
  | 0, c => c
  | fuel + 1, c =>
    match c.nextAct?.bind c.step with
    | none => c
    | some c => settleLoop fuel c

/-- Everything that lanes and writer can do now. -/
def settle (c : Connection) : Connection := settleLoop c.workLeft c

/-- Receive up to `fuel` pieces of `wire`, each as long as the reader has room for, and do all that
follows from each; what was not received comes back. -/
def receiveLoop : (fuel : Nat) → Connection → (wire : Bytes) → Connection × Bytes
  | 0, c, wire => (c, wire)
  | fuel + 1, c, wire =>
    let room := c.reader.space
    match c.step (.receive (wire.take room)) with
    | none => (c, wire)
    | some c => receiveLoop fuel c.settle (wire.drop room)

/-- Serve a peer that sent `wire` until nothing is left to do but wait; what was not received comes
back. -/
def serve (c : Connection) (wire : Bytes) : Connection × Bytes :=
  receiveLoop wire.length c.settle wire

/-- Take an act of the peer or the router, if it may happen, and do all that follows from it. -/
def after (c : Connection) (a : Act) : Connection := ((c.step a).getD c).settle

/-- What the stream took between two moments of a connection. -/
def piecesSince (now earlier : Connection) : Bytes :=
  (now.pieces.take (now.pieces.length - earlier.pieces.length)).reverse.flatten

end Connection

end ChunkRouter.Router
