import ChunkRouter.ByteStream.Transfer
import ChunkRouter.Lane.Pool
import ChunkRouter.Pipeline.Basic
import ChunkRouter.Router.Backlog
import ChunkRouter.Router.Config
import ChunkRouter.Router.Visitor

/-!
# Connections

What a router does for one peer. A reader cuts the peer's bytes into chunks; a pipeline takes the
chunks to a visitor, on a lane of the connection's own; the visitor's replies wait in a channel for a
writer, which sends them in rounds. Reader, lanes and writer run side by side, so a connection is a
transition system: `step` says what an act does and when it may happen, and `run` is any order of acts.

The lanes of a connection bear its name, so no other connection's tasks are on them and the pool here
holds the turns of this connection only.

A connection writes, enqueues and opens its queue as if there were memory for all of it, and
`connection_has_memory` says when there is.
-/

namespace ChunkRouter.Router

open ChunkRouter.ByteStream (EofError Inlet IoError RelayError)
open Message (Reply Request)

namespace Connection

/-- A task on one of the lanes. -/
inductive Task where
  /-- Take a batch of chunks out of the pipeline and visit them. -/
  | drain
  /-- Handle an item of a batch request. -/
  | item (task : ItemTask)
  deriving DecidableEq, Repr

/-- A batch request whose items are being dispatched. -/
structure Spreading where
  number : Nat
  /-- How many items are dispatched. -/
  dispatched : Nat
  rest : List Bytes
  deriving DecidableEq, Repr

/-- A drain task in the middle of its batch of chunks. -/
structure Visiting where
  spreading : Option Spreading
  /-- The chunks yet to be visited. -/
  rest : List Inbound
  deriving DecidableEq, Repr

inductive WriterPhase where
  /-- Taking replies out of the channel. -/
  | collecting
  /-- Sending the round that was collected. -/
  | sending
  /-- Over: the number of replies sent in all, or what went wrong. -/
  | done (result : Except RelayError Nat)

/-- What happens to a connection, one indivisible act at a time. -/
inductive Act where
  /-- Bytes arrive from the peer, as many as the reader had room for at most. -/
  | receive (bytes : Bytes)
  /-- The peer has sent everything. -/
  | hangUp
  | readFails (e : IoError)
  /-- The router is shut down and reads no more. -/
  | shutDown
  /-- The lane that is `i`th in the line of turns takes its turn. -/
  | takeTurn (i : Nat)
  /-- The drain task goes on with its batch of chunks. -/
  | visit
  /-- The writer takes a reply out of the channel. -/
  | collect
  /-- The writer finds the channel empty and begins to send. -/
  | beginSending
  /-- The stream takes `n` bytes. -/
  | send (n : Nat)
  /-- The writer has sent its round. -/
  | release
  | writeFails (e : IoError)
  /-- The writer finds that there will be no more replies. -/
  | finish

end Connection

structure Connection where
  reader : Frame.Reader
  /-- How reading ended, if it did. -/
  readEnd : Option (Except RelayError Unit)
  backlog : Backlog
  pipeline : Pipeline Inbound
  /-- The visitor, and with it the channel of replies. -/
  visitor : Visitor
  pool : Lane.Pool Connection.Task
  visiting : Option Connection.Visiting
  writer : Frame.Writer
  phase : Connection.WriterPhase
  /-- How many replies the writer collected for this round. -/
  round : Nat
  /-- The pieces that the stream took, the latest first. -/
  pieces : List Bytes

namespace Connection

def new (config : Config) (id : ConnectionId) : Connection where
  reader := .new config.frame
  readEnd := none
  backlog := .new config.maxPendingReplies
  pipeline := .new ⟨id.name⟩ config.queue true
  visitor := .new id config.batchLanes
  pool := .empty
  visiting := none
  writer := .new config.frame
  phase := .collecting
  round := 0
  pieces := []

/-- All bytes that the stream took. -/
def written (c : Connection) : Bytes := c.pieces.reverse.flatten

/-- The replies that wait in the channel, in order. -/
def channel (c : Connection) : List Reply := c.visitor.sent.reverse

/-- Whether the reader asks the stream for bytes. -/
def isReading (c : Connection) : Bool := c.readEnd.isNone && c.backlog.hasRoom

/-- Whether nobody is left who could reply. -/
def noneReplies (c : Connection) : Bool :=
  c.readEnd.isSome && c.visiting.isNone && c.pool.lanes.all fun l => l.2.tasks.isEmpty

def isSending (c : Connection) : Bool :=
  match c.phase with
  | .sending => true
  | _ => false

/-- Whether all replies there will ever be are sent, so that the writer is about to close its half of
the stream. -/
def isFlushed (c : Connection) : Bool :=
  match c.phase with
  | .collecting => c.round == 0 && c.visitor.sent.isEmpty && c.noneReplies
  | _ => false

/-! ## The reader -/

/-- Reading is over; unless it ended well, the chunks that wait are given up. -/
def endReading (c : Connection) (result : Except RelayError Unit) : Connection :=
  match result with
  | .ok () => { c with readEnd := some result }
  | .error _ => { c with readEnd := some result, pipeline := c.pipeline.close.1 }

def dispatchDrain (c : Connection) : Connection :=
  { c with pool := c.pool.dispatch c.pipeline.lane .drain }

/-- A chunk is complete: a reply is owed from now on. -/
def accept (c : Connection) (x : Inbound) : Connection :=
  match c.pipeline.enqueue x with
  | (pipeline, admission) =>
    let c := { c with backlog := c.backlog.add, pipeline := pipeline }
    if admission = .accepted true then c.dispatchDrain else c

/-- Bytes that fit the reader's room arrive. -/
def receive (c : Connection) (bytes : Bytes) : Connection :=
  match (c.reader.fill bytes).advance bytes.length with
  | (reader, .error e) => { c with reader := reader }.endReading (.error (.framing e))
  | (reader, .ok none) => { c with reader := reader }
  | (reader, .ok (some chunk)) => { c with reader := reader }.accept (.ofChunk chunk)

/-! ## The lanes -/

def takeTurn (c : Connection) (i : Nat) : Option Connection :=
  (c.pool.beginTurn i).map fun (pool, lane, task) =>
    let c := { c with pool := pool }
    match task with
    | none => c
    | some (.item task) => { c with visitor := c.visitor.runItem task, pool := c.pool.endTurn lane }
    | some .drain =>
      match c.pipeline.beginDrain with
      | (pipeline, none) => { c with pipeline := pipeline, pool := c.pool.endTurn lane }
      | (pipeline, some batch) => { c with pipeline := pipeline, visiting := some ⟨none, batch⟩ }

/-- The reply to a chunk that can be answered at once. -/
def replyTo? : Inbound → Option Reply
  | .request (.ping nonce) => some (.pong nonce)
  | .request (.echo body) => some (.echo body)
  | .request (.batch _ _) => none
  | .malformed reason => some (.rejected reason)

/-- The batch of chunks is visited. The task goes to the end of its lane if more chunks wait. -/
def endDrain (c : Connection) : Connection :=
  match c.pipeline.endDrain with
  | (pipeline, again) =>
    let c := { c with pipeline := pipeline, visiting := none }
    let c := if again then c.dispatchDrain else c
    { c with pool := c.pool.endTurn c.pipeline.lane }

def visit (c : Connection) : Option Connection :=
  c.visiting.map fun
    | ⟨none, []⟩ => c.endDrain
    | ⟨none, .request (.batch id items) :: rest⟩ =>
      let (visitor, number) := c.visitor.openBatch id
      { c with visitor := visitor, visiting := some ⟨some ⟨number, 0, items⟩, rest⟩ }
    | ⟨none, x :: rest⟩ =>
      { c with
        visitor := (replyTo? x).toList.foldl Visitor.reply c.visitor
        visiting := some ⟨none, rest⟩ }
    | ⟨some ⟨number, n, item :: items⟩, rest⟩ =>
      { c with
        visitor := c.visitor.registerItem number
        pool := c.pool.dispatch (c.visitor.laneOfItem n) (.item ⟨number, item⟩)
        visiting := some ⟨some ⟨number, n + 1, items⟩, rest⟩ }
    | ⟨some ⟨number, _, []⟩, rest⟩ =>
      { c with visitor := c.visitor.openGate number, visiting := some ⟨none, rest⟩ }

/-! ## The writer -/

/-- The writer is done; later replies find nobody. -/
def endWriting (c : Connection) (result : Except RelayError Nat) : Connection :=
  { c with
    phase := .done result
    backlog := c.backlog.close
    visitor := { c.visitor with sent := [], listening := false } }

/-- Make a chunk of a reply. A reply that is too long for a chunk is dropped. -/
def stageReply (w : Frame.Writer) (r : Reply) : Frame.Writer × Except Frame.FramingError Unit :=
  match w.write r.encode with
  | (w, .error _) => (w, .ok ())
  | (w, .ok ()) =>
    match w.complete with
    | (w, result) => (w, result.map fun _ => ())

def collect (c : Connection) : Option Connection :=
  c.visitor.sent.getLast?.map fun r =>
    let c := { c with
      visitor := { c.visitor with sent := c.visitor.sent.dropLast }
      round := c.round + 1 }
    match stageReply c.writer r with
    | (writer, .error e) => { c with writer := writer }.endWriting (.error (.framing e))
    | (writer, .ok ()) => { c with writer := writer }

def send (c : Connection) (n : Nat) : Option Connection :=
  c.writer.current?.bind fun front =>
    if 0 < n ∧ n ≤ front.length then
      some { c with writer := (c.writer.advance n).1, pieces := front.take n :: c.pieces }
    else none

/-! ## Acts -/

/-- What an act does, if it may happen now. -/
def step (c : Connection) : Act → Option Connection
  | .receive bytes =>
    if c.isReading ∧ bytes ≠ [] ∧ bytes.length ≤ c.reader.space then some (c.receive bytes)
    else none
  | .hangUp =>
    if c.isReading then some (c.endReading ((Inlet.checkEof c.reader).mapError .eof)) else none
  | .readFails e => if c.isReading then some (c.endReading (.error (.io e))) else none
  | .shutDown => if c.readEnd.isNone then some (c.endReading (.ok ())) else none
  | .takeTurn i => c.takeTurn i
  | .visit => c.visit
  | .collect =>
    match c.phase with
    | .collecting => c.collect
    | _ => none
  | .beginSending =>
    match c.phase, c.visitor.sent with
    | .collecting, [] => if 0 < c.round then some { c with phase := .sending } else none
    | _, _ => none
  | .send n =>
    match c.phase with
    | .sending => c.send n
    | _ => none
  | .release =>
    match c.phase, c.writer.ready with
    | .sending, [] =>
      some { c with phase := .collecting, backlog := c.backlog.release c.round, round := 0 }
    | _, _ => none
  | .writeFails e => if c.isSending || c.isFlushed then some (c.endWriting (.error (.io e))) else none
  | .finish => if c.isFlushed then some (c.endWriting (.ok c.writer.chunksWritten)) else none

/-- Acts in order, if each may happen when its time comes. -/
def run (c : Connection) (acts : List Act) : Option Connection := acts.foldlM step c

/-- What came of the connection, once reader and writer are done. The reader's error goes first. -/
def result? (c : Connection) : Option (Except RelayError Unit) :=
  match c.readEnd, c.phase with
  | some (.error e), .done _ => some (.error e)
  | some (.ok ()), .done result => some (result.map fun _ => ())
  | _, _ => none

/-- What the parts of a connection counted. -/
def meter (c : Connection) : Meter :=
  c.reader.meter.merge (c.pipeline.queue.meter.merge (c.pool.meter.merge c.writer.meter))

end Connection

end ChunkRouter.Router
