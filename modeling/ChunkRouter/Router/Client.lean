import ChunkRouter.Message.Reply
import ChunkRouter.Message.Request
import ChunkRouter.ByteStream.Transfer

/-!
# Clients

A client sends requests over a stream and receives replies in the order of their arrival. A request
that is too long leaves the client as it was; a reply that does not decode uses up its chunk only. The writer
is taken to have its memory; `client_has_memory` says when it has.
-/

namespace ChunkRouter.Router

open Message (Reply Request)
open ChunkRouter.ByteStream (Inlet Outlet RelayError Script)

structure Client where
  stream : Script
  reader : Frame.Reader
  writer : Frame.Writer
  /-- Chunks that arrived and were not received yet, in order. -/
  inbox : List Bytes

namespace Client

def new (stream : Script) (limits : Frame.Limits) : Client :=
  ⟨stream, .new limits, .new limits, []⟩

/-- Send what the writer holds. -/
def flush (c : Client) : Client × Except RelayError Unit :=
  match Outlet.flush ⟨c.stream, c.writer⟩ with
  | (o, result) => ({ c with stream := o.stream, writer := o.writer }, result.map fun _ => ())

/-- Send a request as one chunk. -/
def send (c : Client) (request : Request) : Client × Except RelayError Unit :=
  match c.writer.write request.encode with
  | (writer, .error e) => ({ c with writer := writer }, .error (.framing e))
  | (writer, .ok ()) =>
    match writer.complete with
    | (writer, .error e) => ({ c with writer := writer }, .error (.framing e))
    | (writer, .ok _) => flush { c with writer := writer }

/-- Send a request, if there is memory for its chunk. -/
def trySend (c : Client) (request : Request) : Except Panic (Client × Except RelayError Unit) :=
  (c.writer.reserve request.encode.length).map fun _ => c.send request

/-- Receive the next reply; none once the router has closed the stream on a chunk boundary. -/
def receive (c : Client) : Client × Except RelayError (Option Reply) :=
  match c.inbox with
  | chunk :: inbox =>
    let c := { c with inbox := inbox }
    match Reply.decode chunk with
    | .ok (reply, _) => (c, .ok (some reply))
    | .error e => (c, .error (.decode e))
  | [] =>
    match _h : Inlet.readOnce ⟨c.stream, c.reader⟩ with
    | (i, .error e) => ({ c with stream := i.stream, reader := i.reader }, .error e)
    | (i, .ok .eof) =>
      let c := { c with stream := i.stream, reader := i.reader }
      match Inlet.checkEof i.reader with
      | .ok () => (c, .ok none)
      | .error e => (c, .error (.eof e))
    | (i, .ok (.progress _ chunk)) =>
      receive { c with stream := i.stream, reader := i.reader, inbox := chunk.toList }
termination_by Script.readWeight c.stream.reads
decreasing_by exact Inlet.readWeight_readOnce _h

/-- Send bytes as they are, outside any chunk. -/
def sendRaw (c : Client) (bytes : Bytes) : Client × Except RelayError Unit :=
  match ByteStream.writeAll c.stream bytes with
  | (stream, .error e) => ({ c with stream := stream }, .error e)
  | (stream, .ok ()) =>
    match stream.flush with
    | (stream, result) => ({ c with stream := stream }, result.mapError .io)

/-- Close the sending half. -/
def finish (c : Client) : Client × Except RelayError Unit :=
  match c.stream.shutdown with
  | (stream, result) => ({ c with stream := stream }, result.mapError .io)

end Client

end ChunkRouter.Router
