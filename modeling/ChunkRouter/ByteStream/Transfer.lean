import ChunkRouter.Frame.Reader
import ChunkRouter.Frame.Writer
import ChunkRouter.ByteStream.Script

/-!
# Chunks over streams

The codec does no input or output of its own. These functions read straight into a reader's target
and write straight out of a writer's fragments. A poisoned reader never touches the stream, a read
never goes beyond the chunk it is in, and what a failed flush has not sent stays in the writer.
-/

namespace ChunkRouter.ByteStream

open ChunkRouter.Frame (Reader Writer)

/-- A writer as a byte sink, which knows stream errors only: all of `bytes` are appended, and the answer
is their number. -/
def sink (w : Writer) (bytes : Bytes) : Writer × Except IoError Nat :=
  match w.write bytes with
  | (w, .ok ()) => (w, .ok bytes.length)
  | (w, .error e) => (w, .error (.ofFraming e))

/-- What one read did. -/
inductive ReadStatus where
  /-- `bytes` bytes arrived, and completed the chunk that is given. -/
  | progress (bytes : Nat) (chunk : Option Bytes)
  | eof
  deriving DecidableEq, Repr

/-- A stream and the reader it fills. -/
structure Inlet where
  stream : Script
  reader : Reader

/-- A stream and the writer it drains. -/
structure Outlet where
  stream : Script
  writer : Writer

namespace Inlet

/-- Read once into the reader's target. -/
def readOnce (i : Inlet) : Inlet × Except RelayError ReadStatus :=
  if i.reader.space = 0 then (i, .error (.framing .poisoned))
  else
    match i.stream.read i.reader.space with
    | (stream, .error e) => ({ i with stream := stream }, .error (.io e))
    | (stream, .ok []) => ({ i with stream := stream }, .ok .eof)
    | (stream, .ok bytes) =>
      match (i.reader.fill bytes).advance bytes.length with
      | (reader, .error e) => (⟨stream, reader⟩, .error (.framing e))
      | (reader, .ok chunk) => (⟨stream, reader⟩, .ok (.progress bytes.length chunk))

/-- The end of the stream is timely on a chunk boundary only. -/
def checkEof (reader : Reader) : Except EofError Unit :=
  if reader.isIdle then .ok ()
  else
    match reader.pendingLen? with
    | none => .error (.midHeader reader.buffered Frame.prefixSize)
    | some expected => .error (.midChunk reader.buffered expected)

/-- A read that made progress used up some of the script. -/
theorem readWeight_readOnce {i j : Inlet} {n : Nat} {chunk : Option Bytes}
    (h : i.readOnce = (j, .ok (.progress n chunk))) :
    Script.readWeight j.stream.reads < Script.readWeight i.stream.reads := by
  unfold readOnce at h
  split at h
  · cases h
  rename_i hspace
  split at h
  · cases h
  · cases h
  rename_i stream bytes hne hread
  have hlt := Script.readWeight_read (Nat.pos_of_ne_zero hspace) hne hread
  split at h
  · cases h
  · cases h; exact hlt

/-- Read until the stream ends; `acc` holds the chunks delivered before, the latest first. -/
def readLoop (i : Inlet) (acc : List Bytes) : Inlet × List Bytes × Except RelayError Nat :=
  match _h : i.readOnce with
  | (i, .error e) => (i, acc, .error e)
  | (i, .ok .eof) =>
    match checkEof i.reader with
    | .error e => (i, acc, .error (.eof e))
    | .ok () => (i, acc, .ok i.reader.chunksRead)
  | (i, .ok (.progress _ chunk)) => readLoop i (chunk.toList ++ acc)
termination_by Script.readWeight i.stream.reads
decreasing_by exact readWeight_readOnce _h

/-- Read until the stream ends. The chunks delivered come back in order, with the number the reader
has delivered in all. -/
def readToEnd (i : Inlet) : Inlet × List Bytes × Except RelayError Nat :=
  match i.readLoop [] with
  | (i, acc, result) => (i, acc.reverse, result)

end Inlet

namespace Outlet

/-- Write fragments until none is left, then flush the stream. -/
def flushLoop (o : Outlet) (finished : Nat) : Outlet × Except RelayError Nat :=
  match _h : o.writer.ready with
  | [] =>
    match o.stream.flush with
    | (stream, .error e) => ({ o with stream := stream }, .error (.io e))
    | (stream, .ok ()) => ({ o with stream := stream }, .ok finished)
  | front :: _ =>
    match o.stream.write front.unsent with
    | (stream, .error e) => ({ o with stream := stream }, .error (.io e))
    | (stream, .ok n) =>
      if _hn : n = 0 then ({ o with stream := stream }, .error (.io (.ofKind .writeZero)))
      else
        match _ha : o.writer.advance n with
        | (writer, .error e) => (⟨stream, writer⟩, .error (.framing e))
        | (writer, .ok ()) =>
          flushLoop ⟨stream, writer⟩
            (if writer.fragmentCount < o.writer.fragmentCount then finished + 1 else finished)
termination_by o.writer.unsent.length
decreasing_by
  have hle := Writer.le_of_advance _h _ha
  have hunsent := Writer.unsent_advance _h hle
  rw [_ha] at hunsent
  rw [hunsent]
  simp only [Writer.unsent, _h, List.flatMap_cons, List.length_drop, List.length_append]
  omega

/-- Send all completed fragments; the number finished comes back. -/
def flush (o : Outlet) : Outlet × Except RelayError Nat := o.flushLoop 0

end Outlet

/-- Write bytes as they are until the stream has taken all of them. -/
def writeAll (s : Script) (bytes : Bytes) : Script × Except RelayError Unit :=
  if _hb : bytes = [] then (s, .ok ())
  else
    match s.write bytes with
    | (s, .error e) => (s, .error (.io e))
    | (s, .ok n) =>
      if _hn : n = 0 then (s, .error (.io (.ofKind .writeZero))) else writeAll s (bytes.drop n)
termination_by bytes.length
decreasing_by
  have := List.length_pos_iff.2 _hb
  simp only [List.length_drop]
  omega

end ChunkRouter.ByteStream
