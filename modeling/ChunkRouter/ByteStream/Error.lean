import ChunkRouter.Frame.Error
import ChunkRouter.Wire.Error

/-!
# Stream errors

What ends an exchange over a byte stream: an error of the stream itself, of the framing, of an
untimely end, or of the messages. `RelayError.isProtocolViolation` tells the peer's faults from the
stream's.
-/

namespace ChunkRouter.ByteStream

/-- The kinds of errors a byte stream reports. -/
inductive IoKind where
  | connectionReset
  | brokenPipe
  | timedOut
  | unexpectedEof
  | wouldBlock
  | interrupted
  | invalidData
  | writeZero
  | other
  deriving DecidableEq, Repr

def IoKind.text : IoKind → String
  | .connectionReset => "connection reset"
  | .brokenPipe => "broken pipe"
  | .timedOut => "timed out"
  | .unexpectedEof => "unexpected end of file"
  | .wouldBlock => "operation would block"
  | .interrupted => "operation interrupted"
  | .invalidData => "invalid data"
  | .writeZero => "write zero"
  | .other => "other error"

/-- A stream error, with a text of its own where it has one. -/
structure IoError where
  kind : IoKind
  detail : Option String
  deriving DecidableEq, Repr

namespace IoError

def ofKind (kind : IoKind) : IoError := ⟨kind, none⟩

/-- A framing error seen through an interface that knows stream errors only. -/
def ofFraming (e : Frame.FramingError) : IoError := ⟨.invalidData, some e.message⟩

def message (e : IoError) : String := e.detail.getD e.kind.text

end IoError

/-- The stream ended inside a chunk. -/
inductive EofError where
  | midHeader (received headerSize : Nat)
  | midChunk (received expected : Nat)
  deriving DecidableEq, Repr

def EofError.message : EofError → String
  | .midHeader received headerSize =>
    s!"premature EOF during header: {received} of {headerSize} header bytes"
  | .midChunk received expected =>
    s!"premature EOF: {received} bytes of {expected} byte chunk received"

/-- A message could not be written down. -/
inductive EncodeError where
  | unexpectedEnd
  deriving DecidableEq, Repr

def EncodeError.message : EncodeError → String
  | .unexpectedEnd => "UnexpectedEnd"

/-- What ends an exchange. -/
inductive RelayError where
  | io (e : IoError)
  | framing (e : Frame.FramingError)
  | eof (e : EofError)
  | decode (e : Wire.DecodeError)
  | encode (e : EncodeError)
  deriving DecidableEq, Repr

namespace RelayError

def message : RelayError → String
  | .io e => "transport error: " ++ e.message
  | .framing e => "framing error: " ++ e.message
  | .eof e => "premature end of stream: " ++ e.message
  | .decode e => "decode error: " ++ e.message
  | .encode e => "encode error: " ++ e.message

/-- The peer broke the protocol, rather than the stream or this side failing. -/
def isProtocolViolation : RelayError → Bool
  | .framing _ | .eof _ | .decode _ => true
  | .io _ | .encode _ => false

end RelayError

end ChunkRouter.ByteStream
