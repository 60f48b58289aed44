import ChunkRouter.Wire.Cursor

/-!
# Replies

What the router answers, and its encoding: a tag, then the fields in order.
-/

namespace ChunkRouter.Message

inductive Reply where
  | pong (nonce : UInt64)
  | echo (body : Bytes)
  /-- All items of a batch were handled. -/
  | batchDone (id : UInt64) (accepted rejected : UInt32) (firstError : Option String)
  /-- The chunk was no request. -/
  | rejected (reason : String)
  deriving DecidableEq, Repr

namespace Reply

def typeName : String := "Reply"

def encode : Reply → Bytes
  | .pong nonce => 0 :: Wire.Varint.encode nonce.toNat
  | .echo body => 1 :: Wire.encodeBytes body
  | .batchDone id good bad firstError =>
    2 :: (Wire.Varint.encode id.toNat ++ Wire.Varint.encode good.toNat ++
      Wire.Varint.encode bad.toNat ++ Wire.encodeOptionalText firstError)
  | .rejected reason => 3 :: Wire.encodeText reason

def read : Wire.Decoder Reply := fun c => do
  let (tag, c) ← c.u32
  match tag with
  | 0 => do
    let (nonce, c) ← c.u64
    .ok (.pong nonce.toUInt64, c)
  | 1 => do
    let (body, c) ← c.bytes
    .ok (.echo body, c)
  | 2 => do
    let (id, c) ← c.u64
    let (good, c) ← c.u32
    let (bad, c) ← c.u32
    let (firstError, c) ← c.optionalText
    .ok (.batchDone id.toUInt64 good.toUInt32 bad.toUInt32 firstError, c)
  | 3 => do
    let (reason, c) ← c.text
    .ok (.rejected reason, c)
  | tag => .error (.unexpectedVariant typeName 3 tag)

/-- The reply at the front of `bytes` and the bytes after it. -/
def decode (bytes : Bytes) : Except Wire.DecodeError (Reply × Bytes) :=
  (read (.start bytes)).map fun (reply, c) => (reply, c.rest)

end Reply

end ChunkRouter.Message
