import ChunkRouter.Wire.Cursor

/-!
# Requests

What a client asks of the router, and its encoding: a tag, then the fields in order.
-/

namespace ChunkRouter.Message

inductive Request where
  /-- Answered with the same number. -/
  | ping (nonce : UInt64)
  /-- Answered with the same bytes. -/
  | echo (body : Bytes)
  /-- Answered once every item was handled. -/
  | batch (id : UInt64) (items : List Bytes)
  deriving DecidableEq, Repr

namespace Request

def typeName : String := "Request"

def encode : Request → Bytes
  | .ping nonce => 0 :: Wire.Varint.encode nonce.toNat
  | .echo body => 1 :: Wire.encodeBytes body
  | .batch id items => 2 :: (Wire.Varint.encode id.toNat ++ Wire.encodeBytesList items)

def read : Wire.Decoder Request := fun c => do
  let (tag, c) ← c.u32
  match tag with
  | 0 => do
    let (nonce, c) ← c.u64
    .ok (.ping nonce.toUInt64, c)
  | 1 => do
    let (body, c) ← c.bytes
    .ok (.echo body, c)
  | 2 => do
    let (id, c) ← c.u64
    let (items, c) ← c.bytesList
    .ok (.batch id.toUInt64 items, c)
  | tag => .error (.unexpectedVariant typeName 2 tag)

/-- The request at the front of `bytes` and the bytes after it. -/
def decode (bytes : Bytes) : Except Wire.DecodeError (Request × Bytes) :=
  (read (.start bytes)).map fun (request, c) => (request, c.rest)

end Request

end ChunkRouter.Message
