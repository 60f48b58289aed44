import ChunkRouter.Wire.Error
import ChunkRouter.Wire.Varint

/-!
# Decoding within a budget

A cursor holds the bytes not yet read and the bytes claimed so far. Whatever a decoder is about to
hold is claimed first, and a claim beyond `decodeLimit` is refused before anything is read, so a
short message cannot announce more than a reader is willing to keep.

The message format is bincode in its standard configuration with a limit, and this is what is taken of it.
A number is charged its full width, whatever form it has on the wire: four bytes for one of 32 bits, which
the tag of a variant is too, and eight for one of 64 bits or a length. An optional text is charged one byte
for its tag, a byte string its length, and a list 24 bytes for each of its items, which are given back one by
one as the items are read. A marker that the number wanted is too narrow for, or that is reserved, is an
error that names both.
-/

namespace ChunkRouter.Wire

/-- The budget of one message, in bytes. -/
def decodeLimit : Nat := 16777216

structure Cursor where
  rest : Bytes
  claimed : Nat
  deriving DecidableEq, Repr

/-- Reads a value off the front of a cursor. -/
abbrev Decoder (α : Type) := Cursor → Except DecodeError (α × Cursor)

namespace Cursor

def start (bytes : Bytes) : Cursor := ⟨bytes, 0⟩

/-- Charge `n` bytes to the budget. -/
def claim (n : Nat) (c : Cursor) : Except DecodeError Cursor :=
  if decodeLimit < c.claimed + n then .error .limitExceeded
  else .ok { c with claimed := c.claimed + n }

/-- Give `n` claimed bytes back. -/
def release (n : Nat) (c : Cursor) : Cursor := { c with claimed := c.claimed - n }

/-- Read `n` bytes at once. -/
def take (n : Nat) : Decoder Bytes := fun c =>
  match c.rest.cut n with
  | .ok (front, rest) => .ok (front, { c with rest := rest })
  | .error missing => .error (.unexpectedEnd missing)

/-- Read one byte. -/
def byte : Decoder UInt8 := fun c =>
  match c.rest with
  | b :: rest => .ok (b, { c with rest := rest })
  | [] => .error (.unexpectedEnd 1)

/-- Read `width` bytes as a number, the least significant first. -/
def littleEndian (width : Nat) : Decoder Nat := fun c =>
  match take width c with
  | .ok (bytes, c) => .ok (Varint.ofLittleEndian bytes, c)
  | .error e => .error e

/-- Read a 32-bit number. Wider markers are named in the error, their payload is not read. -/
def u32 : Decoder Nat := fun c => do
  let c ← c.claim 4
  let (marker, c) ← byte c
  if marker ≤ 250 then .ok (marker.toNat, c)
  else if marker = 251 then littleEndian 2 c
  else if marker = 252 then littleEndian 4 c
  else if marker = 253 then .error (.invalidIntegerType .u32 .u64)
  else if marker = 254 then .error (.invalidIntegerType .u32 .u128)
  else .error (.invalidIntegerType .u32 .reserved)

/-- The type named as expected where a 64-bit number was wanted: with at least nine bytes left,
marker included, the number is read by a short way that names the narrower type. -/
def expected64 (atMarker : Bytes) : IntegerType :=
  if (atMarker.drop 8).isEmpty then .u64 else .u32

/-- Read a 64-bit number. -/
def u64 : Decoder Nat := fun c => do
  let c ← c.claim 8
  let atMarker := c.rest
  let (marker, c) ← byte c
  if marker ≤ 250 then .ok (marker.toNat, c)
  else if marker = 251 then littleEndian 2 c
  else if marker = 252 then littleEndian 4 c
  else if marker = 253 then littleEndian 8 c
  else if marker = 254 then .error (.invalidIntegerType (expected64 atMarker) .u128)
  else .error (.invalidIntegerType (expected64 atMarker) .reserved)

/-- Read a length and that many bytes. -/
def bytes : Decoder Bytes := fun c => do
  let (n, c) ← u64 c
  let c ← c.claim n
  take n c

/-- What a list of byte strings claims for each of its items. -/
def itemClaim : Nat := 24

/-- Read `n` byte strings; `acc` holds the ones before, the latest first. -/
def items : (n : Nat) → (acc : List Bytes) → Decoder (List Bytes)
  | 0, acc, c => .ok (acc.reverse, c)
  | n + 1, acc, c =>
    match bytes (c.release itemClaim) with
    | .error e => .error e
    | .ok (item, c) => items n (item :: acc) c

/-- Read a length and that many byte strings. Room for all of them is claimed at once and given back
one by one. -/
def bytesList : Decoder (List Bytes) := fun c => do
  let (n, c) ← u64 c
  let c ← c.claim (itemClaim * n)
  items n [] c

/-- Read a text. -/
def text : Decoder String := fun c => do
  let (raw, c) ← bytes c
  match Text.Utf8.decode raw with
  | .ok s => .ok (s, c)
  | .error e => .error (.utf8 e)

/-- How a diagnostic calls an optional text. -/
def optionalTextName : String := "core::option::Option<alloc::string::String>"

/-- Read an optional text: a byte 0 or 1, and the text after a 1. -/
def optionalText : Decoder (Option String) := fun c => do
  let c ← c.claim 1
  let (tag, c) ← byte c
  if tag = 0 then .ok (none, c)
  else if tag = 1 then
    let (s, c) ← text c
    .ok (some s, c)
  else .error (.unexpectedVariant optionalTextName 1 tag.toNat)

end Cursor

/-- The bytes of a length and then of a byte string. -/
def encodeBytes (b : Bytes) : Bytes := Varint.encode b.length ++ b

/-- The bytes of a length and then of each byte string. -/
def encodeBytesList (items : List Bytes) : Bytes :=
  Varint.encode items.length ++ items.flatMap encodeBytes

def encodeText (s : String) : Bytes := encodeBytes (Text.Utf8.encode s)

def encodeOptionalText : Option String → Bytes
  | none => [0]
  | some s => 1 :: encodeText s

end ChunkRouter.Wire
