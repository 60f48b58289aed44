import ChunkRouter.Bytes

/-!
# Length prefixes

A chunk is announced by its length in four bytes, the most significant first.
`decode_encode` says that every 32-bit length is read back.
-/

namespace ChunkRouter.Frame.Header

/-- The four bytes announcing `n`. -/
def encode (n : Nat) : Bytes :=
  [(n / 16777216).toUInt8, (n / 65536).toUInt8, (n / 256).toUInt8, n.toUInt8]

/-- The number whose digits to base 256 are `bytes`. -/
def decode (bytes : Bytes) : Nat := bytes.foldl (fun n b => n * 256 + b.toNat) 0

@[simp] theorem length_encode (n : Nat) : (encode n).length = 4 := rfl

theorem decode_encode {n : Nat} (h : n < 4294967296) : decode (encode n) = n := by
  simp [decode, encode]
  omega

end ChunkRouter.Frame.Header
