import ChunkRouter.Bytes

/-!
# Variable-length integers

A number up to 250 is one byte. A larger one is a marker byte, 251, 252 or 253, and then two, four
or eight bytes, the least significant first. Encoding picks the shortest of these forms.

These are the integers of the message format, bincode in its standard configuration, as its documentation
has them.
-/

namespace ChunkRouter.Wire.Varint

/-- `n` in `width` bytes, the least significant first. -/
def littleEndian : (width : Nat) → (n : Nat) → Bytes
  | 0, _ => []
  | width + 1, n => n.toUInt8 :: littleEndian width (n / 256)

/-- The number that `bytes` spell, the least significant byte first. -/
def ofLittleEndian : Bytes → Nat
  | [] => 0
  | b :: bytes => b.toNat + 256 * ofLittleEndian bytes

/-- The shortest form of `n`. -/
def encode (n : Nat) : Bytes :=
  if n ≤ 250 then [n.toUInt8]
  else if n < 65536 then 251 :: littleEndian 2 n
  else if n < 4294967296 then 252 :: littleEndian 4 n
  else 253 :: littleEndian 8 n

@[simp] theorem length_littleEndian (width n : Nat) : (littleEndian width n).length = width := by
  induction width generalizing n with
  | zero => rfl
  | succ width ih => simp [littleEndian, ih]

theorem ofLittleEndian_littleEndian {width n : Nat} (h : n < 1 <<< (8 * width)) :
    ofLittleEndian (littleEndian width n) = n := by
  induction width generalizing n with
  | zero =>
    have hn : n = 0 := Nat.lt_one_iff.1 h
    rw [hn, littleEndian, ofLittleEndian]
  | succ width ih =>
    have hdiv : n / 256 < 1 <<< (8 * width) := by
      rw [Nat.mul_succ, Nat.shiftLeft_add] at h
      rw [Nat.div_lt_iff_lt_mul (by decide)]
      exact Nat.shiftLeft_eq (1 <<< (8 * width)) 8 ▸ h
    simp only [littleEndian, ofLittleEndian, ih hdiv]
    have : n.toUInt8.toNat = n % 256 := by simp
    omega

theorem encode_ne_nil (n : Nat) : encode n ≠ [] := by
  unfold encode; repeat' split
  all_goals simp

end ChunkRouter.Wire.Varint
