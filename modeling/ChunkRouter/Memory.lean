import ChunkRouter.Panic

/-!
# Memory

A buffer has less than `2 ^ 63` bytes, and sizes are words of 64 bits. Asking for more is a panic. The
structures of this library do not look at these bounds: whoever makes one of them, or lets it grow,
asks for the memory first, and an answer other than `ok` leaves everything as it was.
-/

namespace ChunkRouter.Memory

/-- The most bytes that a buffer may have. -/
def bufferLimit : Nat := 0x7fffffffffffffff

/-- The largest size. -/
def sizeLimit : Nat := 0xffffffffffffffff

/-- Ask for a buffer of `count` cells of `cell` bytes. -/
def reserve (cell count : Nat) : Except Panic Unit :=
  if cell * count ≤ bufferLimit then .ok () else .error .capacityOverflow

/-- Ask for a buffer of `more` cells beyond `count`. -/
def extend (cell count more : Nat) : Except Panic Unit :=
  if count + more ≤ sizeLimit then reserve cell (count + more) else .error .sumOverflow

theorem reserve_eq_ok_iff {cell count : Nat} :
    reserve cell count = .ok () ↔ cell * count ≤ bufferLimit := by
  unfold reserve; split <;> simp [*]

/-- More cells are granted where their number is a size and they fit in a buffer. -/
theorem extend_eq_ok_iff {cell count more : Nat} :
    extend cell count more = .ok () ↔
      count + more ≤ sizeLimit ∧ cell * (count + more) ≤ bufferLimit := by
  unfold extend
  split
  · rw [reserve_eq_ok_iff]
    exact ⟨fun h => ⟨by assumption, h⟩, fun h => h.2⟩
  · exact ⟨nofun, fun h => absurd h.1 (by assumption)⟩

/-- There are no more cells in a buffer than bytes, none of the cells being empty. -/
theorem le_of_mul_le {cell n : Nat} (hcell : 0 < cell) (h : cell * n ≤ bufferLimit) : n ≤ bufferLimit :=
  Nat.le_trans (Nat.le_mul_of_pos_left n hcell) h

/-- A larger buffer is refused if a smaller one is. -/
theorem reserve_mono {cell n m : Nat} (h : n ≤ m) (hm : reserve cell m = .ok ()) :
    reserve cell n = .ok () :=
  reserve_eq_ok_iff.2 (Nat.le_trans (Nat.mul_le_mul_left cell h) (reserve_eq_ok_iff.1 hm))

end ChunkRouter.Memory
