/-!
# Byte strings

Bodies, wires and buffers are lists of bytes.
-/

namespace ChunkRouter

abbrev Bytes := List UInt8

namespace Bytes

/-- `n` bytes, all zero. -/
def zeros (n : Nat) : Bytes := List.replicate n 0

/-- `bytes` laid over the front of `room`, as far as `room` reaches. -/
def overlay (bytes room : Bytes) : Bytes :=
  let shown := bytes.take room.length
  shown ++ room.drop shown.length

/-- The first `n` bytes and the rest, or how many are missing. -/
def cut (n : Nat) (bytes : Bytes) : Except Nat (Bytes × Bytes) :=
  let front := bytes.take n
  if front.length = n then .ok (front, bytes.drop n) else .error (n - front.length)

@[simp] theorem length_zeros (n : Nat) : (zeros n).length = n := List.length_replicate

@[simp] theorem length_overlay (bytes room : Bytes) : (overlay bytes room).length = room.length := by
  simp only [overlay, List.length_append, List.length_take, List.length_drop]
  omega

theorem cut_append (front rest : Bytes) : cut front.length (front ++ rest) = .ok (front, rest) := by
  simp [cut]

theorem cut_eq_ok_iff {n : Nat} {bytes front rest : Bytes} :
    cut n bytes = .ok (front, rest) ↔ bytes = front ++ rest ∧ front.length = n := by
  constructor
  · intro h
    unfold cut at h
    dsimp only at h
    split at h
    · rename_i hn
      cases h
      exact ⟨(List.take_append_drop n bytes).symm, hn⟩
    · cases h
  · rintro ⟨rfl, rfl⟩
    exact cut_append front rest

theorem cut_eq_error_iff {n k : Nat} {bytes : Bytes} :
    cut n bytes = .error k ↔ bytes.length < n ∧ k = n - bytes.length := by
  unfold cut
  dsimp only
  rw [List.length_take]
  split
  · constructor
    · intro h; cases h
    · intro h; omega
  · constructor
    · intro h; cases h; omega
    · rintro ⟨h, rfl⟩; congr 1; omega

end Bytes

end ChunkRouter
