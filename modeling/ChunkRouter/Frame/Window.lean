import ChunkRouter.Bytes

/-!
# Windows

A buffer that is filled from the front. `filled` holds the bytes received so far, the latest first;
`room` shows what the rest of the buffer still contains: bytes that were left there, then zeros, which
are counted and not kept. Filling overwrites the front of the room, advancing moves bytes from the
room to `filled`, and `pour` does both at once.
-/

namespace ChunkRouter.Frame

structure Window where
  filled : Bytes
  /-- What was left in the front of the room. -/
  stale : Bytes
  /-- The number of zeros behind it. -/
  blank : Nat
  deriving DecidableEq, Repr

namespace Window

/-- An unfilled window over `n` zero bytes. -/
def zeros (n : Nat) : Window := ⟨[], [], n⟩

/-- What the part that is yet to be filled contains. -/
def room (w : Window) : Bytes := w.stale ++ Bytes.zeros w.blank

/-- How many bytes are yet to be filled. -/
def space (w : Window) : Nat := w.stale.length + w.blank

def isFull (w : Window) : Bool := w.stale.isEmpty && w.blank == 0

/-- All bytes of the buffer in order, received or not. -/
def contents (w : Window) : Bytes := w.filled.reverse ++ w.room

/-- How many bytes the buffer has. -/
def size (w : Window) : Nat := w.filled.length + w.space

/-- The same bytes with nothing counted as received. -/
def rewind (w : Window) : Window := ⟨[], w.filled.reverse ++ w.stale, w.blank⟩

/-- Overwrite the front of the room without counting it as received. -/
def fill (bytes : Bytes) (w : Window) : Window :=
  { w with
    stale := bytes.take w.space ++ w.stale.drop bytes.length
    blank := w.blank - (bytes.length - w.stale.length) }

/-- Count the next `n` bytes of the room as received, if it has that many. -/
def advance? (n : Nat) (w : Window) : Option Window :=
  if n ≤ w.space then
    some {
      filled := Bytes.zeros (n - w.stale.length) ++ ((w.stale.take n).reverse ++ w.filled)
      stale := w.stale.drop n
      blank := w.blank - (n - w.stale.length) }
  else none

/-- Receive one byte, if there is room. -/
def push? (byte : UInt8) : Window → Option Window
  | ⟨filled, _ :: stale, blank⟩ => some ⟨byte :: filled, stale, blank⟩
  | ⟨filled, [], blank + 1⟩ => some ⟨byte :: filled, [], blank⟩
  | ⟨_, [], 0⟩ => none

/-- Receive at most `n` of `bytes`, as far as there is room; the rest of `bytes` comes back. -/
def pour : Nat → Bytes → Window → Window × Bytes
  | n + 1, b :: bytes, w =>
    match w.push? b with
    | some w => pour n bytes w
    | none => (w, b :: bytes)
  | _, bytes, w => (w, bytes)

theorem length_pour_le (n : Nat) (bytes : Bytes) (w : Window) :
    (pour n bytes w).2.length ≤ bytes.length := by
  fun_induction pour n bytes w with
  | case1 n b bytes w w' h ih => simp only [List.length_cons]; omega
  | case2 => exact Nat.le_refl _
  | case3 => exact Nat.le_refl _

@[simp] theorem length_room (w : Window) : w.room.length = w.space := by simp [room, space]

@[simp] theorem contents_zeros (n : Nat) : (zeros n).contents = Bytes.zeros n := rfl

@[simp] theorem contents_rewind (w : Window) : w.rewind.contents = w.contents := by
  simp [contents, rewind, room]

@[simp] theorem length_contents (w : Window) : w.contents.length = w.size := by
  simp [contents, size]

theorem isFull_iff (w : Window) : w.isFull = true ↔ w.space = 0 := by
  simp [isFull, space]

/-- Filling lays the bytes over the front of the room. -/
theorem room_fill (bytes : Bytes) (w : Window) : (w.fill bytes).room = bytes.overlay w.room := by
  simp only [fill, room, Bytes.overlay, Bytes.zeros, List.append_assoc, List.length_append,
    List.length_replicate, List.length_take, space, List.drop_append, List.drop_replicate]
  congr 1
  have hdrop : w.stale.drop (min (w.stale.length + w.blank) bytes.length) =
      w.stale.drop bytes.length := by
    by_cases h : bytes.length ≤ w.stale.length + w.blank
    · rw [Nat.min_eq_right h]
    · rw [List.drop_eq_nil_of_le (by omega), List.drop_eq_nil_of_le (by omega)]
  rw [hdrop]
  congr 2
  omega

theorem advance?_eq_none_iff {n : Nat} {w : Window} : w.advance? n = none ↔ w.space < n := by
  simp [advance?]

/-- Advancing takes the front off the room. -/
theorem room_advance? {n : Nat} {w v : Window} (h : w.advance? n = some v) :
    v.room = w.room.drop n := by
  unfold advance? at h
  split at h
  · cases h
    simp [room, Bytes.zeros, List.drop_append, List.drop_replicate]
  · cases h

/-- Advancing counts the front of the room as received. -/
theorem filled_advance? {n : Nat} {w v : Window} (h : w.advance? n = some v) :
    v.filled = (w.room.take n).reverse ++ w.filled := by
  unfold advance? at h
  split at h
  · rename_i hn
    cases h
    have hmin : min (n - w.stale.length) w.blank = n - w.stale.length := by
      simp only [space] at hn; omega
    simp [room, Bytes.zeros, List.take_append, List.take_replicate, hmin]
  · cases h

end Window

end ChunkRouter.Frame
