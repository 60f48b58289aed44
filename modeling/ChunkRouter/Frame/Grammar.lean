import ChunkRouter.Frame.Error
import ChunkRouter.Frame.Header

/-!
# The chunk grammar

What a wire is, apart from any way of reading it: chunks one after another, each a length prefix and
a body. `wire` writes chunks down, `parse` cuts a wire apart at once. `parse_frame_append` says that
parsing undoes writing, one chunk at a time.
-/

namespace ChunkRouter.Frame.Grammar

/-- One chunk as it appears on the wire. -/
def frame (body : Bytes) : Bytes := Header.encode body.length ++ body

/-- Chunks as they appear on the wire. -/
def wire (bodies : List Bytes) : Bytes := bodies.flatMap frame

/-- What a wire ends with. -/
inductive Tail where
  /-- Nothing: the wire ends on a chunk boundary, or with a part of a length prefix. -/
  | header (received : Bytes)
  /-- A part of a body whose length was announced. -/
  | body (length : Nat) (received : Bytes)
  /-- A length prefix no chunk may have, and what follows it. -/
  | bad (error : FramingError) (rest : Bytes)
  deriving DecidableEq, Repr

/-- The chunks before the first bad length prefix, and what remains. -/
structure Parse where
  bodies : List Bytes
  tail : Tail
  deriving DecidableEq, Repr

/-- The error of a length prefix announcing `n` bytes, under a limit of `max`. -/
def lengthError? (max n : Nat) : Option FramingError :=
  if n = 0 then some .empty else if max < n then some (.oversized n max) else none

/-- Cut a wire into chunks of at most `max` bytes. -/
def parse (max : Nat) (w : Bytes) : Parse :=
  if _short : w.length < 4 then ⟨[], .header w⟩
  else
    let n := Header.decode (w.take 4)
    let rest := w.drop 4
    match lengthError? max n with
    | some e => ⟨[], .bad e rest⟩
    | none =>
      if rest.length < n then ⟨[], .body n rest⟩
      else
        let later := parse max (rest.drop n)
        ⟨rest.take n :: later.bodies, later.tail⟩
termination_by w.length
decreasing_by simp only [List.length_drop]; omega

theorem wire_append (as bs : List Bytes) : wire (as ++ bs) = wire as ++ wire bs := by
  simp [wire]

/-- Parsing undoes writing a chunk of admissible length. -/
theorem parse_frame_append {max : Nat} {body : Bytes} (rest : Bytes) (hpos : body ≠ [])
    (hmax : body.length ≤ max) (h32 : body.length < 4294967296) :
    parse max (frame body ++ rest) =
      ⟨body :: (parse max rest).bodies, (parse max rest).tail⟩ := by
  have hlen : body.length ≠ 0 := fun h => hpos (List.length_eq_zero_iff.1 h)
  have hsplit : frame body ++ rest = Header.encode body.length ++ (body ++ rest) := by simp [frame]
  have htake : (frame body ++ rest).take 4 = Header.encode body.length := by
    rw [hsplit]; exact List.take_left' rfl
  have hdrop : (frame body ++ rest).drop 4 = body ++ rest := by
    rw [hsplit]; exact List.drop_left' rfl
  rw [parse]
  have hnot : ¬ (frame body ++ rest).length < 4 := by simp [frame]
  simp only [hnot, dite_false, htake, hdrop, Header.decode_encode h32]
  have hok : lengthError? max body.length = none := by
    simp [lengthError?, hlen]; omega
  simp [hok]

end ChunkRouter.Frame.Grammar
