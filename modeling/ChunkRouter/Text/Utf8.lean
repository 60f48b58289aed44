import ChunkRouter.Bytes

/-!
# UTF-8

Text as bytes and back. Decoding names the first place where bytes stop being text: how many bytes
before it are well formed, and how many bytes form the longest start of a character there, or that
the bytes end inside a character that was well formed so far.
-/

namespace ChunkRouter.Text

/-- Where bytes stop being text. `errorLen` is absent if they end inside a character. -/
structure Utf8Error where
  validUpTo : Nat
  errorLen : Option Nat
  deriving DecidableEq, Repr

namespace Utf8

/-- The bytes of a text. -/
def encode (s : String) : Bytes := s.toList.flatMap String.utf8EncodeChar

/-- Bytes that go on with a character. -/
def isContinuation (b : UInt8) : Bool := 0x80 ≤ b && b ≤ 0xBF

/-- The second bytes that may follow the first byte of a character of three bytes. -/
def second3 (b c : UInt8) : Bool :=
  if b = 0xE0 then 0xA0 ≤ c && c ≤ 0xBF
  else if b = 0xED then 0x80 ≤ c && c ≤ 0x9F
  else isContinuation c

/-- The second bytes that may follow the first byte of a character of four bytes. -/
def second4 (b c : UInt8) : Bool :=
  if b = 0xF0 then 0x90 ≤ c && c ≤ 0xBF
  else if b = 0xF4 then 0x80 ≤ c && c ≤ 0x8F
  else isContinuation c

/-- The six low bits, which a continuation byte carries. -/
def low6 (b : UInt8) : Nat := b.toNat % 64

/-- The character that starts with `b` and its width, or the length of the faulty start. -/
def next (b : UInt8) (rest : Bytes) : Except (Option Nat) (Char × Nat × Bytes) :=
  if b < 0x80 then .ok (Char.ofNat b.toNat, 1, rest)
  else if b < 0xC2 then .error (some 1)
  else if b < 0xE0 then
    match rest with
    | [] => .error none
    | c :: rest =>
      if isContinuation c then .ok (Char.ofNat (b.toNat % 32 * 64 + low6 c), 2, rest)
      else .error (some 1)
  else if b < 0xF0 then
    match rest with
    | [] => .error none
    | c :: rest =>
      if second3 b c then
        match rest with
        | [] => .error none
        | d :: rest =>
          if isContinuation d then
            .ok (Char.ofNat (b.toNat % 16 * 4096 + low6 c * 64 + low6 d), 3, rest)
          else .error (some 2)
      else .error (some 1)
  else if b < 0xF5 then
    match rest with
    | [] => .error none
    | c :: rest =>
      if second4 b c then
        match rest with
        | [] => .error none
        | d :: rest =>
          if isContinuation d then
            match rest with
            | [] => .error none
            | e :: rest =>
              if isContinuation e then
                .ok (Char.ofNat (b.toNat % 8 * 262144 + low6 c * 4096 + low6 d * 64 + low6 e), 4,
                  rest)
              else .error (some 3)
          else .error (some 2)
      else .error (some 1)
  else .error (some 1)

theorem length_next_le {b : UInt8} {bytes rest : Bytes} {c : Char} {n : Nat}
    (h : next b bytes = .ok (c, n, rest)) : rest.length ≤ bytes.length := by
  unfold next at h
  repeat' split at h
  all_goals cases h
  all_goals grind

/-- Decode `bytes` after `read` bytes that gave the characters `acc`, the latest first. -/
def decodeFrom (read : Nat) (acc : List Char) (bytes : Bytes) : Except Utf8Error (List Char) :=
  match bytes with
  | [] => .ok acc.reverse
  | b :: rest =>
    match _h : next b rest with
    | .error len => .error ⟨read, len⟩
    | .ok (c, n, rest') => decodeFrom (read + n) (c :: acc) rest'
termination_by bytes.length
decreasing_by exact Nat.lt_succ_of_le (length_next_le _h)

/-- The text that `bytes` spell. -/
def decode (bytes : Bytes) : Except Utf8Error String := (decodeFrom 0 [] bytes).map String.ofList

end Utf8

end ChunkRouter.Text
