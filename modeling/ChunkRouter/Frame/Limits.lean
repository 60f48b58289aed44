/-!
# Framing limits

The largest chunk body a codec accepts and the size of the fragments it emits. Values out of range
are clamped on construction, so every `Limits` is usable.
-/

namespace ChunkRouter.Frame

/-- Bytes in a length prefix. -/
def prefixSize : Nat := 4

/-- The largest body a length prefix can announce. -/
def maxBodyLen : Nat := 4294967295

/-- Fragments are never smaller than this. -/
def minFragmentSize : Nat := 16

def defaultMaxChunkLen : Nat := 16777216

def defaultFragmentSize : Nat := 8192

structure Limits where
  maxChunkLen : Nat
  fragmentSize : Nat
  one_le_maxChunkLen : 1 ≤ maxChunkLen
  maxChunkLen_le : maxChunkLen ≤ maxBodyLen
  minFragmentSize_le : minFragmentSize ≤ fragmentSize
  deriving DecidableEq, Repr

namespace Limits

/-- The nearest admissible limits. -/
def clamp (maxChunkLen fragmentSize : Nat) : Limits where
  maxChunkLen := min (max maxChunkLen 1) maxBodyLen
  fragmentSize := max fragmentSize minFragmentSize
  one_le_maxChunkLen := by unfold maxBodyLen; omega
  maxChunkLen_le := Nat.min_le_right _ _
  minFragmentSize_le := Nat.le_max_right _ _

def standard : Limits := clamp defaultMaxChunkLen defaultFragmentSize

def withMaxChunkLen (l : Limits) (n : Nat) : Limits := clamp n l.fragmentSize

def withFragmentSize (l : Limits) (n : Nat) : Limits := clamp l.maxChunkLen n

theorem fragmentSize_pos (l : Limits) : 0 < l.fragmentSize :=
  Nat.lt_of_lt_of_le (by decide) l.minFragmentSize_le

end Limits

end ChunkRouter.Frame
