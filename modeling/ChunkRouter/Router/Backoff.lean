/-!
# Backoff

How long a router waits after a failed accept: a first delay that doubles up to a last one. Delays
are counted in nanoseconds.
-/

namespace ChunkRouter.Router

structure Backoff where
  initialDelay : Nat
  maxDelay : Nat
  deriving DecidableEq, Repr

namespace Backoff

/-- A millisecond, the shortest delay. -/
def shortest : Nat := 1000000

def standard : Backoff := ⟨10 * shortest, 1000 * shortest⟩

/-- The same delays, none of them too short and the smaller one first. -/
def normalized (b : Backoff) : Backoff :=
  let first := max b.initialDelay shortest
  let last := max b.maxDelay shortest
  ⟨min first last, max first last⟩

theorem normalized_normalized (b : Backoff) : b.normalized.normalized = b.normalized := by
  simp only [normalized, Backoff.mk.injEq]
  omega

end Backoff

end ChunkRouter.Router
