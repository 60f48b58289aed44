import ChunkRouter.Lane.Bench
import ChunkRouter.Lane.Pool

/-!
# Executors

Who runs dispatched tasks: whoever dispatches them, at once; someone who takes them off a bench; or a
pool of lanes.
-/

namespace ChunkRouter.Lane

inductive Executor (τ : Type) where
  | inline
  | bench (b : Bench τ)
  | pool (p : Pool τ)
  deriving Repr

namespace Executor

variable {τ : Type}

/-- Dispatch a task; the answer tells whether it is to be run at once. -/
def dispatch (e : Executor τ) (lane : Token) (task : τ) : Executor τ × Bool :=
  match e with
  | .inline => (.inline, true)
  | .bench b => (.bench (b.dispatch lane task), false)
  | .pool p => (.pool (p.dispatch lane task), false)

/-- Tasks that were dispatched and not begun. -/
def parkedCount : Executor τ → Nat
  | .inline => 0
  | .bench b => b.parked.length
  | .pool p => total (p.lanes.map fun l => l.2.tasks.length)

/-- The lanes of the dispatches so far, as far as they are remembered. -/
def dispatched : Executor τ → List Token
  | .bench b => b.dispatched.reverse
  | _ => []

/-- Take the next task off a bench. -/
def next : Executor τ → Option (τ × Executor τ)
  | .bench b => b.next.map fun (t, b) => (t.2, .bench b)
  | _ => none

/-- Take the next task of a lane off a bench. -/
def nextOn (lane : Token) : Executor τ → Option (τ × Executor τ)
  | .bench b => (b.nextOn lane).map fun (t, b) => (t.2, .bench b)
  | _ => none

/-- What tasks add to the counters by panicking. -/
def meter : Executor τ → Meter
  | .pool p => p.meter
  | _ => .empty

end Executor

end ChunkRouter.Lane
