import ChunkRouter.Lane.Token

/-!
# Task benches

An executor that runs nothing by itself: dispatched tasks wait on a bench, in order, until someone
takes the next one, of all lanes or of a given one.
-/

namespace ChunkRouter.Lane

structure Bench (τ : Type) where
  /-- The tasks that wait, in the order of their dispatch. -/
  parked : List (Token × τ)
  /-- The lanes of all dispatches, the latest first. -/
  dispatched : List Token
  deriving Repr

namespace Bench

variable {τ : Type}

def empty : Bench τ := ⟨[], []⟩

def dispatch (b : Bench τ) (lane : Token) (task : τ) : Bench τ :=
  ⟨b.parked ++ [(lane, task)], lane :: b.dispatched⟩

/-- Take the task that waits longest. -/
def next (b : Bench τ) : Option ((Token × τ) × Bench τ) :=
  match b.parked with
  | [] => none
  | t :: parked => some (t, { b with parked := parked })

/-- Take the task of `lane` that waits longest. -/
def nextOn (b : Bench τ) (lane : Token) : Option ((Token × τ) × Bench τ) :=
  (b.parked.find? fun t => t.1 = lane).map fun t =>
    (t, { b with parked := b.parked.eraseP fun t => t.1 = lane })

def describe (b : Bench τ) : String :=
  "ManualExecutor \x7b pending: " ++ toString b.parked.length ++ ", .. \x7d"

end Bench

end ChunkRouter.Lane
