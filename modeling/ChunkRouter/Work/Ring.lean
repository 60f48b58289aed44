import ChunkRouter.Panic

/-!
# Rings

A growing circular buffer: `len` slots from `first` on, modulo the capacity. `toList` reads them in
order. A full ring grows by a bucket on the next push and never shrinks until it is released.

`retain` moves the kept items together in place. If the predicate gives up half-way, the item it gave
up on is lost, the slots the kept items were moved out of stay empty, and the length is not
corrected; popping such a slot yields nothing.
-/

namespace ChunkRouter.Work

structure Ring (α : Type) where
  slots : Array (Option α)
  first : Nat
  len : Nat
  bucket : Nat
  deriving Repr

namespace Ring

variable {α : Type}

def new (capacity bucket : Nat) : Ring α := ⟨Array.replicate capacity none, 0, 0, max bucket 1⟩

def capacity (r : Ring α) : Nat := r.slots.size

def isEmpty (r : Ring α) : Bool := r.len == 0

/-- The slot that is `i` behind the first. -/
def index (r : Ring α) (i : Nat) : Nat := (r.first + i) % r.capacity

/-- The item that is `i` behind the first. -/
def get? (r : Ring α) (i : Nat) : Option α := (r.slots[r.index i]?).join

/-- The items in order. -/
def toList (r : Ring α) : List α := (List.range r.len).filterMap r.get?

/-- Add a bucket of slots, the occupied ones moved to the front. -/
def grow (r : Ring α) : Ring α :=
  let occupied := (r.slots.extract r.first r.capacity ++ r.slots.extract 0 r.first).extract 0 r.len
  { r with
    slots := occupied ++ Array.replicate (r.capacity + r.bucket - occupied.size) none
    first := 0 }

def put (r : Ring α) (x : α) : Ring α :=
  let i := r.index r.len
  { r with slots := r.slots.setIfInBounds i (some x), len := r.len + 1 }

/-- Append an item. -/
def push (r : Ring α) (x : α) : Ring α := (if r.len = r.capacity then r.grow else r).put x

/-- Remove the first slot, with what it holds. -/
def pop (r : Ring α) : Ring α × Option α :=
  if r.len = 0 then (r, none)
  else
    let held := r.slots[r.first]?.join
    let next := (r.first + 1) % r.capacity
    ({ r with
        slots := r.slots.setIfInBounds r.first none
        first := next
        len := r.len - 1 },
      held)

/-- Remove up to `n` items, stopping at a slot that holds nothing; `acc` holds the ones before, the
latest first. -/
def popLoop : Nat → Ring α → List α → Ring α × List α
  | 0, r, acc => (r, acc.reverse)
  | n + 1, r, acc =>
    match r.pop with
    | (r, none) => (r, acc.reverse)
    | (r, some x) => popLoop n r (x :: acc)

/-- Remove up to `n` items from the front. -/
def popMany (r : Ring α) (n : Nat) : Ring α × List α := popLoop n r []

/-- Move the items `keep` accepts to the front, from the slot `step` behind the first on; `kept` were
moved already. -/
def retainLoop (keep : α → Except Panic Bool) :
    (todo step kept : Nat) → Ring α → Ring α × Except Panic Nat
  | 0, _, kept, r => (r, .ok kept)
  | todo + 1, step, kept, r =>
    let i := r.index step
    match r.slots[i]?.join with
    | none => retainLoop keep todo (step + 1) kept r
    | some x =>
      let target := r.index kept
      let taken := { r with slots := r.slots.setIfInBounds i none }
      match keep x with
      | .error panic => (taken, .error panic)
      | .ok false => retainLoop keep todo (step + 1) kept taken
      | .ok true =>
        retainLoop keep todo (step + 1) (kept + 1)
          { taken with slots := taken.slots.setIfInBounds target (some x) }

/-- Drop the items `keep` refuses and tell how many slots that freed. -/
def retain (r : Ring α) (keep : α → Except Panic Bool) : Ring α × Except Panic Nat :=
  if r.len ≠ 0 ∧ r.capacity = 0 then (r, .error .remainderByZero)
  else
    match retainLoop keep r.len 0 0 r with
    | (r', .error panic) => (r', .error panic)
    | (r', .ok kept) => ({ r' with len := kept }, .ok (r.len - kept))

/-- Give all items away, and the slots with them. -/
def release (r : Ring α) : Ring α × List α :=
  match r.popMany r.len with
  | (r', items) => ({ r' with slots := #[], first := 0 }, items)

end Ring

end ChunkRouter.Work
