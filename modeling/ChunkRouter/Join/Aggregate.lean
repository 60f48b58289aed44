import ChunkRouter.Panic

/-!
# Aggregates

How completions are folded into one outcome. An aggregator here is total; where folding is given up
half-way, a `Fault` beside it says so.
-/

namespace ChunkRouter.Join

/-- What a set of completions came to. -/
structure Outcome (ρ ε : Type) where
  success : Bool
  result : Option ρ
  error : Option ε
  deriving DecidableEq, Repr

namespace Outcome

variable {ρ ε : Type}

/-- The outcome of no completions. -/
def initial : Outcome ρ ε := ⟨true, none, none⟩

/-- The error if there is one, else the result. -/
def toExcept (o : Outcome ρ ε) : Except ε (Option ρ) :=
  match o.error with
  | some e => .error e
  | none => .ok o.result

end Outcome

/-- Folds a completion into an outcome; the flag marks the last one outstanding. -/
abbrev Aggregator (ρ ε : Type) := Outcome ρ ε → Except ε ρ → Bool → Outcome ρ ε

/-- Where folding a completion panics, and what the outcome is then. -/
abbrev Fault (ρ ε : Type) := Outcome ρ ε → Except ε ρ → Option (Outcome ρ ε × Panic)

/-- Folding never panics. -/
def noFault {ρ ε : Type} : Fault ρ ε := fun _ _ => none

/-- Keeps the first result and the first error. -/
def firstError {ρ ε : Type} : Aggregator ρ ε := fun o completion _ =>
  match completion with
  | .ok r => { o with result := some (o.result.getD r) }
  | .error e => { o with success := false, error := some (o.error.getD e) }

/-- Counts of batch items by result. -/
structure Tally where
  accepted : UInt32
  rejected : UInt32
  deriving DecidableEq, Repr

def Tally.zero : Tally := ⟨0, 0⟩

/-- Sums tallies up, counts a failure as one rejection and keeps the first one. -/
def tally : Aggregator Tally String := fun o completion _ =>
  let sum := o.result.getD .zero
  match completion with
  | .ok t => { o with result := some ⟨sum.accepted + t.accepted, sum.rejected + t.rejected⟩ }
  | .error e =>
    { success := false
      result := some { sum with rejected := sum.rejected + 1 }
      error := some (o.error.getD e) }

/-- A sum of tallies that leaves the range of 32 bits is given up. What was accepted is summed before
what was rejected. -/
def tallyFault : Fault Tally String := fun o completion =>
  let sum := o.result.getD .zero
  let left (t : Tally) := some ({ o with result := some t }, Panic.sumOverflow)
  match completion with
  | .ok t =>
    if UInt32.size ≤ sum.accepted.toNat + t.accepted.toNat then left sum
    else if UInt32.size ≤ sum.rejected.toNat + t.rejected.toNat then
      left { sum with accepted := sum.accepted + t.accepted }
    else none
  | .error _ => if UInt32.size ≤ sum.rejected.toNat + 1 then left sum else none

/-- Writes every completion down in order: a plus sign and the result, or a minus sign and the
error, and an exclamation mark behind the last one outstanding. -/
def trail : Aggregator String String := fun o completion isLast =>
  let entry := match completion with
    | .ok r => "+" ++ r
    | .error e => "-" ++ e
  { o with result := some (o.result.getD "" ++ entry ++ if isLast then "!" else "") }

end ChunkRouter.Join
