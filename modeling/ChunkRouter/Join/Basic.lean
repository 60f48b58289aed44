import ChunkRouter.Join.Aggregate

/-!
# Joins

A join waits for a number of completions and for its gate to be opened, and then fires once, with
the outcome of the completions so far. Count and gate share one word of 64 bits: bit 0 is set while
the gate is shut, the other bits are the count. So counts are taken modulo `2 ^ 63`.
-/

namespace ChunkRouter

/-- A completion came when none was outstanding. -/
inductive JoinError where
  | overrun
  deriving DecidableEq, Repr

def JoinError.message : JoinError → String
  | .overrun => "completion reported with no outstanding callbacks"

structure Join (ρ ε : Type) where
  word : UInt64
  outcome : Join.Outcome ρ ε
  /-- The join has not fired. -/
  armed : Bool
  deriving DecidableEq, Repr

namespace Join

variable {ρ ε : Type}

/-- The gate bit. -/
def gate : UInt64 := 1

/-- What one outstanding completion adds to the word. -/
def member : UInt64 := 2

/-- A join that waits for nothing, its gate shut. -/
def new : Join ρ ε := ⟨gate, .initial, true⟩

/-- Completions outstanding. -/
def remaining (j : Join ρ ε) : UInt64 := j.word >>> 1

def isBlocked (j : Join ρ ε) : Bool := j.word &&& gate != 0

def hasFired (j : Join ρ ε) : Bool := !j.armed

/-- Fire if nothing is outstanding, the gate is open and the join has not fired before. The outcome
is handed over and a fresh one begun. -/
def settle (j : Join ρ ε) : Join ρ ε × Option (Outcome ρ ε) :=
  if j.word = 0 ∧ j.armed then ({ j with outcome := .initial, armed := false }, some j.outcome)
  else (j, none)

/-- Set the number of outstanding completions. -/
def setCount (j : Join ρ ε) (n : UInt64) : Join ρ ε × Option (Outcome ρ ε) :=
  settle { j with word := (n <<< 1) ||| (j.word &&& gate) }

/-- One more completion is outstanding. -/
def register (j : Join ρ ε) : Join ρ ε := { j with word := j.word + member }

/-- Shut the gate. -/
def block (j : Join ρ ε) : Join ρ ε := { j with word := j.word ||| gate }

/-- Open the gate. -/
def unblock (j : Join ρ ε) : Join ρ ε × Option (Outcome ρ ε) :=
  settle { j with word := j.word &&& ~~~gate }

/-- Fold a completion in. -/
def complete (aggregate : Aggregator ρ ε) (j : Join ρ ε) (completion : Except ε ρ) :
    Join ρ ε × Except JoinError (Option (Outcome ρ ε)) :=
  if j.remaining = 0 then (j, .error .overrun)
  else
    match settle { j with
      word := j.word - member
      outcome := aggregate j.outcome completion (j.remaining == 1) } with
    | (j, fired) => (j, .ok fired)

/-- A completion was counted, but folding it was given up with `outcome`. The join does not fire. -/
def abandon (j : Join ρ ε) (outcome : Outcome ρ ε) : Join ρ ε :=
  { j with word := j.word - member, outcome := outcome }

/-- A join as it is shown to people. -/
def describe (j : Join ρ ε) : String :=
  "CallbackJoin \x7b remaining: " ++ toString j.remaining ++ ", blocked: " ++
    toString j.isBlocked ++ ", fired: " ++ toString j.hasFired ++ ", .. \x7d"

end Join

end ChunkRouter
