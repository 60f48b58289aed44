import ChunkRouter.Metric

/-!
# Panics as values

A computation that is abandoned half-way answers with a `Panic`. Containing one counts it.
-/

namespace ChunkRouter

/-- The text a computation was abandoned with. -/
structure Panic where
  message : String
  deriving DecidableEq, Repr

/-- What a panic carried: a text, or a value of some other type. -/
inductive Payload where
  | text (s : String)
  | other
  deriving DecidableEq, Repr

namespace Panic

/-- Stands in for a payload that is no text. -/
def unreadablePayload : String := "<non-string panic payload>"

def ofPayload : Payload → Panic
  | .text s => ⟨s⟩
  | .other => ⟨unreadablePayload⟩

/-- A remainder by zero was taken. -/
def remainderByZero : Panic := ⟨"attempt to calculate the remainder with a divisor of zero"⟩

/-- A delivery in steps was asked for with steps of no bytes. -/
def zeroStep : Panic := ⟨"step must be positive"⟩

/-- More bytes were asked for than a buffer may have. -/
def capacityOverflow : Panic := ⟨"capacity overflow"⟩

/-- A sum left the range of its words. -/
def sumOverflow : Panic := ⟨"attempt to add with overflow"⟩

/-- A contained panic is counted once, under the place that contained it. -/
def report (site : PanicSite) (m : Meter) : Meter := m.bump (.taskPanics site)

theorem count_report (site : PanicSite) (m : Meter) :
    (report site m).count (.taskPanics site) = m.count (.taskPanics site) + 1 := by
  simp [report, Meter.count_bump]

end Panic

end ChunkRouter
