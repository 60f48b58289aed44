/-!
# Counters

What the router counts, and the meter that components carry. A meter is the list of its entries;
`Meter.count` adds up one counter, so an operation that records nothing leaves every count alone.
-/

namespace ChunkRouter

/-- The sum of numbers. -/
def total : List Nat → Nat
  | [] => 0
  | n :: ns => n + total ns

@[simp] theorem total_append (ns ms : List Nat) : total (ns ++ ms) = total ns + total ms := by
  induction ns with
  | nil => simp [total]
  | cons n ns ih => simp [total, ih, Nat.add_assoc]

/-- Which way a chunk crossed the stream. -/
inductive Direction where
  | inbound
  | outbound
  deriving DecidableEq, Repr

/-- Why a queue let go of an item without delivering it. -/
inductive DropReason where
  | closed
  | cleared
  | afterClose
  deriving DecidableEq, Repr

/-- Where a panic was contained. -/
inductive PanicSite where
  | lane
  | connection
  deriving DecidableEq, Repr

def Direction.label : Direction → String
  | .inbound => "inbound"
  | .outbound => "outbound"

def Direction.all : List Direction := [.inbound, .outbound]

def DropReason.label : DropReason → String
  | .closed => "closed"
  | .cleared => "cleared"
  | .afterClose => "after_close"

def DropReason.all : List DropReason := [.closed, .cleared, .afterClose]

def PanicSite.label : PanicSite → String
  | .lane => "lane"
  | .connection => "connection"

def PanicSite.all : List PanicSite := [.lane, .connection]

/-- The counters, each with its label where it has one. The first is a gauge. -/
inductive Counter where
  | connectionsActive
  | chunks (direction : Direction)
  | framingErrors
  | itemsEnqueued
  | itemsDropped (reason : DropReason)
  | taskPanics (site : PanicSite)
  deriving DecidableEq, Repr

namespace Counter

def connectionsActiveName : String := "relaycore_connections_active"
def chunksName : String := "relaycore_chunks_processed_total"
def framingErrorsName : String := "relaycore_framing_errors_total"
def itemsEnqueuedName : String := "relaycore_items_enqueued_total"
def itemsDroppedName : String := "relaycore_items_dropped_total"
def taskPanicsName : String := "relaycore_task_panics_total"

/-- Every exported name, the gauge of open connections first. -/
def names : List String :=
  [connectionsActiveName, chunksName, framingErrorsName, itemsEnqueuedName, itemsDroppedName,
    taskPanicsName]

/-- The name under which a counter is exported, its label after a blank. -/
def render : Counter → String
  | .connectionsActive => connectionsActiveName
  | .chunks d => chunksName ++ " direction=" ++ d.label
  | .framingErrors => framingErrorsName
  | .itemsEnqueued => itemsEnqueuedName
  | .itemsDropped r => itemsDroppedName ++ " reason=" ++ r.label
  | .taskPanics s => taskPanicsName ++ " site=" ++ s.label

def all : List Counter :=
  .connectionsActive :: Direction.all.map .chunks ++ [.framingErrors, .itemsEnqueued] ++
    DropReason.all.map .itemsDropped ++ PanicSite.all.map .taskPanics

end Counter

/-- The entries recorded so far, latest first. -/
structure Meter where
  entries : List (Counter × Nat)
  deriving DecidableEq, Repr

namespace Meter

def empty : Meter := ⟨[]⟩

/-- Record `n` at once. Nothing is recorded for `n = 0`, so an untouched counter stays untouched. -/
def add (m : Meter) (c : Counter) (n : Nat) : Meter :=
  if n = 0 then m else ⟨(c, n) :: m.entries⟩

/-- Record the value of a gauge, which is shown even if it is zero. -/
def gauge (m : Meter) (c : Counter) (n : Nat) : Meter := ⟨(c, n) :: m.entries⟩

def bump (m : Meter) (c : Counter) : Meter := m.add c 1

/-- The entries of both. -/
def merge (m k : Meter) : Meter := ⟨k.entries ++ m.entries⟩

/-- The sum of what was recorded for `c`. -/
def count (m : Meter) (c : Counter) : Nat :=
  total (m.entries.map fun e => if e.1 = c then e.2 else 0)

@[simp] theorem count_empty (c : Counter) : empty.count c = 0 := rfl

theorem count_add (m : Meter) (c d : Counter) (n : Nat) :
    (m.add c n).count d = m.count d + if c = d then n else 0 := by
  by_cases h : n = 0
  · simp [add, h]
  · simp [add, h, count, total, Nat.add_comm]

theorem count_bump (m : Meter) (c d : Counter) :
    (m.bump c).count d = m.count d + if c = d then 1 else 0 := count_add m c d 1

@[simp] theorem count_merge (m k : Meter) (c : Counter) :
    (m.merge k).count c = m.count c + k.count c := by
  simp [merge, count, Nat.add_comm]

/-- The counters that were touched, with their sums. -/
def readings (m : Meter) : List (Counter × Nat) :=
  (Counter.all.filter fun c => m.entries.any fun e => e.1 = c).map fun c => (c, m.count c)

end Meter

end ChunkRouter
