import ChunkRouter.Work.Queue

/-!
# Queue sessions

A queue in use: commands from outside, and a consumer that may issue commands on the same queue for
every item it is given, or panic at it. Everything the consumer sees is recorded in order.

Commands nest without bound in general, so a run carries the depth it may still use; no run that
ends on its own comes near `depth`.
-/

namespace ChunkRouter.Work

/-- A command on a queue of numbers. -/
inductive Command where
  | enqueue (items : List Nat)
  /-- Offer the numbers from `low` up to but not including `high`. -/
  | offerRange (low high : Nat)
  /-- Hand one batch over. -/
  | dequeue
  /-- Hand batches over until the processor is released. -/
  | drain
  | clear
  | start
  | stop
  | close
  | snapshot
  deriving DecidableEq, Repr

/-- What can be seen of a queue. -/
structure Snapshot where
  len : Nat
  isEmpty : Bool
  capacity : Nat
  closed : Bool
  started : Bool
  processing : Bool
  deriving DecidableEq, Repr

def Queue.snapshot {α : Type} (q : Queue α) : Snapshot :=
  ⟨q.len, q.isEmpty, q.capacity, q.closed, q.started, q.processing⟩

/-- What a command answers. -/
inductive Outcome where
  | done
  | flag (b : Bool)
  | flags (bs : List Bool)
  | count (n : Nat)
  | snapshot (s : Snapshot)
  deriving DecidableEq, Repr

/-- What happened, as the consumer saw it. -/
inductive Event where
  /-- A processor was asked for. -/
  | start
  | batch (items : List Nat)
  /-- A command issued by the consumer answered. -/
  | nested (command : Command) (outcome : Outcome)
  deriving DecidableEq, Repr

/-- How a consumer behaves. -/
structure Consumer where
  /-- Which items survive a clearing; without it none does. -/
  keep : Nat → Except Panic Bool
  /-- Whether it drains the queue as soon as a processor is asked for. -/
  drainsOnStart : Bool
  /-- The items it panics at. -/
  failsAt : Nat → Bool
  /-- The commands it issues for an item. -/
  commands : Nat → List Command

/-- Keep the numbers that leave `r` when divided by `m`. There is no remainder by zero. -/
def keepRemainder (m r x : Nat) : Except Panic Bool :=
  if m = 0 then .error .remainderByZero else .ok (x % m == r)

structure Session where
  queue : Queue Nat
  /-- What happened, the latest first. -/
  events : List Event

namespace Session

/-- The bytes of a slot: two words, for a number or nothing. -/
def slotSize : Nat := 16

/-- A session on a new queue, if there is memory for it. -/
def tryNew (settings : Settings) (started : Bool) : Except Panic Session :=
  (Queue.tryNew slotSize settings started).map fun q => ⟨q, []⟩

/-- A computation on a session; a panic leaves the session as it was then. -/
abbrev Run (α : Type) := ExceptT Panic (StateM Session) α

/-- How deep commands may nest, and how often one may go round: more than any run has time for. -/
def depth : Nat := 0x4000000000000000

/-- The panic of a run that uses up its depth. -/
def tooDeep : Panic := ⟨"commands nest too deeply"⟩

def record (e : Event) : Run Unit := modify fun s => { s with events := e :: s.events }

/-- Apply a step to the queue. -/
def onQueue {α : Type} (step : Queue Nat → Queue Nat × α) : Run α :=
  modifyGet fun s => match step s.queue with
    | (q, a) => (a, { s with queue := q })

/-- The panic of a consumer that fails at `x`. -/
def failure (x : Nat) : Panic := ⟨s!"consumer failure at {x}"⟩

mutual

/-- Start a processor. -/
def wake (consumer : Consumer) : Nat → Run Unit
  | 0 => throw tooDeep
  | fuel + 1 => do
    record .start
    if consumer.drainsOnStart then
      let n ← drain consumer fuel 1
      record (.nested .drain (.count n))

/-- Offer one item. -/
def offer (consumer : Consumer) : Nat → Nat → Run Bool
  | 0, _ => throw tooDeep
  | fuel + 1, x => do
    let s ← get
    MonadExcept.ofExcept (s.queue.reserveSlot slotSize)
    match ← onQueue (·.enqueue x) with
    | .refused => pure false
    | .accepted wakes =>
      if wakes then wake consumer fuel
      pure true

/-- Consume one item. -/
def visit (consumer : Consumer) : Nat → Nat → Run Unit
  | 0, _ => throw tooDeep
  | fuel + 1, x => do
    (consumer.commands x).forM fun c => do
      let outcome ← call consumer fuel c
      record (.nested c outcome)
    if consumer.failsAt x then throw (failure x)

/-- Hand one batch over; whether the processor goes on. -/
def dequeue (consumer : Consumer) : Nat → Run Bool
  | 0 => throw tooDeep
  | fuel + 1 => do
    match ← onQueue Queue.take with
    | none => pure false
    | some batch =>
      record (.batch batch)
      tryCatch (batch.forM (visit consumer fuel)) fun panic => do
        onQueue fun q => (q.abandon, ())
        throw panic
      onQueue Queue.settle

/-- Hand batches over until the processor is released; `n` counts the calls. -/
def drain (consumer : Consumer) : Nat → Nat → Run Nat
  | 0, _ => throw tooDeep
  | fuel + 1, n => do
    if ← dequeue consumer fuel then drain consumer fuel (n + 1) else pure n

/-- Carry out a command. -/
def call (consumer : Consumer) : Nat → Command → Run Outcome
  | 0, _ => throw tooDeep
  | fuel + 1, c =>
    match c with
    | .enqueue items => do
      let accepted ← items.mapM (offer consumer fuel)
      pure (.flags accepted)
    | .offerRange low high => do
      let accepted ← (List.range' low (high - low)).mapM (offer consumer fuel)
      pure (.count (accepted.count true))
    | .dequeue => do
      let more ← dequeue consumer fuel
      pure (.flag more)
    | .drain => do
      let n ← drain consumer fuel 1
      pure (.count n)
    | .clear => do
      match ← onQueue (·.clear consumer.keep) with
      | .error panic => throw panic
      | .ok n => pure (.count n)
    | .start => do
      if ← onQueue Queue.start then wake consumer fuel
      pure .done
    | .stop => do
      onQueue fun q => (q.stop, ())
      pure .done
    | .close => do
      let n ← onQueue Queue.close
      pure (.count n)
    | .snapshot => do
      let s ← get
      pure (.snapshot s.queue.snapshot)

end

/-- Carry out a command from outside. The session comes back without older events. -/
def command (consumer : Consumer) (s : Session) (c : Command) : Session × Except Panic Outcome :=
  match (call consumer depth c).run { s with events := [] } with
  | (result, s) => (s, result)

end Session

end ChunkRouter.Work
