import ChunkRouter.Lane.Executor
import ChunkRouter.Pipeline.Basic

/-!
# Pipeline sessions

Pipelines in use on one executor, sharing a visitor that writes down the items it is given. An item
may make the visitor issue calls on the pipelines, and panic. Handles can be dropped; a pipeline
whose handle is gone lives on in the tasks that drain it.

Items are finite trees, and each is visited once at most, so `load` bounds what a session can still do.
A run carries the steps that it may still take; `Session.fuel` gives it more than it can use.
-/

namespace ChunkRouter.Pipeline

mutual

/-- An item, with the calls its visit makes and the text it panics with. -/
inductive Item where
  | mk (id : Nat) (calls : List Call) (failure : Option String)

/-- A call on the pipeline with the given number. -/
inductive Call where
  | enqueue (pipe : Nat) (items : List Item)
  | clear (pipe : Nat)
  | start (pipe : Nat)
  | stop (pipe : Nat)
  | close (pipe : Nat)
  /-- How many items and calls the visitor has written down. -/
  | visited (pipe : Nat)
  | lane (pipe : Nat)
  | len (pipe : Nat)
  | describe (pipe : Nat)
  | drop (pipe : Nat)

end

instance : Inhabited Item := ⟨.mk 0 [] none⟩

instance : Inhabited Call := ⟨.len 0⟩

def Item.id : Item → Nat
  | .mk id _ _ => id

mutual

/-- The number of items and calls in an item. -/
def Item.weight : Item → Nat
  | .mk _ calls _ => 1 + Call.weights calls

def Item.weights : List Item → Nat
  | [] => 0
  | x :: xs => x.weight + Item.weights xs

def Call.weight : Call → Nat
  | .enqueue _ items => 1 + Item.weights items
  | _ => 1

def Call.weights : List Call → Nat
  | [] => 0
  | c :: cs => c.weight + Call.weights cs

end

/-- The pipeline a call is meant for. -/
def Call.pipe : Call → Nat
  | .enqueue p _ | .clear p | .start p | .stop p | .close p | .visited p | .lane p | .len p
  | .describe p | .drop p => p

/-- What a call answers. -/
inductive Answer where
  | done
  | flag (b : Bool)
  | flags (bs : List Bool)
  | count (n : Nat)
  | text (s : String)
  | texts (ss : List String)
  /-- The handle was dropped. -/
  | gone
  deriving DecidableEq, Repr

/-- What the visitor writes down. -/
inductive Note where
  | visited (id : Nat)
  | nested (call : Call) (answer : Answer)

/-- A pipeline and whether its handle is held. -/
structure Slot where
  pipeline : Pipeline Item
  held : Bool

/-- The bytes of a queue's slot: seven words, for an item's number, calls and text. -/
def slotSize : Nat := 56

/-- A pipeline with its handle, if there is memory for it. -/
def Slot.tryNew (lane : Lane.Token) (settings : Work.Settings) (started : Bool)
    (keep : Nat → Except Panic Bool) : Except Panic Slot :=
  (Work.Queue.tryNew slotSize settings started).map fun q => ⟨⟨q, lane, fun x => keep x.id, false⟩, true⟩

structure Session where
  pipes : Array Slot
  /-- A task is the number of the pipeline it drains. -/
  executor : Lane.Executor Nat
  /-- What was written down, the latest first. -/
  notes : List Note
  /-- How much was written down in all. -/
  noteCount : Nat

/-- A command from outside. -/
inductive Command where
  | call (c : Call)
  | runNext
  | runNextOn (lane : Lane.Token)
  | runUntilIdle
  | dispatched
  | describeExecutor
  | waitIdle
  | prune
  | pending (lane : Lane.Token)

namespace Session

/-- A computation on a session; a panic leaves the session as it was then. -/
abbrev Run (α : Type) := ExceptT Panic (StateM Session) α

/-- What waits in the queues and on the executor. -/
def load (s : Session) : Nat :=
  s.executor.parkedCount +
    total (s.pipes.toList.map fun slot =>
      slot.pipeline.queue.len + Item.weights slot.pipeline.queue.pending)

/-- More steps than a session can take with a call of the given weight. -/
def fuel (s : Session) (weight : Nat) : Nat := 8 * (s.load + weight + 1)

/-- The panic of a run that uses up its steps. -/
def tooDeep : Panic := ⟨"calls nest too deeply"⟩

def write (n : Note) : Run Unit :=
  modify fun s => { s with notes := n :: s.notes, noteCount := s.noteCount + 1 }

/-- Apply a step to a pipeline. Nothing happens to one that does not exist. -/
def onPipe {α : Type} (p : Nat) (default : α) (step : Pipeline Item → Pipeline Item × α) : Run α :=
  modifyGet fun s =>
    match s.pipes[p]? with
    | none => (default, s)
    | some slot =>
      match step slot.pipeline with
      | (pipeline, a) => (a, { s with pipes := s.pipes.setIfInBounds p { slot with pipeline := pipeline } })

/-- Whether the handle of a pipeline is held. -/
def holds (p : Nat) : Run Bool := do
  let s ← get
  pure ((s.pipes[p]?.map (·.held)).getD false)

mutual

/-- Dispatch the drain task of a pipeline, and run it if the executor asks for that. -/
def dispatch : Nat → Nat → Run Unit
  | 0, _ => throw tooDeep
  | fuel + 1, p => do
    let s ← get
    match s.pipes[p]? with
    | none => pure ()
    | some slot =>
      let (executor, now) := s.executor.dispatch slot.pipeline.lane p
      set { s with executor := executor }
      if now then drain fuel p

/-- Run a drain task. -/
def drain : Nat → Nat → Run Unit
  | 0, _ => throw tooDeep
  | fuel + 1, p => do
    match ← onPipe p none Pipeline.beginDrain with
    | none => pure ()
    | some batch =>
      tryCatch (batch.forM (visit fuel)) fun panic => do
        onPipe p () fun pipeline => (pipeline.abandonDrain, ())
        throw panic
      if ← onPipe p false Pipeline.endDrain then dispatch fuel p

/-- Visit an item. -/
def visit : Nat → Item → Run Unit
  | 0, _ => throw tooDeep
  | fuel + 1, .mk id calls failure => do
    write (.visited id)
    calls.forM fun c => do
      let answer ← call fuel c
      write (.nested c answer)
    match failure with
    | none => pure ()
    | some message => throw ⟨message⟩

/-- Offer an item. -/
def offer : Nat → Nat → Item → Run Bool
  | 0, _, _ => throw tooDeep
  | fuel + 1, p, x => do
    MonadExcept.ofExcept
      (← onPipe p (.ok ()) fun pipeline => (pipeline, pipeline.queue.reserveSlot slotSize))
    match ← onPipe p .refused (·.enqueue x) with
    | .refused => pure false
    | .accepted wakes =>
      if wakes then dispatch fuel p
      pure true

/-- Make a call through a handle. -/
def call : Nat → Call → Run Answer
  | 0, _ => throw tooDeep
  | fuel + 1, c => do
    unless ← holds c.pipe do return .gone
    match c with
    | .enqueue p items =>
      let accepted ← items.mapM (offer fuel p)
      pure (.flags accepted)
    | .clear p =>
      match ← onPipe p (.ok 0) Pipeline.clear with
      | .error panic => throw panic
      | .ok n => pure (.count n)
    | .start p =>
      if ← onPipe p false Pipeline.start then dispatch fuel p
      pure .done
    | .stop p =>
      onPipe p () fun pipeline => (pipeline.stop, ())
      pure .done
    | .close p =>
      let n ← onPipe p 0 Pipeline.close
      pure (.count n)
    | .visited _ =>
      let s ← get
      pure (.count s.noteCount)
    | .lane p =>
      let name ← onPipe p "" fun pipeline => (pipeline, pipeline.lane.name)
      pure (.texts [name, name])
    | .len p =>
      let n ← onPipe p 0 fun pipeline => (pipeline, pipeline.queue.len)
      pure (.count n)
    | .describe p =>
      let text ← onPipe p "" fun pipeline => (pipeline, pipeline.describe)
      pure (.text text)
    | .drop p =>
      modify fun s => { s with pipes := s.pipes.modify p fun slot => { slot with held := false } }
      pure .done

end

/-- Run the task that was taken off the bench. -/
def runTaken (taken : Option (Nat × Lane.Executor Nat)) : Run Bool := do
  match taken with
  | none => pure false
  | some (p, executor) =>
    let s ← get
    set { s with executor := executor }
    drain (s.fuel 0) p
    pure true

def runNext : Run Bool := do
  let s ← get
  runTaken s.executor.next

/-- Run tasks until the bench is empty; `n` counts those run before. -/
def runUntilIdle : (fuel : Nat) → (n : Nat) → Run Nat
  | 0, _ => throw tooDeep
  | fuel + 1, n => do
    if ← runNext then runUntilIdle fuel (n + 1) else pure n

/-- Apply a step to the pool, if the executor is one. -/
def onPool {α : Type} (default : α) (step : Lane.Pool Nat → Lane.Pool Nat × α) : Run α :=
  modifyGet fun s =>
    match s.executor with
    | .pool p =>
      match step p with
      | (p, a) => (a, { s with executor := .pool p })
    | _ => (default, s)

/-- Take turns of the pool in order until none is left. A panic ends its turn only. -/
def waitIdle : (fuel : Nat) → Run Unit
  | 0 => throw tooDeep
  | fuel + 1 => do
    let turn ← onPool none fun pool =>
      match pool.beginTurn 0 with
      | none => (pool, none)
      | some (pool, lane, task) => (pool, some (lane, task))
    match turn with
    | none => pure ()
    | some (_, none) => waitIdle fuel
    | some (lane, some p) =>
      let s ← get
      tryCatch (drain (s.fuel 0) p) fun _ => onPool () fun pool => (pool.reportPanic, ())
      onPool () fun pool => (pool.endTurn lane, ())
      waitIdle fuel

def describeExecutor : Lane.Executor Nat → String
  | .inline => "Inline"
  | .bench b => b.describe
  | .pool p => p.describe

def perform : Command → Run Answer
  | .call c => do
    let s ← get
    call (s.fuel c.weight) c
  | .runNext => do
    let ran ← runNext
    pure (.flag ran)
  | .runNextOn lane => do
    let s ← get
    let ran ← runTaken (s.executor.nextOn lane)
    pure (.flag ran)
  | .runUntilIdle => do
    let s ← get
    let n ← runUntilIdle (s.fuel 0) 0
    pure (.count n)
  | .dispatched => do
    let s ← get
    pure (.texts (s.executor.dispatched.map (·.name)))
  | .describeExecutor => do
    let s ← get
    pure (.text (describeExecutor s.executor))
  | .waitIdle => do
    let s ← get
    waitIdle (s.fuel 0)
    pure .done
  | .prune => do
    let n ← onPool 0 Lane.Pool.prune
    pure (.count n)
  | .pending lane => do
    let n ← onPool 0 fun pool => (pool, pool.pending lane)
    pure (.count n)

/-- Carry out a command. The session comes back without older notes. -/
def command (s : Session) (c : Command) : Session × Except Panic Answer :=
  match (perform c).run { s with notes := [] } with
  | (result, s) => (s, result)

/-- All that was counted. -/
def meter (s : Session) : Meter :=
  s.pipes.foldl (fun m slot => m.merge slot.pipeline.queue.meter) s.executor.meter

end Session

end ChunkRouter.Pipeline
