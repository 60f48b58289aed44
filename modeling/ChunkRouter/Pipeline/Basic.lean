import ChunkRouter.Lane.Token
import ChunkRouter.Work.Queue

/-!
# Pipelines

A pipeline is a work queue drained by tasks on a lane of its own. Whenever its queue asks for a
processor, one drain task is dispatched to that lane; a drain task hands one batch over, item by item,
and dispatches itself again if items are left. Closing cancels the tasks that are under way.

Who runs a task, and when, is up to an executor. The steps here are indivisible, and three of them are
two steps to the threads of a program: `close` closes the queue and then cancels, `beginDrain` sees that
nothing is cancelled and then takes a batch, `endDrain` settles the batch and then sees whether the queue is
closed. `ChunkRouter.Proofs.Pipeline.Interleaving` has the halves as well.
-/

namespace ChunkRouter

structure Pipeline (α : Type) where
  queue : Work.Queue α
  lane : Lane.Token
  /-- Which items survive a clearing. -/
  keep : α → Except Panic Bool
  /-- Drain tasks that have not begun do nothing. -/
  cancelled : Bool

namespace Pipeline

variable {α : Type}

/-- A pipeline none of whose items survives a clearing. -/
def new (lane : Lane.Token) (settings : Work.Settings) (started : Bool) : Pipeline α :=
  ⟨.new settings started, lane, fun _ => .ok false, false⟩

/-- Offer an item; if it is accepted and wakes the queue, a drain task is to be dispatched. -/
def enqueue (p : Pipeline α) (x : α) : Pipeline α × Work.Admission :=
  match p.queue.enqueue x with
  | (q, admission) => ({ p with queue := q }, admission)

def clear (p : Pipeline α) : Pipeline α × Except Panic Nat :=
  match p.queue.clear p.keep with
  | (q, result) => ({ p with queue := q }, result)

/-- Let the queue run; the answer asks for a drain task to be dispatched. -/
def start (p : Pipeline α) : Pipeline α × Bool :=
  match p.queue.start with
  | (q, wakes) => ({ p with queue := q }, wakes)

def stop (p : Pipeline α) : Pipeline α := { p with queue := p.queue.stop }

/-- Drop the waiting items and cancel the drain tasks, both at once. -/
def close (p : Pipeline α) : Pipeline α × Nat :=
  match p.queue.close with
  | (q, dropped) => ({ p with queue := q, cancelled := true }, dropped)

/-- A drain task begins: the batch it hands over, if there is one. -/
def beginDrain (p : Pipeline α) : Pipeline α × Option (List α) :=
  if p.cancelled then (p, none)
  else
    match p.queue.take with
    | (q, batch) => ({ p with queue := q }, batch)

/-- A drain task has handed its batch over; the answer asks for it to be dispatched again. Seen in one
moment, a queue that is closed has nothing left unless a clearing of it unwound: the second look is for a
closing that comes after the first. -/
def endDrain (p : Pipeline α) : Pipeline α × Bool :=
  match p.queue.settle with
  | (q, more) => ({ p with queue := q }, more && !q.closed)

/-- A drain task panicked in the middle of its batch. -/
def abandonDrain (p : Pipeline α) : Pipeline α := { p with queue := p.queue.abandon }

/-- A pipeline as it is shown to people. -/
def describe (p : Pipeline α) : String :=
  "DrainingPipelineQueue \x7b lane: " ++ p.lane.describe ++ ", len: " ++ toString p.queue.len ++
    ", closed: " ++ toString p.queue.closed ++ ", .. \x7d"

end Pipeline

end ChunkRouter
