import ChunkRouter.Memory
import ChunkRouter.Metric
import ChunkRouter.Work.Ring
import ChunkRouter.Work.Settings

/-!
# Work queues with a single consumer

Items wait in a ring until the one active processor takes them in batches. Accepting an item, and
starting a stopped queue, claims the processor if there is work and nobody is at it; the answer says
so, and the caller then starts one. A processor goes on while items are left after a batch, and is
released when there are none, when the queue does not run, or when a batch is abandoned.

Each operation here is one indivisible step. What a consumer does between `take` and `settle` is up
to it: it may use the queue itself.
-/

namespace ChunkRouter.Work

structure Queue (α : Type) where
  ring : Ring α
  bulkSize : Nat
  closed : Bool
  started : Bool
  /-- A processor is at work, or was asked to be. -/
  processing : Bool
  meter : Meter
  deriving Repr

/-- What became of an offered item. -/
inductive Admission where
  | refused
  /-- Accepted; `wakes` asks for a processor to be started. -/
  | accepted (wakes : Bool)
  deriving DecidableEq, Repr

namespace Queue

variable {α : Type}

def new (settings : Settings) (started : Bool) : Queue α where
  ring := .new settings.initialCapacity settings.bucketSize
  bulkSize := settings.bulkSize
  closed := false
  started := started
  processing := false
  meter := .empty

/-- A queue with slots of `slot` bytes, if there is memory for those it starts with. -/
def tryNew (slot : Nat) (settings : Settings) (started : Bool) : Except Panic (Queue α) :=
  (Memory.reserve slot settings.initialCapacity).map fun _ => .new settings started

def len (q : Queue α) : Nat := q.ring.len

def isEmpty (q : Queue α) : Bool := q.ring.isEmpty

def capacity (q : Queue α) : Nat := q.ring.capacity

/-- The items that wait, in order. -/
def pending (q : Queue α) : List α := q.ring.toList

/-- Work is waiting that nobody is at. -/
def isIdleWithWork (q : Queue α) : Bool := q.started && !q.processing && !q.ring.isEmpty

/-- Claim the processor if there is work and nobody at it. -/
def claim (q : Queue α) : Queue α × Bool :=
  if q.isIdleWithWork then ({ q with processing := true }, true) else (q, false)

/-- Offer an item. A closed queue refuses it. -/
def enqueue (q : Queue α) (x : α) : Queue α × Admission :=
  if q.closed then ({ q with meter := q.meter.bump (.itemsDropped .afterClose) }, .refused)
  else
    match claim { q with ring := q.ring.push x, meter := q.meter.bump .itemsEnqueued } with
    | (q, wakes) => (q, .accepted wakes)

/-- Ask for a slot of `slot` bytes for one more item. A full ring needs another bucket; a closed queue
needs nothing. -/
def reserveSlot (slot : Nat) (q : Queue α) : Except Panic Unit :=
  if q.closed || q.len != q.capacity then .ok () else Memory.extend slot q.capacity q.ring.bucket

/-- Take the next batch, or release the processor if there is none to take. -/
def take (q : Queue α) : Queue α × Option (List α) :=
  if q.closed || !q.started || q.ring.isEmpty then ({ q with processing := false }, none)
  else
    match q.ring.popMany (min q.bulkSize q.ring.len) with
    | (ring, batch) => ({ q with ring := ring }, some batch)

/-- A batch is done; the processor goes on if items are left, and is released otherwise. -/
def settle (q : Queue α) : Queue α × Bool :=
  if q.ring.isEmpty then ({ q with processing := false }, false) else (q, true)

/-- A batch was abandoned half-way; the processor is released. -/
def abandon (q : Queue α) : Queue α := { q with processing := false }

/-- Drop the waiting items that `keep` refuses and tell how many. -/
def clear (q : Queue α) (keep : α → Except Panic Bool) : Queue α × Except Panic Nat :=
  match q.ring.retain keep with
  | (ring, .error panic) => ({ q with ring := ring }, .error panic)
  | (ring, .ok dropped) =>
    ({ q with ring := ring, meter := q.meter.add (.itemsDropped .cleared) dropped }, .ok dropped)

/-- Let the queue run; the answer asks for a processor to be started. -/
def start (q : Queue α) : Queue α × Bool := claim { q with started := true }

/-- Hand out no further batch. -/
def stop (q : Queue α) : Queue α := { q with started := false }

/-- Drop all waiting items, tell how many, and refuse any later one. -/
def close (q : Queue α) : Queue α × Nat :=
  if q.closed then (q, 0)
  else
    match q.ring.release with
    | (ring, items) =>
      ({ q with
          ring := ring
          closed := true
          meter := q.meter.add (.itemsDropped .closed) items.length },
        items.length)

end Queue

end ChunkRouter.Work
