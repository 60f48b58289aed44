/-!
# Reply backlogs

How many replies a connection owes its peer. The reader adds one reply per chunk and goes on while
there is room; the writer takes off what it has sent. Once the writer is done there is always room, so
that the reader can find out by itself.
-/

namespace ChunkRouter.Router

structure Backlog where
  pending : Nat
  limit : Nat
  writerDone : Bool
  deriving DecidableEq, Repr

namespace Backlog

/-- A backlog with room for `limit` replies, and for at least one. -/
def new (limit : Nat) : Backlog := ⟨0, max limit 1, false⟩

def hasRoom (b : Backlog) : Bool := b.writerDone || b.pending < b.limit

/-- A reply is owed. -/
def add (b : Backlog) : Backlog := { b with pending := b.pending + 1 }

/-- `n` replies were sent. -/
def release (b : Backlog) (n : Nat) : Backlog := { b with pending := b.pending - n }

/-- Nothing will be released again. -/
def close (b : Backlog) : Backlog := { b with writerDone := true }

theorem release_add (b : Backlog) : b.add.release 1 = b := rfl

end Backlog

end ChunkRouter.Router
