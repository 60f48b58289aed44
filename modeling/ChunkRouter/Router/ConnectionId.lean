/-!
# Connection ids

Connections are numbered in the order they were accepted, modulo `2 ^ 64`.
-/

namespace ChunkRouter.Router

structure ConnectionId where
  value : UInt64
  deriving DecidableEq, Repr

namespace ConnectionId

/-- The name of a connection, which is also the name of its request lane. -/
def name (id : ConnectionId) : String := "conn-" ++ toString id.value

def describe (id : ConnectionId) : String := "ConnectionId(" ++ toString id.value ++ ")"

/-- The first id a router gives. -/
def first : ConnectionId := ⟨1⟩

def next (id : ConnectionId) : ConnectionId := ⟨id.value + 1⟩

/-- The id that is given out `n` allocations after `id`. -/
def after (id : ConnectionId) (n : Nat) : ConnectionId := ⟨id.value + n.toUInt64⟩

/-- `n` ids, from `id` on. -/
def take : (n : Nat) → ConnectionId → List ConnectionId
  | 0, _ => []
  | n + 1, id => id :: take n id.next

end ConnectionId

end ChunkRouter.Router
