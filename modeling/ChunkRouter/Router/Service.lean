import ChunkRouter.Router.Connection

/-!
# Services

A router at work: its connections in the order they were accepted, each with an id of its own.
Connections act in any order, one at a time; a service that is shut down accepts no more of them.
-/

namespace ChunkRouter.Router

structure Service where
  config : Config
  nextId : ConnectionId
  connections : Array Connection
  accepting : Bool

namespace Service

/-- What happens to a service. -/
inductive Act where
  /-- A peer is connected. -/
  | accept
  /-- The `i`th connection acts. -/
  | connection (i : Nat) (act : Connection.Act)
  /-- No further peer is accepted. -/
  | shutDown

def new (config : Config) : Service := ⟨config, .first, #[], true⟩

def accept (s : Service) : Service :=
  { s with
    nextId := s.nextId.next
    connections := s.connections.push (.new s.config s.nextId) }

/-- What an act does, if it may happen now. -/
def step (s : Service) : Act → Option Service
  | .accept => if s.accepting then some s.accept else none
  | .connection i act =>
    (s.connections[i]?.bind fun c => c.step act).map fun c =>
      { s with connections := s.connections.setIfInBounds i c }
  | .shutDown => some { s with accepting := false }

/-- Acts in order, if each may happen when its time comes. -/
def run (s : Service) (acts : List Act) : Option Service := acts.foldlM step s

/-- Connections that are not over. -/
def openConnections (s : Service) : Nat := s.connections.countP fun c => c.result?.isNone

/-- What the connections counted, and how many are open. -/
def meter (s : Service) : Meter :=
  let counted := s.connections.foldl (fun m c => m.merge c.meter) .empty
  if s.connections.isEmpty then counted
  else counted.gauge .connectionsActive s.openConnections

end Service

end ChunkRouter.Router
