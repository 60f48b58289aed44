import ChunkRouter.Net.OsError
import ChunkRouter.Panic

/-!
# Networks

Whether peers reach a router. On a loopback they do; a host may also be cut off from every network,
its own included, and then an attempt to connect fails.
-/

namespace ChunkRouter.Router

inductive Network where
  | loopback
  | isolated
  deriving DecidableEq, Repr

namespace Network

/-- Ask for a connection to a router that may be listening. -/
def connect (n : Network) (listening : Bool) : Except Net.OsError Unit :=
  match n, listening with
  | .isolated, _ => .error .networkUnreachable
  | .loopback, false => .error .connectionRefused
  | .loopback, true => .ok ()

/-- What a peer is abandoned with that depends on being connected; `attempt` tells what it tried. -/
def abandon (attempt : String) (e : Net.OsError) : Panic := ⟨attempt ++ ": Io(" ++ e.describe ++ ")"⟩

end Network

end ChunkRouter.Router
