import ChunkRouter.Frame.Limits
import ChunkRouter.Net.SocketAddress
import ChunkRouter.Router.Backoff
import ChunkRouter.Work.Settings

/-!
# Router configuration

A router serves with at least one batch lane and owes a peer at least one reply.
-/

namespace ChunkRouter.Router

def defaultPort : UInt16 := 7878

def defaultListen : Net.SocketAddress := .v4 ⟨127, 0, 0, 1⟩ defaultPort

def defaultBatchLanes : Nat := 4

def defaultMaxPendingReplies : Nat := 1024

structure Config where
  listen : Net.SocketAddress
  frame : Frame.Limits
  queue : Work.Settings
  batchLanes : Nat
  maxPendingReplies : Nat
  backoff : Backoff
  deriving DecidableEq, Repr

namespace Config

def standard : Config :=
  ⟨defaultListen, .standard, .standard, defaultBatchLanes, defaultMaxPendingReplies, .standard⟩

def withBatchLanes (c : Config) (n : Nat) : Config := { c with batchLanes := max n 1 }

def withMaxPendingReplies (c : Config) (n : Nat) : Config := { c with maxPendingReplies := max n 1 }

end Config

end ChunkRouter.Router
