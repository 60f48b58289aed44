import ChunkRouter.Text.Quoted

/-!
# Errors of the operating system

What the system answers when it refuses a request of the network. Codes and texts are those of a host that
runs Linux with an English C library.
-/

namespace ChunkRouter.Net

structure OsError where
  code : Nat
  kind : String
  text : String
  deriving DecidableEq, Repr

namespace OsError

/-- There is no way to the address. -/
def networkUnreachable : OsError := ⟨101, "NetworkUnreachable", "Network is unreachable"⟩

/-- Nobody listens at the address. -/
def connectionRefused : OsError := ⟨111, "ConnectionRefused", "Connection refused"⟩

/-- An error as it is shown to people who look for its cause. -/
def describe (e : OsError) : String :=
  "Os \x7b code: " ++ toString e.code ++ ", kind: " ++ e.kind ++ ", message: " ++
    Text.Quoted.encode e.text ++ " \x7d"

end OsError

end ChunkRouter.Net
