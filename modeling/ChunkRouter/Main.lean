import ChunkRouter.Options.Parse
import ChunkRouter.Router.Serving

/-!
# The program

Reads the command line and serves one peer, which is at the other end of standard input and output.
-/

namespace ChunkRouter.Main

open Router (Connection)

/-- Write what the connection sent, and forget it. -/
def forward (output : IO.FS.Stream) (c : Connection) : IO Connection := do
  output.write (ByteArray.mk c.written.toArray)
  output.flush
  return { c with pieces := [] }

/-- Serve until the peer hangs up, or reading ends for another reason. -/
partial def serve (input output : IO.FS.Stream) (c : Connection) (underway : Bytes) :
    IO Connection := do
  if c.readEnd.isSome then return c
  let bytes ← input.read 65536
  if bytes.isEmpty then forward output (c.after .hangUp)
  else
    let (c, underway) := c.serve (underway ++ bytes.toList)
    serve input output (← forward output c) underway

/-- Serve under the options; a connection that fails makes the program fail. -/
def run (options : Options) : IO UInt32 := do
  match options.config with
  | .error e =>
    IO.eprintln ("error: " ++ e.message)
    return 1
  | .ok config =>
    let connection ← serve (← IO.getStdin) (← IO.getStdout) (.new config .first) []
    match connection.result? with
    | some (.error e) =>
      IO.eprintln ("error: " ++ e.message)
      return 1
    | _ => return 0

/-- Answer a command line that gives no options. -/
def refuse (r : Options.Refusal) : IO UInt32 := do
  match r.text? with
  | some text => IO.print text
  | none => IO.eprint Options.usage
  return r.exitCode

end ChunkRouter.Main

def main (args : List String) : IO UInt32 :=
  match ChunkRouter.Options.parse args with
  | .ok options => ChunkRouter.Main.run options
  | .error refusal => ChunkRouter.Main.refuse refusal
