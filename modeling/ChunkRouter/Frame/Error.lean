/-!
# Framing errors

The causes for which a codec refuses bytes or a report about them.
-/

namespace ChunkRouter.Frame

inductive FramingError where
  /-- A chunk is longer than the limit. -/
  | oversized (size max : Nat)
  /-- A chunk has no bytes. -/
  | empty
  /-- More bytes were reported than there were. -/
  | overrun (written available : Nat)
  /-- An earlier error made the stream unreadable. -/
  | poisoned
  deriving DecidableEq, Repr

def FramingError.message : FramingError → String
  | .oversized size max => s!"chunk exceeds max length: {size} > {max}"
  | .empty => "empty chunk not permitted"
  | .overrun written available =>
    s!"transport reported {written} bytes but only {available} were available"
  | .poisoned => "reader poisoned by an earlier framing error"

end ChunkRouter.Frame
