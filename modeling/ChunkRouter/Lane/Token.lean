import ChunkRouter.Text.Quoted

/-!
# Lane tokens

The name of a lane. Tasks of one lane never overlap and keep their order.
-/

namespace ChunkRouter.Lane

structure Token where
  name : String
  deriving DecidableEq, Repr

/-- A token as it is shown to people. -/
def Token.describe (t : Token) : String := "LaneToken(" ++ Text.Quoted.encode t.name ++ ")"

end ChunkRouter.Lane
