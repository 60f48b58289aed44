import ChunkRouter.Text.Utf8

/-!
# Decoding errors

Why bytes are no message, with the diagnostic that peers are shown.
-/

namespace ChunkRouter.Wire

/-- The number types an integer marker may announce. -/
inductive IntegerType where
  | u32
  | u64
  | u128
  | reserved
  deriving DecidableEq, Repr

def IntegerType.label : IntegerType → String
  | .u32 => "U32"
  | .u64 => "U64"
  | .u128 => "U128"
  | .reserved => "Reserved"

inductive DecodeError where
  /-- The bytes end `additional` bytes too early. -/
  | unexpectedEnd (additional : Nat)
  /-- The message asks for more than the decode budget. -/
  | limitExceeded
  | invalidIntegerType (expected found : IntegerType)
  /-- A tag above `max`. -/
  | unexpectedVariant (typeName : String) (max found : Nat)
  | utf8 (inner : Text.Utf8Error)
  deriving DecidableEq, Repr

namespace DecodeError

/-- The word a diagnostic starts with. -/
def kind : DecodeError → String
  | .unexpectedEnd _ => "UnexpectedEnd"
  | .limitExceeded => "LimitExceeded"
  | .invalidIntegerType _ _ => "InvalidIntegerType"
  | .unexpectedVariant _ _ _ => "UnexpectedVariant"
  | .utf8 _ => "Utf8"

/-- A list of named fields after the name of what has them. -/
def braced (name : String) (fields : List (String × String)) : String :=
  name ++ " \x7b " ++ String.intercalate ", " (fields.map fun f => f.1 ++ ": " ++ f.2) ++ " \x7d"

def renderLen : Option Nat → String
  | none => "None"
  | some n => "Some(" ++ toString n ++ ")"

/-- A diagnostic is the kind, then the details by name. -/
def message (e : DecodeError) : String :=
  match e with
  | .unexpectedEnd additional => braced e.kind [("additional", toString additional)]
  | .limitExceeded => e.kind
  | .invalidIntegerType expected found =>
    braced e.kind [("expected", expected.label), ("found", found.label)]
  | .unexpectedVariant typeName max found =>
    braced e.kind
      [("type_name", "\"" ++ typeName ++ "\""),
        ("allowed", braced "Range" [("min", "0"), ("max", toString max)]),
        ("found", toString found)]
  | .utf8 inner =>
    braced e.kind
      [("inner",
        braced "Utf8Error"
          [("valid_up_to", toString inner.validUpTo), ("error_len", renderLen inner.errorLen)])]

end DecodeError

end ChunkRouter.Wire
