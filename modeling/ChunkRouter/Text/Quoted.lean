import ChunkRouter.Text.Hidden

/-!
# Quoted text

A text between quotation marks, as diagnostics show it: quotation marks and backslashes behind a
backslash, the common control characters by letter, and other characters without a mark of their own
by number.
-/

namespace ChunkRouter.Text.Quoted

/-- `n` in hexadecimal, without leading zeros. -/
def hex (n : Nat) : String := String.ofList (Nat.toDigits 16 n)

/-- One character between the marks. -/
def encodeChar (c : Char) : String :=
  if c = '"' then "\\\""
  else if c = '\\' then "\\\\"
  else if c = '\n' then "\\n"
  else if c = '\r' then "\\r"
  else if c = '\t' then "\\t"
  else if c = '\x00' then "\\0"
  else if isHidden c then "\\u\x7b" ++ hex c.toNat ++ "\x7d"
  else c.toString

def encode (s : String) : String := "\"" ++ String.join (s.toList.map encodeChar) ++ "\""

end ChunkRouter.Text.Quoted
