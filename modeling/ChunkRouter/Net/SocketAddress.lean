/-!
# Socket addresses

Addresses of internet sockets and their text. An address of version 4 is four decimal numbers, one of
version 6 is eight hexadecimal groups in brackets, of which the first longest run of at least two
zeros is left out, and may have a scope. `parse` reads what `render` writes, and other spellings.
-/

namespace ChunkRouter.Net

/-- Four octets. -/
structure Ipv4 where
  a : UInt8
  b : UInt8
  c : UInt8
  d : UInt8
  deriving DecidableEq, Repr

/-- Groups of sixteen bits, the most significant first; eight of them. -/
structure Ipv6 where
  groups : List UInt16
  deriving DecidableEq, Repr

inductive SocketAddress where
  | v4 (ip : Ipv4) (port : UInt16)
  | v6 (ip : Ipv6) (scope : UInt32) (port : UInt16)
  deriving DecidableEq, Repr

/-! ## Writing -/

def Ipv4.render (ip : Ipv4) : String :=
  String.intercalate "." ([ip.a, ip.b, ip.c, ip.d].map toString)

namespace Ipv6

def renderGroup (g : UInt16) : String := String.ofList (Nat.toDigits 16 g.toNat)

def renderGroups (gs : List UInt16) : String := String.intercalate ":" (gs.map renderGroup)

/-- How many zeros a list of groups starts with. -/
def zeroRun : List UInt16 → Nat
  | [] => 0
  | g :: gs => if g = 0 then zeroRun gs + 1 else 0

/-- The start and the length of the first longest run of zeros. -/
def longestRun : (start : Nat) → List UInt16 → Nat × Nat
  | _, [] => (0, 0)
  | start, g :: gs =>
    let here := zeroRun (g :: gs)
    let later := longestRun (start + 1) gs
    if later.2 ≤ here then (start, here) else later

/-- The version 4 address that is embedded behind five zero groups and one of all ones. -/
def mapped? (ip : Ipv6) : Option Ipv4 :=
  match ip.groups with
  | [0, 0, 0, 0, 0, 0xffff, g, h] =>
    some ⟨(g >>> 8).toUInt8, g.toUInt8, (h >>> 8).toUInt8, h.toUInt8⟩
  | _ => none

def render (ip : Ipv6) : String :=
  match ip.mapped? with
  | some v4 => "::ffff:" ++ v4.render
  | none =>
    let run := longestRun 0 ip.groups
    if run.2 < 2 then renderGroups ip.groups
    else
      renderGroups (ip.groups.take run.1) ++ "::" ++ renderGroups (ip.groups.drop (run.1 + run.2))

end Ipv6

namespace SocketAddress

def render : SocketAddress → String
  | .v4 ip port => ip.render ++ ":" ++ toString port
  | .v6 ip scope port =>
    "[" ++ ip.render ++ (if scope = 0 then "" else "%" ++ toString scope) ++ "]:" ++ toString port

end SocketAddress

/-! ## Reading

A reader takes a value off the front of a text and gives the rest back, or nothing. -/

abbrev Reader (α : Type) := List Char → Option (α × List Char)

namespace Reader

/-- Read the given character. -/
def char (c : Char) : Reader Unit
  | [] => none
  | x :: rest => if x = c then some ((), rest) else none

/-- The value of a digit to the given base. -/
def digit? (base : Nat) (c : Char) : Option Nat :=
  let v :=
    if '0' ≤ c ∧ c ≤ '9' then c.toNat - '0'.toNat
    else if 'a' ≤ c ∧ c ≤ 'f' then c.toNat - 'a'.toNat + 10
    else if 'A' ≤ c ∧ c ≤ 'F' then c.toNat - 'A'.toNat + 10
    else base
  if v < base then some v else none

/-- Read all digits: their number, their value and the rest. -/
def digits (base : Nat) : (count value : Nat) → List Char → Nat × Nat × List Char
  | count, value, [] => (count, value, [])
  | count, value, c :: rest =>
    match digit? base c with
    | some v => digits base (count + 1) (value * base + v) rest
    | none => (count, value, c :: rest)

/-- Read a number up to `max`, of at most `width` digits where a width is given. -/
def number (base : Nat) (width : Option Nat) (leadingZeros : Bool) (max : Nat) : Reader Nat := fun s =>
  match digits base 0 0 s with
  | (count, value, rest) =>
    if count = 0 then none
    else if width.any (· < count) then none
    else if !leadingZeros && 1 < count && s.head? == some '0' then none
    else if max < value then none
    else some (value, rest)

/-- Read a separator, except in front of the first element, and then an element. -/
def separated {α : Type} (separator : Char) (isFirst : Bool) (element : Reader α) : Reader α := fun s =>
  if isFirst then element s
  else do
    let (_, s) ← char separator s
    element s

def ipv4 : Reader Ipv4 := fun s => do
  let octet := number 10 (some 3) false 255
  let (a, s) ← octet s
  let (b, s) ← separated '.' false octet s
  let (c, s) ← separated '.' false octet s
  let (d, s) ← separated '.' false octet s
  some (⟨a.toUInt8, b.toUInt8, c.toUInt8, d.toUInt8⟩, s)

/-- Two octets as a group. -/
def group (hi lo : UInt8) : UInt16 := hi.toUInt16 * 256 + lo.toUInt16

/-- Read at most `left` groups; an address of version 4 stands for the last two and ends them. The
groups come back with whether such an address was read. -/
def groups : (left : Nat) → (isFirst : Bool) → List Char → List UInt16 × Bool × List Char
  | 0, _, s => ([], false, s)
  | left + 1, isFirst, s =>
    match if left = 0 then none else separated ':' isFirst ipv4 s with
    | some (ip, s) => ([group ip.a ip.b, group ip.c ip.d], true, s)
    | none =>
      match separated ':' isFirst (number 16 (some 4) true 0xffff) s with
      | none => ([], false, s)
      | some (g, s) =>
        match groups left false s with
        | (gs, embedded, s) => (g.toUInt16 :: gs, embedded, s)

/-- Read eight groups, of which two colons may stand for one or more zero groups. -/
def ipv6 : Reader Ipv6 := fun s =>
  match groups 8 true s with
  | (front, embedded, s) =>
    if front.length = 8 then some (⟨front⟩, s)
    else if embedded then none
    else do
      let (_, s) ← char ':' s
      let (_, s) ← char ':' s
      match groups (7 - front.length) true s with
      | (back, _, s) =>
        some (⟨front ++ List.replicate (8 - front.length - back.length) 0 ++ back⟩, s)

def port : Reader UInt16 := fun s => do
  let (_, s) ← char ':' s
  let (n, s) ← number 10 none true 65535 s
  some (n.toUInt16, s)

/-- Read a scope, if there is one. -/
def scope : Reader UInt32 := fun s =>
  match (do let (_, s) ← char '%' s; number 10 none true 4294967295 s : Option (Nat × List Char)) with
  | some (n, s) => some (n.toUInt32, s)
  | none => some (0, s)

def socketV4 : Reader SocketAddress := fun s => do
  let (ip, s) ← ipv4 s
  let (p, s) ← port s
  some (.v4 ip p, s)

def socketV6 : Reader SocketAddress := fun s => do
  let (_, s) ← char '[' s
  let (ip, s) ← ipv6 s
  let (scope, s) ← scope s
  let (_, s) ← char ']' s
  let (p, s) ← port s
  some (.v6 ip scope p, s)

end Reader

/-- The address that a whole text spells. -/
def SocketAddress.parse? (s : String) : Option SocketAddress :=
  match (Reader.socketV4 s.toList).orElse fun _ => Reader.socketV6 s.toList with
  | some (address, []) => some address
  | _ => none

end ChunkRouter.Net
