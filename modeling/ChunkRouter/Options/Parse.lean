import ChunkRouter.Options.Basic

/-!
# Reading a command line

Arguments are handled from left to right. An option in wait of its value takes the next argument,
unless that looks like an option itself. Its value is looked at when the next known option, or the end
of the line, is reached; an argument that nothing is known about is refused before that.
-/

namespace ChunkRouter.Options

/-- Why a command line gives no options. -/
inductive Refusal where
  | help
  | version
  | unknownArgument
  /-- An option lacks its value. -/
  | missingValue
  /-- A value was given to an option that takes none. -/
  | unwantedValue
  /-- An option was given twice. -/
  | repeated
  /-- A value cannot be read. -/
  | badValue
  deriving DecidableEq, Repr

namespace Refusal

/-- The text a user asked for. -/
def text? : Refusal → Option String
  | .help => some Options.help
  | .version => some Options.version
  | _ => none

/-- A user who asked for a text got what was asked for. -/
def exitCode (r : Refusal) : UInt32 := if r.text?.isSome then 0 else 2

end Refusal

/-- An option whose value was not looked at yet. -/
inductive Pending where
  | none
  /-- The value is the next argument. -/
  | awaiting (k : Key)
  | holding (k : Key) (value : String)
  deriving DecidableEq, Repr

structure ParseState where
  options : Options
  /-- Options that were set. -/
  seen : List Key
  pending : Pending
  /-- Everything from here on is an operand. -/
  operandsOnly : Bool

namespace ParseState

def start : ParseState := ⟨.standard, [], .none, false⟩

/-- Set an option, which was not set before. -/
def assign (s : ParseState) (k : Key) (value : String) : Except Refusal ParseState :=
  if k ∈ s.seen then .error .repeated
  else
    match s.options.set? k value with
    | some options => .ok { s with options := options, seen := k :: s.seen }
    | none => .error .badValue

/-- Look at the value that is pending. -/
def resolve (s : ParseState) : Except Refusal ParseState :=
  let s' := { s with pending := .none }
  match s.pending with
  | .none => .ok s'
  | .awaiting _ => .error .missingValue
  | .holding k value => s'.assign k value

/-- An option without a value. -/
def await (s : ParseState) (k : Key) : Except Refusal ParseState := do
  let s ← s.resolve
  .ok { s with pending := .awaiting k }

/-- An option with its value attached. -/
def attach (s : ParseState) (k : Key) (value : String) : Except Refusal ParseState := do
  let s ← s.resolve
  s.assign k value

/-- A request for a text. -/
def ask (s : ParseState) (r : Refusal) : Except Refusal ParseState := do
  let _ ← s.resolve
  .error r

/-- The argument with `body` after two dashes. -/
def long (s : ParseState) (body : List Char) : Except Refusal ParseState :=
  let name := String.ofList (body.takeWhile (· ≠ '='))
  let value := match body.dropWhile (· ≠ '=') with
    | _ :: rest => some (String.ofList rest)
    | [] => none
  let display? := if name = "help" then some Refusal.help
    else if name = "version" then some Refusal.version
    else none
  match Key.ofLong? name, display?, value with
  | some k, _, some v => s.attach k v
  | some k, _, none => s.await k
  | none, some _, some _ => .error .unwantedValue
  | none, some r, none => s.ask r
  | none, none, _ => .error .unknownArgument

/-- The argument with `letter` and then `rest` after one dash. -/
def cluster (s : ParseState) (letter : Char) (rest : List Char) : Except Refusal ParseState :=
  if letter = 'h' then s.ask .help
  else if letter = 'V' then s.ask .version
  else
    match Key.ofShort? letter, rest with
    | none, _ => .error .unknownArgument
    | some k, [] => s.await k
    | some k, '=' :: value => s.attach k (String.ofList value)
    | some k, value => s.attach k (String.ofList value)

/-- An argument that is no option: a value if one is awaited. -/
def operand (s : ParseState) (arg : String) : Except Refusal ParseState :=
  match s.pending with
  | .awaiting k => .ok { s with pending := .holding k arg }
  | _ => .error .unknownArgument

def argument (s : ParseState) (arg : String) : Except Refusal ParseState :=
  if s.operandsOnly then .error .unknownArgument
  else
    match arg.toList with
    | ['-', '-'] => .ok { s with operandsOnly := true }
    | '-' :: '-' :: body => s.long body
    | '-' :: letter :: rest => s.cluster letter rest
    | _ => s.operand arg

end ParseState

/-- The options a command line sets. -/
def parse (args : List String) : Except Refusal Options := do
  let s ← args.foldlM ParseState.argument .start
  let s ← s.resolve
  .ok s.options

end ChunkRouter.Options
