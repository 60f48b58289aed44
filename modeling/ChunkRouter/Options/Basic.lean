import ChunkRouter.Frame.Limits
import ChunkRouter.Net.SocketAddress
import ChunkRouter.Router.Config
import ChunkRouter.Work.Settings

/-!
# Options

What a user may set on the command line, with the defaults and the help text.
-/

namespace ChunkRouter

structure Options where
  listen : Net.SocketAddress
  maxChunkLen : Nat
  fragmentSize : Nat
  bulkSize : Nat
  batchLanes : Nat
  maxPendingReplies : Nat
  metricsAddr : Option Net.SocketAddress
  deriving DecidableEq, Repr

namespace Options

def standard : Options where
  listen := Router.defaultListen
  maxChunkLen := Frame.defaultMaxChunkLen
  fragmentSize := Frame.defaultFragmentSize
  bulkSize := Work.defaultBulkSize
  batchLanes := Router.defaultBatchLanes
  maxPendingReplies := Router.defaultMaxPendingReplies
  metricsAddr := none

/-- What is set by an option that takes a value. -/
inductive Key where
  | listen
  | maxChunkLen
  | fragmentSize
  | bulkSize
  | batchLanes
  | maxPendingReplies
  | metricsAddr
  deriving DecidableEq, Repr

namespace Key

def all : List Key :=
  [.listen, .maxChunkLen, .fragmentSize, .bulkSize, .batchLanes, .maxPendingReplies, .metricsAddr]

/-- The name after two dashes. -/
def long : Key → String
  | .listen => "listen"
  | .maxChunkLen => "max-chunk-len"
  | .fragmentSize => "fragment-size"
  | .bulkSize => "bulk-size"
  | .batchLanes => "batch-lanes"
  | .maxPendingReplies => "max-pending-replies"
  | .metricsAddr => "metrics-addr"

/-- The letter after one dash. -/
def short? : Key → Option Char
  | .listen => some 'l'
  | _ => none

/-- What stands for the value in the help text. -/
def valueName (k : Key) : String := (k.long.map fun c => if c = '-' then '_' else c).toUpper

def about : Key → String
  | .listen => "Address to accept connections on"
  | .maxChunkLen => "Largest chunk body accepted or produced, in bytes"
  | .fragmentSize => "Size of the fragments replies are written in, in bytes"
  | .bulkSize => "Maximum requests handed to the visitor per drain turn"
  | .batchLanes => "Lanes batch items are spread across per connection"
  | .maxPendingReplies => "Replies owed to a peer before the router stops reading from it"
  | .metricsAddr => "Serve Prometheus metrics on this address"

/-- The text of the value an option has. -/
def show? (o : Options) : Key → Option String
  | .listen => some o.listen.render
  | .maxChunkLen => some (toString o.maxChunkLen)
  | .fragmentSize => some (toString o.fragmentSize)
  | .bulkSize => some (toString o.bulkSize)
  | .batchLanes => some (toString o.batchLanes)
  | .maxPendingReplies => some (toString o.maxPendingReplies)
  | .metricsAddr => o.metricsAddr.map (·.render)

def ofLong? (name : String) : Option Key := all.find? fun k => k.long = name

def ofShort? (c : Char) : Option Key := all.find? fun k => k.short? = some c

end Key

/-- Read a number below `2 ^ 64`: digits, perhaps after a plus sign. -/
def readNumber? (s : String) : Option Nat :=
  let digits := match s.toList with
    | '+' :: rest => rest
    | cs => cs
  match Net.Reader.number 10 none true 18446744073709551615 digits with
  | some (n, []) => some n
  | _ => none

/-- Set an option from the text of its value. -/
def set? (o : Options) (k : Key) (value : String) : Option Options :=
  match k with
  | .listen => (Net.SocketAddress.parse? value).map fun a => { o with listen := a }
  | .maxChunkLen => (readNumber? value).map fun n => { o with maxChunkLen := n }
  | .fragmentSize => (readNumber? value).map fun n => { o with fragmentSize := n }
  | .bulkSize => (readNumber? value).map fun n => { o with bulkSize := n }
  | .batchLanes => (readNumber? value).map fun n => { o with batchLanes := n }
  | .maxPendingReplies => (readNumber? value).map fun n => { o with maxPendingReplies := n }
  | .metricsAddr => (Net.SocketAddress.parse? value).map fun a => { o with metricsAddr := some a }

/-- The configuration of the router that the options ask for. -/
def config (o : Options) : Except Work.SettingsError Router.Config :=
  (Work.Settings.make Work.defaultInitialCapacity Work.defaultBucketSize o.bulkSize).map fun queue =>
    { Router.Config.standard with
        listen := o.listen
        frame := .clamp o.maxChunkLen o.fragmentSize
        queue := queue }.withBatchLanes o.batchLanes |>.withMaxPendingReplies o.maxPendingReplies

/-! ## Texts -/

def programName : String := "relaycore"

def version : String := programName ++ " 0.1.0\n"

/-- An entry of the help text: how an option is written, and what it is about below. -/
def helpEntry (written about : String) : String := written ++ "\n          " ++ about ++ "\n"

def Key.help (k : Key) : String :=
  let front := match k.short? with
    | some c => "  -" ++ c.toString ++ ", --"
    | none => "      --"
  let default := match k.show? standard with
    | some s => " [default: " ++ s ++ "]"
    | none => ""
  helpEntry (front ++ k.long ++ " <" ++ k.valueName ++ ">") (k.about ++ default)

def usage : String := "Usage: " ++ programName ++ " [OPTIONS]\n"

def help : String :=
  "Length-prefixed echo router\n\n" ++ usage ++ "\nOptions:\n" ++
    String.join (Key.all.map Key.help) ++ helpEntry "  -h, --help" "Print help" ++
    helpEntry "  -V, --version" "Print version"

end Options

end ChunkRouter
