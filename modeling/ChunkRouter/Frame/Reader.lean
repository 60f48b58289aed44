import ChunkRouter.Frame.Error
import ChunkRouter.Frame.Header
import ChunkRouter.Frame.Limits
import ChunkRouter.Frame.Window
import ChunkRouter.Metric
import ChunkRouter.Panic

/-!
# Reading chunks

A reader cuts a byte stream into chunks. It exposes the window the next bytes belong to, and is told
how many of them arrived (`advance`), or is handed bytes that are already at hand (`feed`, `drip`).
A full window settles: a header opens a body, a body is delivered. Any framing error poisons the
reader for good, since the stream can no longer be cut at the right places.
-/

namespace ChunkRouter.Frame

/-- What the next byte belongs to. -/
inductive Phase where
  | header
  | body (length : Nat)
  deriving DecidableEq, Repr

structure Reader where
  limits : Limits
  phase : Phase
  header : Window
  body : Window
  poisoned : Bool
  chunksRead : Nat
  buffersReused : Nat
  meter : Meter
  deriving DecidableEq, Repr

/-- What came of handing bytes over: the chunks delivered meanwhile, and their number or the first
error. -/
structure Delivery where
  reader : Reader
  chunks : List Bytes
  result : Except FramingError Nat

namespace Reader

def new (limits : Limits) : Reader where
  limits := limits
  phase := .header
  header := Window.zeros prefixSize
  body := Window.zeros 0
  poisoned := false
  chunksRead := 0
  buffersReused := 0
  meter := .empty

/-- The window that is being filled. -/
def window (r : Reader) : Window :=
  match r.phase with
  | .header => r.header
  | .body _ => r.body

def setWindow (r : Reader) (w : Window) : Reader :=
  match r.phase with
  | .header => { r with header := w }
  | .body _ => { r with body := w }

/-- The bytes the transport may overwrite next; none once the reader is poisoned. -/
def target (r : Reader) : Bytes := if r.poisoned then [] else r.window.room

/-- How many bytes the transport may write next. -/
def space (r : Reader) : Nat := if r.poisoned then 0 else r.window.space

@[simp] theorem length_target (r : Reader) : r.target.length = r.space := by
  unfold target space; split <;> simp

/-- Bytes received of the current header or body. -/
def buffered (r : Reader) : Nat := r.window.filled.length

/-- On a chunk boundary with nothing buffered. -/
def isIdle (r : Reader) : Bool := r.phase == .header && r.header.filled.isEmpty

/-- The length of the body being read, once it is known. -/
def pendingLen? (r : Reader) : Option Nat :=
  match r.phase with
  | .header => none
  | .body length => some length

def poison (r : Reader) : Reader :=
  { r with poisoned := true, meter := r.meter.bump .framingErrors }

/-- Prepare for a body of `length` bytes. A buffer of that very length is used again as it is,
otherwise a zeroed one is taken. -/
def openBody (r : Reader) (length : Nat) : Reader × Except FramingError (Option Bytes) :=
  if length = 0 then (r.poison, .error .empty)
  else if r.limits.maxChunkLen < length then
    (r.poison, .error (.oversized length r.limits.maxChunkLen))
  else
    let kept := r.body.size == length
    ({ r with
        phase := .body length
        header := r.header.rewind
        body := if kept then r.body.rewind else Window.zeros length
        buffersReused := if kept then r.buffersReused + 1 else r.buffersReused },
      .ok none)

/-- Hand the full body over and expect the next header. -/
def deliverBody (r : Reader) : Reader × Except FramingError (Option Bytes) :=
  ({ r with
      phase := .header
      body := r.body.rewind
      chunksRead := r.chunksRead + 1
      meter := r.meter.bump (.chunks .inbound) },
    .ok (some r.body.contents))

/-- Act on the window if it is full: a chunk, an error, or nothing yet. -/
def settle (r : Reader) : Reader × Except FramingError (Option Bytes) :=
  if r.window.isFull then
    match r.phase with
    | .header => r.openBody (Header.decode r.header.contents)
    | .body _ => r.deliverBody
  else (r, .ok none)

/-- Overwrite the front of the target without reporting it. -/
def fill (r : Reader) (bytes : Bytes) : Reader :=
  if r.poisoned then r else r.setWindow (r.window.fill bytes)

/-- `n` bytes of the target were written: at most one chunk is complete now. -/
def advance (r : Reader) (n : Nat) : Reader × Except FramingError (Option Bytes) :=
  if r.poisoned then (r, .error .poisoned)
  else
    match r.window.advance? n with
    | none => (r.poison, .error (.overrun n r.window.space))
    | some w => (r.setWindow w).settle

/-- Hand over `wire` in pieces of at most `more + 1` bytes, none of which crosses the end of a
window. `acc` holds the chunks delivered before, the latest first. -/
def deliver (more : Nat) (r : Reader) (acc : List Bytes) (wire : Bytes) :
    Reader × List Bytes × Option FramingError :=
  match wire with
  | [] => (r, acc, none)
  | b :: bytes =>
    match if r.poisoned then none else r.window.push? b with
    | none => (r, acc, some .poisoned)
    | some w =>
      let piece := Window.pour more bytes w
      match (r.setWindow piece.1).settle with
      | (r', .error e) => (r', acc, some e)
      | (r', .ok none) => deliver more r' acc piece.2
      | (r', .ok (some chunk)) => deliver more r' (chunk :: acc) piece.2
termination_by wire.length
decreasing_by
  all_goals
    exact Nat.lt_succ_of_le (Window.length_pour_le more bytes w)

/-- Deliver and sum up. -/
def delivery (more : Nat) (r : Reader) (wire : Bytes) : Delivery :=
  match r.deliver more [] wire with
  | (r', acc, none) => ⟨r', acc.reverse, .ok acc.length⟩
  | (r', acc, some e) => ⟨r', acc.reverse, .error e⟩

/-- Hand over all of `wire`, in pieces as large as the windows. -/
def feed (r : Reader) (wire : Bytes) : Delivery := r.delivery wire.length wire

/-- Hand over all of `wire`, at most `step` bytes at a time. -/
def drip (r : Reader) (wire : Bytes) (step : Nat) : Except Panic Delivery :=
  if step = 0 then .error .zeroStep else .ok (r.delivery (step - 1) wire)

end Reader

end ChunkRouter.Frame
