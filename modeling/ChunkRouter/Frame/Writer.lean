import ChunkRouter.Frame.Error
import ChunkRouter.Frame.Header
import ChunkRouter.Frame.Limits
import ChunkRouter.Memory
import ChunkRouter.Metric

/-!
# Writing chunks

A writer stages the body of one chunk in blocks, completes it into fragments, and hands the fragments to
a transport that may take any number of bytes at a time. Two quantities describe a writer:
`staged`, the body under construction, and `unsent`, the wire bytes not yet taken.

The front fragment is what is left of it. How many of its bytes were taken is kept beside it, and nothing is
decided by that number: only a writer in memory, whose fragments stay whole, needs it.
-/

namespace ChunkRouter.Frame

/-- A piece of a completed chunk; `last` marks the one that ends the chunk. -/
structure Fragment where
  unsent : Bytes
  last : Bool
  deriving DecidableEq, Repr

structure Writer where
  limits : Limits
  /-- The blocks of the chunk under construction, the latest first. The first one to be opened
  starts with room for the length prefix. -/
  blocks : List Bytes
  stagedLen : Nat
  /-- Fragments of completed chunks in the order of the wire; the front one shrinks as it is sent. -/
  ready : List Fragment
  /-- How many bytes of the front fragment were taken. -/
  offset : Nat
  /-- Emptied blocks kept for later. -/
  spare : List Bytes
  chunksWritten : Nat
  meter : Meter
  deriving DecidableEq, Repr

/-- The bytes a drained writer gave, and how they were cut into fragments. -/
structure Drained where
  writer : Writer
  wire : Bytes
  fragments : List Nat

namespace Writer

/-- More emptied blocks than this are not kept. -/
def spareLimit : Nat := 16

def new (limits : Limits) : Writer where
  limits := limits
  blocks := []
  stagedLen := 0
  ready := []
  offset := 0
  spare := []
  chunksWritten := 0
  meter := .empty

/-- The body under construction. -/
def staged (w : Writer) : Bytes := w.blocks.reverse.flatten.drop prefixSize

/-- The wire bytes the transport has not taken. -/
def unsent (w : Writer) : Bytes := w.ready.flatMap (·.unsent)

/-- What is left to send of the fragment in flight. -/
def current? (w : Writer) : Option Bytes := w.ready.head?.map (·.unsent)

def fragmentCount (w : Writer) : Nat := w.ready.length

def hasPending (w : Writer) : Bool := !w.ready.isEmpty

/-- Keep a used block for later, emptied, unless enough are kept. -/
def recycle (w : Writer) (block : Bytes) : Writer :=
  if w.spare.length < spareLimit then { w with spare := block.take 0 :: w.spare } else w

/-- Start a block with `bytes`, in a kept one if there is any. -/
def openBlock (w : Writer) (bytes : Bytes) : Writer :=
  match w.spare with
  | [] => { w with blocks := bytes :: w.blocks }
  | block :: spare => { w with blocks := (block ++ bytes) :: w.blocks, spare := spare }

/-- Start blocks until `bytes` are used up. -/
def openBlocks (w : Writer) (bytes : Bytes) : Writer :=
  match bytes with
  | [] => w
  | b :: rest =>
    (w.openBlock ((b :: rest).take w.limits.fragmentSize)).openBlocks
      ((b :: rest).drop w.limits.fragmentSize)
termination_by bytes.length
decreasing_by
  have := w.limits.fragmentSize_pos
  simp only [List.length_drop, List.length_cons]
  omega

/-- Fill up the latest block, then start new ones. -/
def stage (w : Writer) (bytes : Bytes) : Writer :=
  match w.blocks with
  | [] => w.openBlocks bytes
  | block :: older =>
    let space := w.limits.fragmentSize - block.length
    { w with blocks := (block ++ bytes.take space) :: older }.openBlocks (bytes.drop space)

/-- Append to the body under construction, unless it would grow beyond the limit. -/
def write (w : Writer) (bytes : Bytes) : Writer × Except FramingError Unit :=
  let size := w.stagedLen + bytes.length
  if w.limits.maxChunkLen < size then (w, .error (.oversized size w.limits.maxChunkLen))
  else
    let opened := if w.blocks.isEmpty then w.openBlock (Bytes.zeros prefixSize) else w
    ({ opened.stage bytes with stagedLen := size }, .ok ())

/-- Ask for the memory to write `n` bytes: blocks of the size of a fragment, unless the write is
refused. -/
def reserve (w : Writer) (n : Nat) : Except Panic Unit :=
  if w.limits.maxChunkLen < w.stagedLen + n then .ok () else Memory.reserve 1 w.limits.fragmentSize

/-- Append to the body under construction, if there is memory for it. -/
def tryWrite (w : Writer) (bytes : Bytes) : Except Panic (Writer × Except FramingError Unit) :=
  (w.reserve bytes.length).map fun _ => w.write bytes

/-- Append one byte. -/
def put (w : Writer) (byte : UInt8) : Writer × Except FramingError Unit := w.write [byte]

/-- Give up the chunk under construction. -/
def discardStaged (w : Writer) : Writer :=
  { w.blocks.reverse.foldl recycle w with blocks := [], stagedLen := 0 }

/-- Blocks in order as the fragments of one chunk. -/
def fragments (blocks : List Bytes) : List Fragment :=
  blocks.dropLast.map (⟨·, false⟩) ++ blocks.getLast?.toList.map (⟨·, true⟩)

/-- Write the length prefix into its place. -/
def patch (length : Nat) : List Bytes → List Bytes
  | [] => []
  | first :: more => (Header.encode length ++ first.drop prefixSize) :: more

/-- Turn the staged body into fragments and tell how many. A chunk has at least one byte, and its length
fits the prefix. -/
def complete (w : Writer) : Writer × Except FramingError Nat :=
  if w.stagedLen = 0 then (w.discardStaged, .error .empty)
  else if maxBodyLen < w.stagedLen then
    (w, .error (.oversized w.stagedLen w.limits.maxChunkLen))
  else
    let pieces := fragments (patch w.stagedLen w.blocks.reverse)
    ({ w with blocks := [], stagedLen := 0, ready := w.ready ++ pieces }, .ok pieces.length)

/-- The front fragment is sent. -/
def finishFragment (w : Writer) : Writer :=
  match w.ready with
  | [] => w
  | done :: ready =>
    let counted := if done.last then
        { w with chunksWritten := w.chunksWritten + 1, meter := w.meter.bump (.chunks .outbound) }
      else w
    { counted with ready := ready, offset := 0 }.recycle done.unsent

/-- The transport took `n` bytes of the current fragment. -/
def advance (w : Writer) (n : Nat) : Writer × Except FramingError Unit :=
  match w.ready with
  | [] => if n = 0 then (w, .ok ()) else (w, .error (.overrun n 0))
  | front :: ready =>
    match Bytes.cut n front.unsent with
    | .error _ => (w, .error (.overrun n front.unsent.length))
    | .ok (_, rest) =>
      let moved := { w with ready := { front with unsent := rest } :: ready, offset := w.offset + n }
      (if n ≠ 0 ∧ rest = [] then moved.finishFragment else moved, .ok ())

/-- Give up everything staged or unsent. -/
def reset (w : Writer) : Writer :=
  let cleared := w.discardStaged
  { cleared.ready.foldl (fun w f => w.recycle f.unsent) cleared with ready := [], offset := 0 }

@[simp] theorem limits_recycle (w : Writer) (block : Bytes) :
    (w.recycle block).limits = w.limits := by
  unfold recycle; split <;> rfl

@[simp] theorem ready_recycle (w : Writer) (block : Bytes) : (w.recycle block).ready = w.ready := by
  unfold recycle; split <;> rfl

theorem ready_finishFragment (w : Writer) : w.finishFragment.ready = w.ready.tail := by
  unfold finishFragment
  split
  · simp [*]
  · simp [*]

/-- Accepting bytes of the current fragment removes them from the front of the unsent bytes. -/
theorem unsent_advance {w : Writer} {front : Fragment} {ready : List Fragment} {n : Nat}
    (h : w.ready = front :: ready) (hn : n ≤ front.unsent.length) :
    (w.advance n).1.unsent = w.unsent.drop n := by
  have hcut : Bytes.cut n front.unsent = .ok (front.unsent.take n, front.unsent.drop n) :=
    Bytes.cut_eq_ok_iff.2 ⟨(List.take_append_drop n _).symm, List.length_take_of_le hn⟩
  simp only [advance, h, hcut, unsent, List.flatMap_cons]
  rw [List.drop_append_of_le_length hn]
  split
  · rename_i hc
    rw [ready_finishFragment]
    simp [hc.2]
  · simp

/-- No more bytes are taken than there are. -/
theorem le_of_advance {w v : Writer} {front : Fragment} {ready : List Fragment} {n : Nat}
    (h : w.ready = front :: ready) (ha : w.advance n = (v, .ok ())) : n ≤ front.unsent.length := by
  simp only [advance, h] at ha
  split at ha
  · cases ha
  · rename_i taken rest hcut
    obtain ⟨hunsent, hn⟩ := Bytes.cut_eq_ok_iff.1 hcut
    rw [hunsent, List.length_append]
    omega

/-- Take everything, at most `more + 1` bytes at a time. `wire` and `sizes` hold what was taken
before and the fragments that were finished, the latest first; `current` counts the bytes taken of
the current fragment. -/
def drainLoop (more : Nat) (w : Writer) (wire : List Bytes) (sizes : List Nat) (current : Nat) :
    Drained :=
  match _h : w.ready with
  | [] => ⟨w, wire.reverse.flatten, sizes.reverse⟩
  | front :: _ =>
    if _he : front.unsent = [] then ⟨w, wire.reverse.flatten, sizes.reverse⟩
    else
      let taken := front.unsent.take (more + 1)
      let n := taken.length
      if front.unsent.drop n = [] then
        drainLoop more (w.advance n).1 (taken :: wire) ((current + n) :: sizes) 0
      else drainLoop more (w.advance n).1 (taken :: wire) sizes (current + n)
termination_by w.unsent.length
decreasing_by
  all_goals
    rw [unsent_advance _h (List.length_take_le' _ _)]
    have hpos : 0 < front.unsent.length := List.length_pos_iff.2 _he
    simp only [unsent, _h, List.flatMap_cons, List.length_drop, List.length_append,
      List.length_take]
    omega

/-- Take everything, at most `step` bytes at a time. -/
def drain (w : Writer) (step : Nat) : Except Panic Drained :=
  if step = 0 then .error .zeroStep else .ok (w.drainLoop (step - 1) [] [] 0)

end Writer

end ChunkRouter.Frame
