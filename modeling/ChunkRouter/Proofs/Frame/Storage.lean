import ChunkRouter.Proofs.Frame.Layout
import ChunkRouter.Proofs.Frame.Outbox

/-!
# Writers in memory

In memory the completed fragments of a writer stay whole until all of their bytes are taken, and an offset
tells how much of the front one was; bytes are written in rounds, each of which fills one block. `Storage` is
that writer, and as with `Layout` its operations check what they do: a slice out of the range of its block, a
difference below zero, and a round that takes nothing are panics. `storage_keeps_bounds` says that no check
fails, and that a fragment which shrinks from its front shows the same as the whole one and the offset.
-/

namespace ChunkRouter.Frame

/-- A completed fragment as it lies in memory. -/
structure Piece where
  bytes : Bytes
  last : Bool

/-- What of a fragment is left when some of its bytes were taken. -/
def Piece.rest (offset : Nat) (p : Piece) : Fragment := ⟨p.bytes.drop offset, p.last⟩

/-- A writer as it lies in memory. -/
structure Storage where
  limits : Limits
  /-- The blocks of the chunk under construction, the latest first. -/
  staging : List Bytes
  stagedLen : Nat
  ready : List Piece
  /-- How many bytes of the front piece were taken. -/
  offset : Nat
  /-- Emptied blocks, the one to be used next first. -/
  spare : List Bytes
  chunksWritten : Nat
  meter : Meter

namespace Storage

/-- A writer that nothing was done to. -/
def new (limits : Limits) : Storage where
  limits := limits
  staging := []
  stagedLen := 0
  ready := []
  offset := 0
  spare := []
  chunksWritten := 0
  meter := .empty

/-! ## Checked operations -/

/-- Start a block with `bytes`, in a kept one if there is any. -/
def openBlock (s : Storage) (bytes : Bytes) : Storage :=
  match s.spare with
  | [] => { s with staging := bytes :: s.staging }
  | block :: spare => { s with staging := (block ++ bytes) :: s.staging, spare := spare }

def recycle (s : Storage) (block : Bytes) : Storage :=
  if s.spare.length < Writer.spareLimit then { s with spare := block.take 0 :: s.spare } else s

/-- There is no block with room left. -/
def isPacked (s : Storage) : Bool :=
  match s.staging with
  | [] => true
  | latest :: _ => latest.length == s.limits.fragmentSize

/-- Append to the latest block as many bytes as it has room for. The others come back. -/
def fillBlock (s : Storage) (bytes : Bytes) : Except Panic (Storage × Bytes) :=
  match s.staging with
  | [] => .ok (s, [])
  | latest :: older => do
    let n := min (← difference s.limits.fragmentSize latest.length) bytes.length
    let front ← slice bytes 0 n
    let rest ← slice bytes n bytes.length
    return ({ s with staging := (latest ++ front) :: older, stagedLen := s.stagedLen + n }, rest)

/-- One round of writing. -/
def round (s : Storage) (bytes : Bytes) : Except Panic (Storage × Bytes) :=
  (if s.isPacked then s.openBlock [] else s).fillBlock bytes

/-- Write in rounds until no bytes are left. -/
def writeLoop (s : Storage) (bytes : Bytes) : Except Panic Storage :=
  if bytes = [] then .ok s
  else
    match s.round bytes with
    | .error panic => .error panic
    | .ok (s', rest) => if rest.length < bytes.length then writeLoop s' rest else .error endlessLoop
termination_by bytes.length

/-- Append to the body under construction, unless it would grow beyond the limit. -/
def write (s : Storage) (bytes : Bytes) : Except Panic (Storage × Except FramingError Unit) :=
  let size := s.stagedLen + bytes.length
  if s.limits.maxChunkLen < size then .ok (s, .error (.oversized size s.limits.maxChunkLen))
  else
    let opened := if s.staging.isEmpty then s.openBlock (Bytes.zeros prefixSize) else s
    (opened.writeLoop bytes).map (·, .ok ())

/-- Give up the chunk under construction. -/
def discardStaged (s : Storage) : Storage :=
  { s.staging.reverse.foldl recycle s with staging := [], stagedLen := 0 }

/-- Write the length prefix over the front of the first block. -/
def patch (length : Nat) : List Bytes → Except Panic (List Bytes)
  | [] => .ok []
  | first :: more => do
    let _ ← slice first 0 prefixSize
    return Layout.overwrite 0 (Header.encode length) first :: more

/-- Blocks in order as the pieces of one chunk. -/
def pieces (blocks : List Bytes) : List Piece :=
  blocks.zipIdx.map fun (bytes, i) => ⟨bytes, i + 1 == blocks.length⟩

/-- Turn the staged body into pieces and tell how many. -/
def complete (s : Storage) : Except Panic (Storage × Except FramingError Nat) :=
  if s.stagedLen = 0 then .ok (s.discardStaged, .error .empty)
  else if maxBodyLen < s.stagedLen then
    .ok (s, .error (.oversized s.stagedLen s.limits.maxChunkLen))
  else do
    let blocks ← patch s.stagedLen s.staging.reverse
    return ({ s with staging := [], stagedLen := 0, ready := s.ready ++ pieces blocks }, .ok blocks.length)

/-- What is left to send of the front piece. -/
def current? (s : Storage) : Except Panic (Option Bytes) :=
  match s.ready with
  | [] => .ok none
  | front :: _ => (slice front.bytes s.offset front.bytes.length).map some

/-- The front piece is sent. -/
def finishPiece (s : Storage) : Storage :=
  match s.ready with
  | [] => { s with offset := 0 }
  | done :: ready =>
    let counted := if done.last then
        { s with chunksWritten := s.chunksWritten + 1, meter := s.meter.bump (.chunks .outbound) }
      else s
    { counted with ready := ready, offset := 0 }.recycle done.bytes

/-- The transport took `n` of the `available` bytes that are left of the front piece. -/
def took (s : Storage) (available n : Nat) : Storage × Except FramingError Unit :=
  if available < n then (s, .error (.overrun n available))
  else
    let moved := { s with offset := s.offset + n }
    (if 0 < n ∧ moved.offset = (s.ready.head?.map (·.bytes.length)).getD 0 then moved.finishPiece else moved,
      .ok ())

/-- The transport took `n` bytes of the front piece. -/
def advance (s : Storage) (n : Nat) : Except Panic (Storage × Except FramingError Unit) :=
  s.current?.map fun current? => s.took ((current?.map (·.length)).getD 0) n

/-- Give up everything staged or unsent. -/
def reset (s : Storage) : Storage :=
  let cleared := s.discardStaged
  { cleared.ready.foldl (fun s p => s.recycle p.bytes) cleared with ready := [], offset := 0 }

/-- A call on a writer in memory. -/
def attempt (s : Storage) : Call → Except Panic (Storage × Answer)
  | .write bytes => (s.write bytes).map fun (s, result) => (s, .done result)
  | .put byte => (s.write [byte]).map fun (s, result) => (s, .done result)
  | .sink bytes =>
    (s.write bytes).map fun (s, result) =>
      (s, .sunk ((result.map fun _ => bytes.length).mapError .ofFraming))
  | .complete => s.complete.map fun (s, result) => (s, .count result)
  | .advance n => (s.advance n).map fun (s, result) => (s, .done result)
  | .reset => .ok (s.reset, .done (.ok ()))

/-- The writer after a call; a caller that panics leaves it as it is. -/
def operate (s : Storage) (c : Call) : Storage :=
  match s.attempt c with
  | .ok (s', _) => s'
  | .error _ => s

/-! ## What is shown -/

/-- The pieces as they are left. -/
def left (offset : Nat) : List Piece → List Fragment
  | [] => []
  | front :: ready => front.rest offset :: ready.map (·.rest 0)

/-- The writer that is in memory. -/
def writer (s : Storage) : Writer where
  limits := s.limits
  blocks := s.staging
  stagedLen := s.stagedLen
  ready := left s.offset s.ready
  offset := s.offset
  spare := s.spare
  chunksWritten := s.chunksWritten
  meter := s.meter

section

variable {s : Storage} {n : Nat} {bytes : Bytes}

theorem writer_openBlock (s : Storage) (bytes : Bytes) :
    (s.openBlock bytes).writer = s.writer.openBlock bytes := by
  obtain ⟨limits, staging, stagedLen, ready, offset, _ | ⟨block, spare⟩, written, meter⟩ := s <;> rfl

theorem writer_recycle (s : Storage) (block : Bytes) :
    (s.recycle block).writer = s.writer.recycle block := by
  unfold recycle Writer.recycle
  show writer (if s.spare.length < Writer.spareLimit then _ else _) =
    if s.spare.length < Writer.spareLimit then _ else _
  split <;> rfl

theorem writer_foldl_recycle (s : Storage) (blocks : List Bytes) :
    (blocks.foldl recycle s).writer = blocks.foldl Writer.recycle s.writer := by
  induction blocks generalizing s with
  | nil => rfl
  | cons block blocks ih => rw [List.foldl_cons, List.foldl_cons, ih, writer_recycle]

/-! ## Writing -/

/-- The latest block has room, or none that it lacks. -/
theorem fillBlock_eq {latest : Bytes} {older : List Bytes} (h : s.staging = latest :: older)
    (hle : latest.length ≤ s.limits.fragmentSize) (bytes : Bytes) :
    let n := min (s.limits.fragmentSize - latest.length) bytes.length
    s.fillBlock bytes =
      .ok ({ s with staging := (latest ++ bytes.take n) :: older, stagedLen := s.stagedLen + n },
        bytes.drop n) := by
  intro n
  have hn : n ≤ bytes.length := Nat.min_le_right _ _
  have hfront : slice bytes 0 n = .ok (bytes.take n) := by
    rw [slice_eq_ok (Nat.zero_le _) hn, List.drop_zero]
  have hrest : slice bytes n bytes.length = .ok (bytes.drop n) := by
    rw [slice_eq_ok hn (Nat.le_refl _), List.take_length]
  simp only [fillBlock, h, difference_eq_ok hle]
  show (slice bytes 0 n >>= _) = _
  rw [hfront]
  show (slice bytes n bytes.length >>= _) = _
  rw [hrest]
  rfl

/-! ### One block after the other -/

section

variable {w : Writer} {latest : Bytes} {older : List Bytes}

theorem openBlock_stagedLen (w : Writer) (bytes : Bytes) (k : Nat) :
    Writer.openBlock { w with stagedLen := k } bytes = { w.openBlock bytes with stagedLen := k } := by
  obtain ⟨limits, blocks, stagedLen, ready, offset, _ | ⟨block, spare⟩, written, meter⟩ := w <;> rfl

theorem openBlocks_stagedLen (w : Writer) (bytes : Bytes) (k : Nat) :
    Writer.openBlocks { w with stagedLen := k } bytes = { w.openBlocks bytes with stagedLen := k } := by
  fun_induction Writer.openBlocks w bytes with
  | case1 w => rw [Writer.openBlocks]
  | case2 w b rest ih => rw [Writer.openBlocks, openBlock_stagedLen, ← ih]

/-- The count of what was staged has no part in staging. -/
theorem stage_stagedLen (w : Writer) (bytes : Bytes) (k : Nat) :
    Writer.stage { w with stagedLen := k } bytes = { w.stage bytes with stagedLen := k } := by
  obtain ⟨limits, _ | ⟨latest, older⟩, stagedLen, ready, offset, spare, written, meter⟩ := w
  · exact openBlocks_stagedLen _ _ _
  · exact openBlocks_stagedLen ⟨limits, (latest ++ bytes.take (limits.fragmentSize - latest.length)) :: older,
      stagedLen, ready, offset, spare, written, meter⟩ _ k

theorem stage_of_full (h : w.blocks = latest :: older) (hfull : latest.length = w.limits.fragmentSize)
    (bytes : Bytes) : w.stage bytes = w.openBlocks bytes := by
  have hspace : w.limits.fragmentSize - latest.length = 0 := by omega
  simp only [Writer.stage, h, hspace, List.take_zero, List.append_nil, List.drop_zero]
  rw [← h]

theorem stage_nil (h : w.blocks = latest :: older) : w.stage [] = w := by
  simp only [Writer.stage, h, List.take_nil, List.append_nil, List.drop_nil]
  rw [Writer.openBlocks, ← h]

/-- Staging fills up the latest block first. -/
theorem stage_fill (h : w.blocks = latest :: older) (hle : latest.length ≤ w.limits.fragmentSize)
    (bytes : Bytes) :
    let n := min (w.limits.fragmentSize - latest.length) bytes.length
    Writer.stage { w with blocks := (latest ++ bytes.take n) :: older } (bytes.drop n) =
      w.stage bytes := by
  intro n
  have hstage : w.stage bytes =
      Writer.openBlocks { w with blocks := (latest ++ bytes.take n) :: older } (bytes.drop n) := by
    have htake : bytes.take (w.limits.fragmentSize - latest.length) = bytes.take n :=
      List.take_eq_take_min
    have hdrop : bytes.drop (w.limits.fragmentSize - latest.length) = bytes.drop n := by
      by_cases hlt : bytes.length ≤ w.limits.fragmentSize - latest.length
      · rw [List.drop_eq_nil_of_le hlt, List.drop_eq_nil_of_le (by omega)]
      · rw [show n = w.limits.fragmentSize - latest.length by omega]
    simp only [Writer.stage, h, htake, hdrop]
  rw [hstage]
  by_cases hdone : bytes.drop n = []
  · rw [hdone, stage_nil rfl, Writer.openBlocks]
  · -- bytes are left, so the block is full
    have hlt : n < bytes.length := Nat.lt_of_not_le fun hge => hdone (List.drop_eq_nil_of_le hge)
    refine stage_of_full rfl ?_ _
    show (latest ++ bytes.take n).length = w.limits.fragmentSize
    rw [List.length_append, List.length_take]
    omega

/-- Behind a full block staging starts a new one. -/
theorem stage_openBlock (h : w.blocks = latest :: older) (hclean : w.Clean)
    (hfull : latest.length = w.limits.fragmentSize) {bytes : Bytes} (hne : bytes ≠ []) :
    (w.openBlock []).stage bytes = w.stage bytes := by
  obtain ⟨b, rest, rfl⟩ := List.exists_cons_of_ne_nil hne
  rw [stage_of_full h hfull, Writer.openBlocks, Writer.openBlock_eq hclean, Writer.openBlock_eq hclean]
  rfl

end

/-- The latest block is no larger than a fragment. -/
def Open (s : Storage) : Prop :=
  ∃ latest older, s.staging = latest :: older ∧ latest.length ≤ s.limits.fragmentSize

/-- A round leaves fewer bytes to be staged, and the same to come of staging them. -/
theorem round_eq (hopen : s.Open) (hclean : s.writer.Clean) (hne : bytes ≠ []) :
    ∃ s' rest, s.round bytes = .ok (s', rest) ∧ rest.length < bytes.length ∧ s'.Open ∧ s'.writer.Clean ∧
      { s'.writer.stage rest with stagedLen := s'.stagedLen + rest.length } =
        { s.writer.stage bytes with stagedLen := s.stagedLen + bytes.length } := by
  obtain ⟨latest, older, hstaging, hle⟩ := hopen
  have hpos : 0 < bytes.length := List.length_pos_iff.2 hne
  have hsize := s.limits.fragmentSize_pos
  -- a round in which the latest block has room
  have hround : ∀ (s : Storage) latest older, s.staging = latest :: older →
      latest.length < s.limits.fragmentSize → s.writer.Clean →
      ∃ s' rest, s.fillBlock bytes = .ok (s', rest) ∧ rest.length < bytes.length ∧ s'.Open ∧
        s'.writer.Clean ∧ { s'.writer.stage rest with stagedLen := s'.stagedLen + rest.length } =
          { s.writer.stage bytes with stagedLen := s.stagedLen + bytes.length } := by
    intro s latest older hstaging hlt hclean
    have hfill := fillBlock_eq hstaging (Nat.le_of_lt hlt) bytes
    have hstage := stage_fill (w := s.writer) hstaging (Nat.le_of_lt hlt) bytes
    generalize hn : min (s.limits.fragmentSize - latest.length) bytes.length = n at hfill
    replace hstage : Writer.stage { s.writer with blocks := (latest ++ bytes.take n) :: older }
        (bytes.drop n) = s.writer.stage bytes := by
      rw [← hn]
      exact hstage
    refine ⟨_, _, hfill, ?_, ⟨_, older, rfl, ?_⟩, hclean, ?_⟩
    · rw [List.length_drop]
      omega
    · show (latest ++ bytes.take n).length ≤ s.limits.fragmentSize
      rw [List.length_append, List.length_take]
      omega
    · rw [← hstage, List.length_drop, show s.stagedLen + n + (bytes.length - n) = s.stagedLen + bytes.length by
        omega, ← stage_stagedLen, ← stage_stagedLen]
      rfl
  unfold round
  by_cases hfull : latest.length = s.limits.fragmentSize
  · have hpacked : s.isPacked = true := by
      simp only [isPacked, hstaging]
      exact beq_iff_eq.2 hfull
    have hnew : s.writer.openBlock [] = { s.writer with
        blocks := [] :: s.staging, spare := s.spare.tail } := Writer.openBlock_eq hclean []
    rw [if_pos hpacked]
    have hwriter := writer_openBlock s []
    have hstage := stage_openBlock (w := s.writer) hstaging hclean hfull hne
    rw [← hwriter] at hstage
    have hlimits : (s.openBlock []).limits = s.limits := by
      show (s.openBlock []).writer.limits = s.limits
      rw [hwriter, hnew]
      rfl
    have hlen : (s.openBlock []).stagedLen = s.stagedLen := by
      show (s.openBlock []).writer.stagedLen = s.stagedLen
      rw [hwriter, hnew]
      rfl
    have hblocks : (s.openBlock []).staging = [] :: s.staging := by
      show (s.openBlock []).writer.blocks = [] :: s.staging
      rw [hwriter, hnew]
    have hclean' : (s.openBlock []).writer.Clean := by
      rw [hwriter]
      exact hclean.openBlock []
    rw [← hstage, ← hlen]
    exact hround (s.openBlock []) [] s.staging hblocks (hlimits ▸ hsize) hclean'
  · have hpacked : ¬ s.isPacked = true := by
      simp only [isPacked, hstaging]
      exact mt beq_iff_eq.1 hfull
    rw [if_neg hpacked]
    exact hround s latest older hstaging (Nat.lt_of_le_of_ne hle hfull) hclean

/-- Writing in rounds is staging. -/
theorem writeLoop_eq (hopen : s.Open) (hclean : s.writer.Clean) (bytes : Bytes) :
    ∃ s', s.writeLoop bytes = .ok s' ∧
      s'.writer = { s.writer.stage bytes with stagedLen := s.stagedLen + bytes.length } := by
  induction hlen : bytes.length using Nat.strongRecOn generalizing s bytes with
  | ind size ih =>
  rw [writeLoop]
  by_cases hne : bytes = []
  · obtain ⟨latest, older, hstaging, -⟩ := hopen
    subst hlen
    rw [if_pos hne, hne, stage_nil hstaging]
    exact ⟨s, rfl, rfl⟩
  · obtain ⟨s', rest, hround, hlt, hopen', hclean', hstage⟩ := round_eq hopen hclean hne
    obtain ⟨s'', hloop, hwriter⟩ := ih rest.length (hlen ▸ hlt) hopen' hclean' rest rfl
    rw [if_neg hne, hround, ← hlen, ← hstage]
    show ∃ s'', (if rest.length < bytes.length then s'.writeLoop rest else _) = _ ∧ _
    rw [if_pos hlt]
    exact ⟨s'', hloop, hwriter⟩

/-- A write in memory is a write. -/
theorem write_eq (h : s.writer.Sound) (bytes : Bytes) :
    ∃ s', s.write bytes = .ok (s', (s.writer.write bytes).2) ∧ s'.writer = (s.writer.write bytes).1 := by
  by_cases hle : s.stagedLen + bytes.length ≤ s.limits.maxChunkLen
  · have hopened : (if s.staging.isEmpty then s.openBlock (Bytes.zeros prefixSize) else s).writer =
        s.writer.opened := by
      unfold Writer.opened
      show writer (if s.staging.isEmpty then _ else _) = if s.staging.isEmpty then _ else _
      split
      · exact writer_openBlock s _
      · rfl
    obtain ⟨hsound, hne, -, hothers⟩ := h.opened
    unfold write
    generalize (if s.staging.isEmpty then s.openBlock (Bytes.zeros prefixSize) else s) = opened at hopened ⊢
    rw [← hopened] at hsound hne
    obtain ⟨latest, older, hstaging⟩ := List.exists_cons_of_ne_nil hne
    have hpacked : Writer.Packed opened.limits.fragmentSize (latest :: older) := by
      rw [← hstaging]
      exact hsound.packed
    obtain ⟨s', hloop, hwriter⟩ := writeLoop_eq ⟨latest, older, hstaging, hpacked.2.1⟩ hsound.clean bytes
    have hlen : opened.stagedLen = s.stagedLen := by
      show opened.writer.stagedLen = s.stagedLen
      rw [hopened, hothers]
      rfl
    refine ⟨s', ?_, ?_⟩
    · rw [Writer.write_eq (w := s.writer) hle]
      dsimp only
      rw [if_neg (Nat.not_lt.2 hle), hloop]
      rfl
    · rw [Writer.write_eq (w := s.writer) hle, hwriter, hopened, hlen]
      rfl
  · have hlt := Nat.not_le.1 hle
    refine ⟨s, ?_, ?_⟩
    · rw [Writer.write_of_lt (w := s.writer) hlt]
      exact if_pos hlt
    · rw [Writer.write_of_lt (w := s.writer) hlt]

/-! ## Completing -/

theorem writer_discardStaged (s : Storage) : s.discardStaged.writer = s.writer.discardStaged := by
  have hrecycle := writer_foldl_recycle s s.staging.reverse
  unfold Writer.discardStaged
  show _ = { s.staging.reverse.foldl Writer.recycle s.writer with blocks := [], stagedLen := 0 }
  rw [← hrecycle]
  rfl

theorem patch_eq {blocks : List Bytes} (h : ∀ first more, blocks = first :: more → prefixSize ≤ first.length)
    (length : Nat) : patch length blocks = .ok (Writer.patch length blocks) := by
  rcases blocks with _ | ⟨first, more⟩
  · rfl
  · have hslice := slice_eq_ok (Nat.zero_le prefixSize) (h first more rfl)
    show (slice first 0 prefixSize >>= _) = _
    rw [hslice]
    show Except.ok (Layout.overwrite 0 (Header.encode length) first :: more) = _
    rw [Layout.overwrite, List.take_zero, List.nil_append, Nat.zero_add]
    rfl

/-- The last of the blocks ends the chunk. -/
theorem map_rest_pieces (blocks : List Bytes) :
    (pieces blocks).map (·.rest 0) = Writer.fragments blocks := by
  rcases List.eq_nil_or_concat blocks with rfl | ⟨front, last, rfl⟩
  · rfl
  · have hfront : (front.zipIdx.map fun x => (⟨x.1, x.2 == front.length⟩ : Fragment)) =
        front.map (⟨·, false⟩) := by
      calc (front.zipIdx.map fun x => (⟨x.1, x.2 == front.length⟩ : Fragment))
        _ = front.zipIdx.map fun x => ⟨x.1, false⟩ := List.map_congr_left fun x hx => by
            have hlt := List.snd_lt_of_mem_zipIdx hx
            rw [beq_eq_false_iff_ne.2 (by omega)]
        _ = (front.zipIdx.map Prod.fst).map (⟨·, false⟩) := by rw [List.map_map]; rfl
        _ = front.map (⟨·, false⟩) := by rw [List.zipIdx_map_fst]
    simp [pieces, Writer.fragments, Piece.rest, Function.comp_def, List.zipIdx_append, hfront]

theorem left_append (h : s.ready = [] → s.offset = 0) (more : List Piece) :
    left s.offset (s.ready ++ more) = left s.offset s.ready ++ more.map (·.rest 0) := by
  cases hready : s.ready with
  | nil =>
    rw [h hready]
    cases more <;> rfl
  | cons front ready =>
    rw [List.cons_append, left, left, List.map_append]
    rfl

/-- A completion in memory is a completion. -/
theorem complete_eq (h : s.writer.Sound) :
    ∃ s', s.complete = .ok (s', s.writer.complete.2) ∧ s'.writer = s.writer.complete.1 := by
  by_cases hnone : s.stagedLen = 0
  · have hcomplete : s.writer.complete = (s.writer.discardStaged, .error .empty) := if_pos hnone
    rw [hcomplete]
    exact ⟨_, if_pos hnone, writer_discardStaged s⟩
  by_cases hmax : maxBodyLen < s.stagedLen
  · have hcomplete : s.writer.complete =
        (s.writer, .error (.oversized s.stagedLen s.limits.maxChunkLen)) :=
      (if_neg hnone).trans (if_pos hmax)
    rw [hcomplete]
    exact ⟨_, (if_neg hnone).trans (if_pos hmax), rfl⟩
  · have hcomplete : s.writer.complete = ({ s.writer with
          blocks := []
          stagedLen := 0
          ready := s.writer.ready ++ Writer.fragments (Writer.patch s.stagedLen s.staging.reverse) },
        .ok (Writer.fragments (Writer.patch s.stagedLen s.staging.reverse)).length) :=
      (if_neg hnone).trans (if_neg hmax)
    have hoffset : s.ready = [] → s.offset = 0 := fun hready => h.offset_of_nil (by
      show left s.offset s.ready = []
      rw [hready]
      rfl)
    have hleft := left_append hoffset (pieces (Writer.patch s.stagedLen s.staging.reverse))
    rw [map_rest_pieces] at hleft
    have hpatch : patch s.stagedLen s.staging.reverse =
        .ok (Writer.patch s.stagedLen s.staging.reverse) :=
      patch_eq (fun first more hfirst => h.prefixSize_le hfirst) s.stagedLen
    rw [hcomplete, Writer.length_fragments, complete, if_neg hnone, if_neg hmax, hpatch]
    refine ⟨_, rfl, ?_⟩
    show Writer.mk _ [] 0 (left s.offset (s.ready ++ _)) _ _ _ _ = _
    rw [hleft]
    rfl

/-! ## Sending -/

/-- A piece that is in flight has bytes left. -/
theorem offset_lt (h : s.writer.Sound) {front : Piece} {ready : List Piece} (hready : s.ready = front :: ready) :
    s.offset < front.bytes.length := by
  have hmem : front.rest s.offset ∈ s.writer.ready := by
    show front.rest s.offset ∈ left s.offset s.ready
    rw [hready]
    exact List.mem_cons_self
  have hne : front.bytes.drop s.offset ≠ [] := h.unsent_ne_nil _ hmem
  exact Nat.lt_of_not_le fun hle => hne (List.drop_eq_nil_of_le hle)

/-- What is in flight is what is left of the front piece. -/
theorem current?_eq (h : s.writer.Sound) : s.current? = .ok s.writer.current? := by
  unfold current? Writer.current?
  show _ = Except.ok (Option.map _ (left s.offset s.ready).head?)
  cases hready : s.ready with
  | nil => rfl
  | cons front ready =>
    have hle : s.offset ≤ front.bytes.length := Nat.le_of_lt (offset_lt h hready)
    show (slice front.bytes s.offset front.bytes.length).map some = _
    rw [slice_eq_ok hle (Nat.le_refl _), List.take_length]
    rfl

theorem left_zero (ready : List Piece) : left 0 ready = ready.map (·.rest 0) := by
  cases ready <;> rfl

/-- Of a block that is kept nothing is kept but the block. -/
theorem recycle_congr (w : Writer) (block block' : Bytes) : w.recycle block = w.recycle block' := by
  rw [Writer.recycle, Writer.recycle, List.take_zero, List.take_zero]

/-- A piece that is sent makes way as a fragment does. -/
theorem writer_finishPiece {front : Piece} {ready : List Piece} (hready : s.ready = front :: ready) :
    s.finishPiece.writer = s.writer.finishFragment := by
  obtain ⟨limits, staging, stagedLen, pieces, offset, spare, written, meter⟩ := s
  cases hready
  unfold finishPiece Writer.finishFragment
  show writer (recycle _ front.bytes) = Writer.recycle _ (front.bytes.drop offset)
  rw [writer_recycle, recycle_congr _ _ (front.bytes.drop offset)]
  obtain ⟨bytes, _ | _⟩ := front <;> exact congrArg (Writer.recycle · _) (congrArg
    (fun r => Writer.mk limits staging stagedLen r 0 spare _ _) (left_zero ready))

/-- The offset moves as the front fragment shrinks. -/
theorem writer_moved {front : Piece} {ready : List Piece} (hready : s.ready = front :: ready) (n : Nat) :
    writer { s with offset := s.offset + n } =
      s.writer.moved (front.rest s.offset) (ready.map (·.rest 0)) n := by
  have hdrop : (front.bytes.drop s.offset).drop n = front.bytes.drop (s.offset + n) := List.drop_drop
  unfold Writer.moved
  show Writer.mk _ _ _ (left (s.offset + n) s.ready) _ _ _ _ =
    Writer.mk _ _ _ (⟨(front.bytes.drop s.offset).drop n, front.last⟩ :: _) _ _ _ _
  rw [hready, hdrop]
  rfl

/-- The front piece is sent when nothing is left of it. -/
theorem writer_took (h : s.writer.Sound) (n : Nat) :
    ((s.took s.writer.current.length n).1.writer, (s.took s.writer.current.length n).2) =
      s.writer.advance n := by
  unfold took
  by_cases hlt : s.writer.current.length < n
  · rw [if_pos hlt, Writer.advance_of_lt hlt]
  rw [if_neg hlt]
  have hle := Nat.not_lt.1 hlt
  have hcases : s.ready = [] ∨ ∃ front ready, s.ready = front :: ready := by
    cases s.ready with
    | nil => exact .inl rfl
    | cons front ready => exact .inr ⟨front, ready, rfl⟩
  obtain hready | ⟨front, ready, hready⟩ := hcases
  · have hnone : s.writer.ready = [] := congrArg (left s.offset) hready
    have hcurrent : s.writer.current = [] := by
      rw [Writer.current, Writer.current?, hnone]
      rfl
    have hn : n = 0 := by rwa [hcurrent, List.length_nil, Nat.le_zero] at hle
    have hadvance : s.writer.advance n = (s.writer, .ok ()) := by
      simp only [Writer.advance, hnone, if_pos hn]
    have hsent : ¬ (0 < n ∧ s.offset + n = (s.ready.head?.map (·.bytes.length)).getD 0) := by omega
    dsimp only
    rw [hadvance, if_neg hsent, hn]
    rfl
  · have hfront : s.writer.ready = front.rest s.offset :: ready.map (·.rest 0) :=
      congrArg (left s.offset) hready
    have hoffset := offset_lt h hready
    have hunsent : n ≤ (front.rest s.offset).unsent.length := by
      rw [← Writer.current_of_ready hfront]
      exact hle
    have hlen : (front.rest s.offset).unsent.length = front.bytes.length - s.offset := List.length_drop
    have hdone : (0 < n ∧ s.offset + n = (s.ready.head?.map (·.bytes.length)).getD 0) ↔
        (n ≠ 0 ∧ (front.rest s.offset).unsent.drop n = []) := by
      rw [List.drop_eq_nil_iff, hlen, hready]
      show (0 < n ∧ s.offset + n = front.bytes.length) ↔ _
      omega
    rw [Writer.advance_eq hfront hunsent, ← writer_moved hready]
    dsimp only
    by_cases hsent : 0 < n ∧ s.offset + n = (s.ready.head?.map (·.bytes.length)).getD 0
    · rw [if_pos hsent, if_pos (hdone.1 hsent)]
      exact Prod.ext (writer_finishPiece (s := { s with offset := s.offset + n }) hready) rfl
    · rw [if_neg hsent, if_neg (mt hdone.2 hsent)]

/-- Progress in memory is progress. -/
theorem advance_eq (h : s.writer.Sound) (n : Nat) :
    ∃ s', s.advance n = .ok (s', (s.writer.advance n).2) ∧ s'.writer = (s.writer.advance n).1 := by
  have havailable : (s.writer.current?.map (·.length)).getD 0 = s.writer.current.length := by
    unfold Writer.current
    cases s.writer.current? <;> rfl
  have htook := writer_took h n
  unfold advance
  rw [current?_eq h, ← htook]
  show ∃ s', Except.ok (s.took ((s.writer.current?.map (·.length)).getD 0) n) = _ ∧ _
  rw [havailable]
  exact ⟨_, rfl, rfl⟩

/-! ## Any call -/

/-- Kept or not, nothing of a block matters but its number. -/
theorem writer_foldl_pieces (offset : Nat) (s : Storage) (ready : List Piece) :
    (ready.foldl (fun s p => s.recycle p.bytes) s).writer =
      (left offset ready).foldl (fun w f => w.recycle f.unsent) s.writer := by
  have hwhole : ∀ (s : Storage) (ready : List Piece), (ready.foldl (fun s p => s.recycle p.bytes) s).writer =
      (ready.map (·.rest 0)).foldl (fun w f => w.recycle f.unsent) s.writer := by
    intro s ready
    induction ready generalizing s with
    | nil => rfl
    | cons p ready ih =>
      rw [List.map_cons, List.foldl_cons, List.foldl_cons, ih, writer_recycle]
      rfl
  cases ready with
  | nil => rfl
  | cons front ready =>
    rw [left, List.foldl_cons, List.foldl_cons, hwhole, writer_recycle, recycle_congr]

theorem writer_reset (s : Storage) : s.reset.writer = s.writer.reset := by
  have hpieces := writer_foldl_pieces s.discardStaged.offset s.discardStaged s.discardStaged.ready
  have hcleared : (s.discardStaged.ready.foldl (fun s p => s.recycle p.bytes) s.discardStaged).writer =
      s.discardStaged.writer.ready.foldl (fun w f => w.recycle f.unsent) s.discardStaged.writer := hpieces
  rw [writer_discardStaged] at hcleared
  exact congrArg (fun w : Writer => { w with ready := [], offset := 0 }) hcleared

/-- The answer of an appending call. -/
theorem attempt_of_appended? {c : Call} (hc : c.appended? = some bytes) (s : Storage) :
    s.attempt c = (s.write bytes).map fun (s, result) => (s, c.answer bytes.length result) := by
  cases c <;> cases hc
  · rfl
  · rfl
  · show (s.write bytes).map _ = (s.write bytes).map _
    rcases s.write bytes with panic | ⟨s', e | u⟩ <;> rfl

theorem attempt_append (h : s.writer.Sound) {c : Call} (hc : c.appended? = some bytes) :
    ∃ s', s.attempt c = .ok (s', (s.writer.call c).2) ∧ s'.writer = (s.writer.call c).1 := by
  obtain ⟨s', hwrite, hwriter⟩ := write_eq h bytes
  rw [attempt_of_appended? hc, Writer.call_of_appended? hc, hwrite]
  exact ⟨s', rfl, hwriter⟩

/-- A call in memory is a call, and no check of it fails. -/
theorem attempt_eq (h : s.writer.Sound) (c : Call) :
    ∃ s', s.attempt c = .ok (s', (s.writer.call c).2) ∧ s'.writer = (s.writer.call c).1 := by
  cases c with
  | write bytes => exact attempt_append h rfl
  | put byte => exact attempt_append h rfl
  | sink bytes => exact attempt_append h rfl
  | complete =>
    obtain ⟨s', hcomplete, hwriter⟩ := complete_eq h
    refine ⟨s', ?_, hwriter⟩
    rw [attempt, hcomplete]
    rfl
  | advance n =>
    obtain ⟨s', hadvance, hwriter⟩ := advance_eq h n
    refine ⟨s', ?_, hwriter⟩
    rw [attempt, hadvance]
    rfl
  | reset => exact ⟨s.reset, rfl, writer_reset s⟩

theorem operate_eq (h : s.writer.Sound) (c : Call) :
    s.attempt c = .ok (s.operate c, (s.writer.call c).2) ∧ (s.operate c).writer = (s.writer.call c).1 := by
  obtain ⟨s', hattempt, hwriter⟩ := attempt_eq h c
  unfold operate
  rw [hattempt]
  exact ⟨rfl, hwriter⟩

theorem foldl_operate (t : Traffic) (h : t.writer.Sound) (hs : s.writer = t.writer) (calls : List Call) :
    (calls.foldl operate s).writer = (calls.foldl Traffic.step t).writer := by
  induction calls generalizing s t with
  | nil => exact hs
  | cons c calls ih =>
    refine ih (t.step c) (h.call c).1 ?_
    rw [(operate_eq (hs ▸ h) c).2, hs]
    rfl

end

/-- **A writer in memory stays in bounds.** Whatever was done to it, no check fails: every call is answered
as the writer answers whose front fragment shrinks, and leaves a writer that this can be said of again. While
a piece is in flight the offset is less than its size, and what is left of it are its bytes from the offset
on; all other pieces are whole. With no piece in flight the offset is zero. -/
theorem storage_keeps_bounds (limits : Limits) (calls : List Call) :
    let w := (Traffic.run limits calls).writer
    let s := calls.foldl operate (new limits)
    s.writer = w ∧
      (∀ c, s.attempt c = .ok (s.operate c, (w.call c).2) ∧ (s.operate c).writer = (w.call c).1) ∧
      s.current? = .ok w.current? ∧ s.offset = w.offset ∧
      (s.ready = [] → s.offset = 0) ∧
      ∀ front ready, s.ready = front :: ready → s.offset < front.bytes.length ∧
        w.ready = ⟨front.bytes.drop s.offset, front.last⟩ :: ready.map fun p => ⟨p.bytes, p.last⟩ := by
  intro w s
  have hw : w.Sound := (Traffic.sound_foldl calls (.new limits) (Writer.sound_new limits)).1
  have hs : s.writer = w := foldl_operate (.new limits) (Writer.sound_new limits) rfl calls
  have h : s.writer.Sound := hs ▸ hw
  rw [← hs]
  refine ⟨rfl, operate_eq h, current?_eq h, rfl, fun hready => h.offset_of_nil ?_, fun front ready hready =>
    ⟨offset_lt h hready, ?_⟩⟩
  · show left s.offset s.ready = []
    rw [hready]
    rfl
  · show left s.offset s.ready = _
    rw [hready]
    rfl

/-- A chunk of two bytes, half of the front of which was taken. -/
example :
    let s := [Call.write [7, 8], .complete, .advance 3].foldl operate (new .standard)
    s.ready.map (·.bytes) = [[0, 0, 0, 2, 7, 8]] ∧ s.offset = 3 ∧ s.current?.toOption = some (some [2, 7, 8]) := by
  decide +kernel

end Storage

end ChunkRouter.Frame
