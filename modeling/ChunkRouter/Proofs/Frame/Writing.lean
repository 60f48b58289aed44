import ChunkRouter.Frame.Grammar
import ChunkRouter.Frame.Writer

/-!
# The writer's invariant

`Writer.Sound` says how a writer lays a body out in blocks and fragments: the blocks of the chunk
under construction are packed behind room for the length prefix, no fragment is empty, and kept
blocks hold nothing. Every operation preserves it, and is described by what it does to `staged` and
`unsent` alone.
-/

namespace ChunkRouter.Frame

open Grammar (frame)

namespace Writer

/-! ## Kept blocks -/

/-- Kept blocks are empty, and there are not too many of them. -/
def Clean (w : Writer) : Prop := (∀ b ∈ w.spare, b = []) ∧ w.spare.length ≤ spareLimit

theorem recycle_eq (w : Writer) (block : Bytes) :
    w.recycle block = { w with spare := (w.recycle block).spare } := by
  unfold recycle
  split <;> rfl

theorem Clean.recycle {w : Writer} (h : w.Clean) (block : Bytes) : (w.recycle block).Clean := by
  unfold Writer.recycle
  split
  · rename_i hlt
    refine ⟨fun b hb => ?_, hlt⟩
    rcases List.mem_cons.1 hb with rfl | hb
    · rfl
    · exact h.1 b hb
  · exact h

theorem foldl_recycle_eq (blocks : List Bytes) (w : Writer) :
    blocks.foldl recycle w = { w with spare := (blocks.foldl recycle w).spare } := by
  induction blocks generalizing w with
  | nil => rfl
  | cons block blocks ih =>
    rw [List.foldl_cons, ih, recycle_eq]

theorem Clean.foldl_recycle {w : Writer} (h : w.Clean) (blocks : List Bytes) :
    (blocks.foldl Writer.recycle w).Clean := by
  induction blocks generalizing w with
  | nil => exact h
  | cons block blocks ih => exact ih (h.recycle block)

theorem openBlock_eq {w : Writer} (h : w.Clean) (bytes : Bytes) :
    w.openBlock bytes = { w with blocks := bytes :: w.blocks, spare := w.spare.tail } := by
  rcases hs : w.spare with _ | ⟨block, spare⟩
  · simp only [openBlock, hs, List.tail_nil]
  · have hnil : block = [] := h.1 block (hs ▸ List.mem_cons_self)
    simp only [openBlock, hs, hnil, List.nil_append, List.tail_cons]

theorem Clean.openBlock {w : Writer} (h : w.Clean) (bytes : Bytes) : (w.openBlock bytes).Clean := by
  rw [openBlock_eq h]
  refine ⟨fun b hb => h.1 b (List.mem_of_mem_tail hb), ?_⟩
  show w.spare.tail.length ≤ spareLimit
  rw [List.length_tail]
  exact Nat.le_trans (Nat.sub_le _ _) h.2

/-! ## Packed blocks -/

/-- Blocks, the latest first, of which only the latest may have room left; none is empty. -/
def Packed (size : Nat) : List Bytes → Prop
  | [] => True
  | latest :: older => latest ≠ [] ∧ latest.length ≤ size ∧ ∀ b ∈ older, b.length = size

theorem packed_of_full {size : Nat} (hsize : 0 < size) {blocks : List Bytes}
    (h : ∀ b ∈ blocks, b.length = size) : Packed size blocks := by
  rcases blocks with _ | ⟨latest, older⟩
  · trivial
  · have hlatest : latest.length = size := h latest List.mem_cons_self
    exact ⟨List.ne_nil_of_length_pos (by omega), Nat.le_of_eq hlatest,
      fun b hb => h b (List.mem_cons_of_mem _ hb)⟩

theorem Packed.ne_nil {size : Nat} (hsize : 0 < size) {blocks : List Bytes}
    (h : Packed size blocks) {b : Bytes} (hb : b ∈ blocks) : b ≠ [] := by
  rcases blocks with _ | ⟨latest, older⟩
  · cases hb
  · rcases List.mem_cons.1 hb with rfl | hb
    · exact h.1
    · exact List.ne_nil_of_length_pos (by rw [h.2.2 b hb]; exact hsize)

/-- Packed blocks are as few as possible. -/
theorem Packed.length_eq {size : Nat} {blocks : List Bytes} (h : Packed size blocks) :
    blocks.length = (blocks.flatten.length + size - 1) / size := by
  rcases blocks with _ | ⟨latest, older⟩
  · rcases size with _ | size
    · rfl
    · exact (Nat.div_eq_of_lt (by simp)).symm
  · obtain ⟨hne, hle, hfull⟩ := h
    have hpos : 0 < latest.length := List.length_pos_iff.2 hne
    have holder : older.flatten.length = size * older.length := by
      rw [List.length_flatten, List.map_congr_left hfull, List.map_const', List.sum_replicate_nat,
        Nat.mul_comm]
    rw [List.flatten_cons, List.length_append, holder, List.length_cons]
    symm
    apply Nat.div_eq_of_lt_le
    · rw [Nat.add_mul, Nat.mul_comm older.length]
      omega
    · rw [Nat.add_mul, Nat.add_mul, Nat.mul_comm older.length]
      omega

/-- What appending `bytes` to the blocks does; nothing but blocks and kept blocks changes. -/
structure Appends (w v : Writer) (bytes : Bytes) : Prop where
  contents : v.blocks.reverse.flatten = w.blocks.reverse.flatten ++ bytes
  packed : Packed w.limits.fragmentSize v.blocks
  clean : v.Clean
  others : v = { w with blocks := v.blocks, spare := v.spare }

theorem Appends.limits_eq {w v : Writer} {bytes : Bytes} (h : Appends w v bytes) :
    v.limits = w.limits := by
  rw [h.others]

theorem Appends.trans {w v u : Writer} {as bs : Bytes} (h : Appends w v as)
    (h' : Appends v u bs) : Appends w u (as ++ bs) where
  contents := by rw [h'.contents, h.contents, List.append_assoc]
  packed := h.limits_eq ▸ h'.packed
  clean := h'.clean
  others := by
    rw [h'.others, h.others]

theorem openBlock_appends {w : Writer} {bytes : Bytes} (hc : w.Clean) (hne : bytes ≠ [])
    (hle : bytes.length ≤ w.limits.fragmentSize)
    (hfull : ∀ b ∈ w.blocks, b.length = w.limits.fragmentSize) :
    Appends w (w.openBlock bytes) bytes := by
  have hclean := hc.openBlock bytes
  rw [openBlock_eq hc] at hclean ⊢
  exact ⟨by simp, ⟨hne, hle, hfull⟩, hclean, rfl⟩

theorem openBlocks_appends (w : Writer) (bytes : Bytes) (hc : w.Clean)
    (hfull : ∀ b ∈ w.blocks, b.length = w.limits.fragmentSize) :
    Appends w (w.openBlocks bytes) bytes := by
  fun_induction openBlocks w bytes with
  | case1 w => exact ⟨by simp, packed_of_full w.limits.fragmentSize_pos hfull, hc, rfl⟩
  | case2 w b rest ih =>
    have hf := w.limits.fragmentSize_pos
    have hle : ((b :: rest).take w.limits.fragmentSize).length ≤ w.limits.fragmentSize := by
      rw [List.length_take]
      exact Nat.min_le_left _ _
    have hfirst := openBlock_appends hc (List.ne_nil_of_length_pos (by
      rw [List.length_take, List.length_cons]; omega)) hle hfull
    by_cases hmore : (b :: rest).drop w.limits.fragmentSize = []
    · rw [hmore, openBlocks]
      rwa [List.take_of_length_le (List.drop_eq_nil_iff.1 hmore)] at hfirst ⊢
    · have hfull' : ∀ block ∈ (w.openBlock ((b :: rest).take w.limits.fragmentSize)).blocks,
          block.length = (w.openBlock ((b :: rest).take w.limits.fragmentSize)).limits.fragmentSize := by
        rw [openBlock_eq hc]
        intro block hblock
        rcases List.mem_cons.1 hblock with rfl | hblock
        · refine List.length_take_of_le (Nat.le_of_lt ?_)
          exact Nat.lt_of_not_le fun h => hmore (List.drop_eq_nil_of_le h)
        · exact hfull block hblock
      have hthen := hfirst.trans (ih hfirst.clean hfull')
      rwa [List.take_append_drop] at hthen

/-- Staging fills up the latest block before it starts new ones. -/
theorem stage_appends {w : Writer} (bytes : Bytes) (hc : w.Clean)
    (hp : Packed w.limits.fragmentSize w.blocks) : Appends w (w.stage bytes) bytes := by
  rcases hb : w.blocks with _ | ⟨latest, older⟩
  · simp only [stage, hb]
    exact openBlocks_appends w bytes hc (by simp [hb])
  · rw [hb] at hp
    obtain ⟨hne, hle, hfull⟩ := hp
    simp only [stage, hb]
    -- the writer in which the latest block took what it has room for
    generalize hspace : w.limits.fragmentSize - latest.length = space
    have hfill : Appends w { w with blocks := (latest ++ bytes.take space) :: older }
        (bytes.take space) := by
      refine ⟨by simp [hb], ⟨by simp [hne], ?_, hfull⟩, hc, rfl⟩
      rw [List.length_append, List.length_take]
      omega
    by_cases hmore : bytes.drop space = []
    · rw [hmore, openBlocks]
      rwa [List.take_of_length_le (List.drop_eq_nil_iff.1 hmore)] at hfill ⊢
    · have hlt : space < bytes.length :=
        Nat.lt_of_not_le fun h => hmore (List.drop_eq_nil_of_le h)
      have hrest := openBlocks_appends { w with blocks := (latest ++ bytes.take space) :: older }
        (bytes.drop space) hc (by
          intro block hblock
          rcases List.mem_cons.1 hblock with rfl | hblock
          · show (latest ++ bytes.take space).length = w.limits.fragmentSize
            rw [List.length_append, List.length_take]
            omega
          · exact hfull block hblock)
      have hthen := hfill.trans hrest
      rwa [List.take_append_drop] at hthen

/-! ## The invariant -/

/-- What is left of the fragment in flight; nothing if there is none. -/
def current (w : Writer) : Bytes := w.current?.getD []

/-- How many chunks are not yet wholly sent. -/
def chunksPending (w : Writer) : Nat := w.ready.countP (·.last)

/-- The layout of every writer in use. -/
structure Sound (w : Writer) : Prop where
  packed : Packed w.limits.fragmentSize w.blocks
  /-- The first block has room for the length prefix. -/
  length_blocks : w.blocks ≠ [] → w.blocks.reverse.flatten.length = prefixSize + w.stagedLen
  stagedLen_of_nil : w.blocks = [] → w.stagedLen = 0
  stagedLen_le : w.stagedLen ≤ w.limits.maxChunkLen
  unsent_ne_nil : ∀ f ∈ w.ready, f.unsent ≠ []
  offset_of_nil : w.ready = [] → w.offset = 0
  clean : w.Clean

theorem sound_new (limits : Limits) : (new limits).Sound where
  packed := trivial
  length_blocks h := absurd rfl h
  stagedLen_of_nil _ := rfl
  stagedLen_le := Nat.zero_le _
  unsent_ne_nil f hf := by simp [new] at hf
  offset_of_nil _ := rfl
  clean := ⟨fun b hb => by simp [new] at hb, Nat.zero_le _⟩

theorem Sound.length_staged {w : Writer} (h : w.Sound) : w.staged.length = w.stagedLen := by
  rw [staged, List.length_drop]
  by_cases hb : w.blocks = []
  · rw [h.stagedLen_of_nil hb, hb]
    rfl
  · rw [h.length_blocks hb, Nat.add_sub_cancel_left]

theorem Sound.staged_eq_nil_iff {w : Writer} (h : w.Sound) : w.staged = [] ↔ w.stagedLen = 0 := by
  rw [← h.length_staged, List.length_eq_zero_iff]

theorem current_prefix_unsent (w : Writer) : w.current <+: w.unsent := by
  rcases hr : w.ready with _ | ⟨front, ready⟩
  · simp [current, current?, unsent, hr]
  · simp [current, current?, unsent, hr]

/-- A fragment is in flight exactly while there are bytes to send. -/
theorem Sound.current?_eq_none_iff {w : Writer} (h : w.Sound) :
    w.current? = none ↔ w.unsent = [] := by
  rcases hr : w.ready with _ | ⟨front, ready⟩
  · simp [current?, unsent, hr]
  · have hne : front.unsent ≠ [] := h.unsent_ne_nil front (hr ▸ List.mem_cons_self)
    simp [current?, unsent, hr, hne]

/-- The fragment in flight is where the bytes to send begin. -/
theorem Sound.of_current?_eq_some {w : Writer} (h : w.Sound) {bytes : Bytes}
    (hc : w.current? = some bytes) : bytes ≠ [] ∧ bytes <+: w.unsent := by
  rcases hr : w.ready with _ | ⟨front, ready⟩
  · simp [current?, hr] at hc
  · rw [current?, hr, List.head?_cons, Option.map_some, Option.some.injEq] at hc
    subst hc
    have hprefix := w.current_prefix_unsent
    rw [current, current?, hr] at hprefix
    exact ⟨h.unsent_ne_nil front (hr ▸ List.mem_cons_self), hprefix⟩

/-! ## Writing -/

/-- The writer with room for the length prefix of the chunk under construction. -/
def opened (w : Writer) : Writer :=
  if w.blocks.isEmpty then w.openBlock (Bytes.zeros prefixSize) else w

theorem Sound.opened {w : Writer} (h : w.Sound) :
    w.opened.Sound ∧ w.opened.blocks ≠ [] ∧ w.opened.staged = w.staged ∧
      w.opened = { w with blocks := w.opened.blocks, spare := w.opened.spare } := by
  unfold Writer.opened
  by_cases hb : w.blocks = []
  · have hfit : prefixSize ≤ w.limits.fragmentSize :=
      Nat.le_trans (by decide) w.limits.minFragmentSize_le
    have hopen : Appends w (w.openBlock (Bytes.zeros prefixSize)) (Bytes.zeros prefixSize) :=
      openBlock_appends h.clean (by decide) hfit (by simp [hb])
    have hlen : w.stagedLen = 0 := h.stagedLen_of_nil hb
    rw [if_pos (by simp [hb])]
    rw [openBlock_eq h.clean, hb] at hopen ⊢
    refine ⟨?_, List.cons_ne_nil _ _, ?_, rfl⟩
    · exact ⟨hopen.packed, fun _ => by simp [hlen], fun h0 => absurd h0 (List.cons_ne_nil _ _),
        h.stagedLen_le, h.unsent_ne_nil, h.offset_of_nil, hopen.clean⟩
    · simp [staged, hb, Bytes.zeros]
  · rw [if_neg (by simpa using hb)]
    exact ⟨h, hb, rfl, rfl⟩

theorem write_eq {w : Writer} {bytes : Bytes}
    (hle : w.stagedLen + bytes.length ≤ w.limits.maxChunkLen) :
    w.write bytes =
      ({ w.opened.stage bytes with stagedLen := w.stagedLen + bytes.length }, .ok ()) := by
  simp only [write, if_neg (Nat.not_lt.2 hle)]
  rfl

/-- Writing within the limit appends to the body under construction. -/
theorem write_of_le {w : Writer} (h : w.Sound) {bytes : Bytes}
    (hle : w.stagedLen + bytes.length ≤ w.limits.maxChunkLen) :
    ∃ v, w.write bytes = (v, .ok ()) ∧ v.Sound ∧ v.staged = w.staged ++ bytes ∧
      v = { w with blocks := v.blocks, spare := v.spare, stagedLen := v.stagedLen } := by
  obtain ⟨hsound, hne, hstaged, hothers⟩ := h.opened
  have hstage := stage_appends bytes hsound.clean hsound.packed
  obtain ⟨blocks, spare, hv⟩ : ∃ blocks spare,
      w.opened.stage bytes = { w with blocks := blocks, spare := spare } :=
    ⟨_, _, by rw [hstage.others, hothers]⟩
  rw [hv] at hstage
  have hroom : w.opened.blocks.reverse.flatten.length = prefixSize + w.stagedLen := by
    rw [hsound.length_blocks hne, hothers]
  have hcontents : blocks.reverse.flatten = w.opened.blocks.reverse.flatten ++ bytes :=
    hstage.contents
  have hlen : blocks.reverse.flatten.length = prefixSize + (w.stagedLen + bytes.length) := by
    rw [hcontents, List.length_append, hroom, Nat.add_assoc]
  refine ⟨_, by rw [write_eq hle, hv], ?_, ?_, rfl⟩
  · refine ⟨?_, fun _ => hlen, fun hnil => ?_, hle, h.unsent_ne_nil, h.offset_of_nil, hstage.clean⟩
    · have hlimits : w.opened.limits = w.limits := by rw [hothers]
      exact hlimits ▸ hstage.packed
    · have hblocks : blocks = [] := hnil
      rw [hblocks] at hlen
      simp [prefixSize] at hlen
      omega
  · show blocks.reverse.flatten.drop prefixSize = _
    rw [hcontents, List.drop_append_of_le_length (by omega), ← hstaged]
    rfl

/-- A write beyond the limit changes nothing. -/
theorem write_of_lt {w : Writer} {bytes : Bytes}
    (hlt : w.limits.maxChunkLen < w.stagedLen + bytes.length) :
    w.write bytes =
      (w, .error (.oversized (w.stagedLen + bytes.length) w.limits.maxChunkLen)) := by
  simp only [write, if_pos hlt]

/-! ## Completing -/

theorem map_unsent_fragments (blocks : List Bytes) :
    (fragments blocks).map (·.unsent) = blocks := by
  rcases List.eq_nil_or_concat blocks with rfl | ⟨front, last, rfl⟩
  · rfl
  · simp [fragments, Function.comp_def]

theorem length_fragments (blocks : List Bytes) : (fragments blocks).length = blocks.length := by
  rw [← List.length_map (·.unsent), map_unsent_fragments]

/-- Exactly one fragment ends the chunk. -/
theorem countP_last_fragments {blocks : List Bytes} (h : blocks ≠ []) :
    (fragments blocks).countP (·.last) = 1 := by
  rcases List.eq_nil_or_concat blocks with rfl | ⟨front, last, rfl⟩
  · exact absurd rfl h
  · simp [fragments, List.countP_append, List.countP_map, Function.comp_def]

theorem flatten_patch {n : Nat} {first : Bytes} {more : List Bytes}
    (h : prefixSize ≤ first.length) :
    (patch n (first :: more)).flatten =
      Header.encode n ++ (first :: more).flatten.drop prefixSize := by
  rw [patch, List.flatten_cons, List.flatten_cons, List.drop_append_of_le_length h,
    List.append_assoc]

theorem ne_nil_of_mem_patch {n : Nat} {blocks : List Bytes} (h : ∀ b ∈ blocks, b ≠ [])
    {b : Bytes} (hb : b ∈ patch n blocks) : b ≠ [] := by
  rcases blocks with _ | ⟨first, more⟩
  · cases hb
  · rcases List.mem_cons.1 hb with rfl | hb
    · simp [Header.encode]
    · exact h b (List.mem_cons_of_mem _ hb)

theorem length_patch (n : Nat) (blocks : List Bytes) : (patch n blocks).length = blocks.length := by
  cases blocks <;> rfl

/-- The length prefix fits the first block. -/
theorem Sound.prefixSize_le {w : Writer} (h : w.Sound) {first : Bytes} {more : List Bytes}
    (hb : w.blocks.reverse = first :: more) : prefixSize ≤ first.length := by
  have hne : w.blocks ≠ [] := fun h0 => by simp [h0] at hb
  rcases more with _ | ⟨second, more⟩
  · have hlen := h.length_blocks hne
    rw [hb, List.flatten_cons, List.flatten_nil, List.append_nil] at hlen
    omega
  · have hblocks : w.blocks = (first :: second :: more).reverse := by
      rw [← hb, List.reverse_reverse]
    have hpacked := h.packed
    rcases hlatest : w.blocks with _ | ⟨latest, older⟩
    · exact absurd hlatest hne
    · rw [hlatest] at hpacked hblocks
      have hmem : first ∈ older := by
        rw [List.reverse_cons, List.reverse_cons] at hblocks
        rcases hm : more.reverse with _ | ⟨c, rest⟩
        · rw [hm] at hblocks
          injection hblocks with _ holder
          rw [holder]
          exact List.mem_cons_self
        · rw [hm] at hblocks
          injection hblocks with _ holder
          rw [holder]
          exact List.mem_append_right _ List.mem_cons_self
      rw [hpacked.2.2 first hmem]
      exact Nat.le_trans (by decide) w.limits.minFragmentSize_le

/-- Giving up the chunk under construction leaves the wire alone. -/
theorem discardStaged_eq (w : Writer) :
    w.discardStaged =
      { w with blocks := [], stagedLen := 0, spare := w.discardStaged.spare } := by
  unfold discardStaged
  rw [foldl_recycle_eq]

theorem Sound.discardStaged {w : Writer} (h : w.Sound) : w.discardStaged.Sound := by
  have hclean : w.discardStaged.Clean := h.clean.foldl_recycle w.blocks.reverse
  rw [discardStaged_eq] at hclean ⊢
  exact ⟨trivial, fun h0 => absurd rfl h0, fun _ => rfl, Nat.zero_le _, h.unsent_ne_nil,
    h.offset_of_nil, hclean⟩

/-- Completing nothing is refused and leaves the wire alone. -/
theorem complete_of_nil {w : Writer} (h : w.Sound) (hs : w.staged = []) :
    w.complete = (w.discardStaged, .error .empty) := by
  rw [complete, if_pos (h.staged_eq_nil_iff.1 hs)]

/-- Completing a chunk appends its frame to the wire, in as few fragments as possible. -/
theorem complete_of_ne_nil {w : Writer} (h : w.Sound) (hs : w.staged ≠ []) :
    ∃ pieces : List Fragment,
      w.complete =
        ({ w with blocks := [], stagedLen := 0, ready := w.ready ++ pieces },
          .ok ((w.staged.length + prefixSize + w.limits.fragmentSize - 1) /
            w.limits.fragmentSize)) ∧
      pieces.flatMap (·.unsent) = frame w.staged ∧ pieces.countP (·.last) = 1 ∧
      Sound { w with blocks := [], stagedLen := 0, ready := w.ready ++ pieces } := by
  have hlen0 : w.stagedLen ≠ 0 := fun h0 => hs (h.staged_eq_nil_iff.2 h0)
  have hmax : ¬ maxBodyLen < w.stagedLen :=
    Nat.not_lt.2 (Nat.le_trans h.stagedLen_le w.limits.maxChunkLen_le)
  have hne : w.blocks ≠ [] := fun h0 => hlen0 (h.stagedLen_of_nil h0)
  obtain ⟨first, more, hb⟩ := List.exists_cons_of_ne_nil (List.reverse_ne_nil_iff.2 hne)
  have hroom := h.prefixSize_le hb
  have hpatch : patch w.stagedLen w.blocks.reverse ≠ [] := by
    rw [hb]
    exact List.cons_ne_nil _ _
  have hcount : (fragments (patch w.stagedLen w.blocks.reverse)).length =
      (w.staged.length + prefixSize + w.limits.fragmentSize - 1) / w.limits.fragmentSize := by
    have htotal : w.blocks.flatten.length = w.staged.length + prefixSize := by
      have hreverse : w.blocks.flatten.length = w.blocks.reverse.flatten.length := by
        rw [List.length_flatten, List.length_flatten, List.map_reverse, List.sum_reverse]
      rw [hreverse, h.length_blocks hne, h.length_staged, Nat.add_comm]
    rw [length_fragments, length_patch, List.length_reverse, h.packed.length_eq, htotal]
  refine ⟨fragments (patch w.stagedLen w.blocks.reverse), ?_, ?_, ?_, ?_⟩
  · rw [complete, if_neg hlen0, if_neg hmax, ← hcount]
  · rw [List.flatMap_def, map_unsent_fragments, hb, flatten_patch hroom, frame, h.length_staged,
      staged, hb]
  · exact countP_last_fragments hpatch
  · refine ⟨trivial, fun h0 => absurd rfl h0, fun _ => rfl, Nat.zero_le _, ?_, ?_, h.clean⟩
    · intro f hf
      rcases List.mem_append.1 hf with hf | hf
      · exact h.unsent_ne_nil f hf
      · have hmem : f.unsent ∈ patch w.stagedLen w.blocks.reverse := by
          rw [← map_unsent_fragments (patch _ _)]
          exact List.mem_map_of_mem hf
        refine ne_nil_of_mem_patch (fun b hb => ?_) hmem
        exact h.packed.ne_nil w.limits.fragmentSize_pos (List.mem_reverse.1 hb)
    · intro h0
      exact h.offset_of_nil (List.append_eq_nil_iff.1 h0).1

/-! ## Sending -/

theorem current_of_ready {w : Writer} {front : Fragment} {ready : List Fragment}
    (h : w.ready = front :: ready) : w.current = front.unsent := by
  simp [current, current?, h]

/-- A report beyond the fragment in flight changes nothing. -/
theorem advance_of_lt {w : Writer} {n : Nat} (hlt : w.current.length < n) :
    w.advance n = (w, .error (.overrun n w.current.length)) := by
  rcases hr : w.ready with _ | ⟨front, ready⟩
  · have hcurrent : w.current = [] := by simp [current, current?, hr]
    rw [hcurrent] at hlt ⊢
    simp only [advance, hr]
    rw [if_neg (by simpa using Nat.ne_of_gt hlt)]
    rfl
  · rw [current_of_ready hr] at hlt ⊢
    simp only [advance, hr, Bytes.cut_eq_error_iff.2 ⟨hlt, rfl⟩]

/-- A fragment that is sent makes way for the next one, and counts if it ends its chunk. -/
theorem finishFragment_eq {w : Writer} {done : Fragment} {ready : List Fragment}
    (h : w.ready = done :: ready) (hc : w.Clean) :
    ∃ spare meter, w.finishFragment =
        { w with
          ready := ready
          offset := 0
          spare := spare
          chunksWritten := w.chunksWritten + if done.last then 1 else 0
          meter := meter } ∧
      w.finishFragment.Clean := by
  simp only [finishFragment, h]
  cases done.last
  · refine ⟨_, _, recycle_eq _ _, Clean.recycle ?_ _⟩
    exact hc
  · refine ⟨_, _, recycle_eq _ _, Clean.recycle ?_ _⟩
    exact hc

/-- The writer with `n` bytes taken off its front fragment. -/
def moved (w : Writer) (front : Fragment) (ready : List Fragment) (n : Nat) : Writer :=
  { w with ready := { front with unsent := front.unsent.drop n } :: ready, offset := w.offset + n }

theorem advance_eq {w : Writer} {front : Fragment} {ready : List Fragment} {n : Nat}
    (h : w.ready = front :: ready) (hle : n ≤ front.unsent.length) :
    w.advance n =
      (if n ≠ 0 ∧ front.unsent.drop n = [] then (w.moved front ready n).finishFragment
        else w.moved front ready n, .ok ()) := by
  have hcut : Bytes.cut n front.unsent = .ok (front.unsent.take n, front.unsent.drop n) :=
    Bytes.cut_eq_ok_iff.2 ⟨(List.take_append_drop n _).symm, List.length_take_of_le hle⟩
  simp only [advance, h, hcut]
  rfl

/-- Bytes of the fragment in flight are taken off the wire. -/
theorem advance_of_le {w : Writer} (h : w.Sound) {n : Nat} (hle : n ≤ w.current.length) :
    ∃ v, w.advance n = (v, .ok ()) ∧ v.Sound ∧ v.unsent = w.unsent.drop n ∧
      v.chunksWritten + v.chunksPending = w.chunksWritten + w.chunksPending ∧
      v.limits = w.limits ∧ v.blocks = w.blocks ∧ v.stagedLen = w.stagedLen := by
  rcases hr : w.ready with _ | ⟨front, ready⟩
  · have hn : n = 0 := by simpa [current, current?, hr] using hle
    refine ⟨w, ?_, h, by simp [hn], rfl, rfl, rfl, rfl⟩
    simp only [advance, hr, hn, if_true]
  · rw [current_of_ready hr] at hle
    have hfront : front.unsent ≠ [] := h.unsent_ne_nil front (hr ▸ List.mem_cons_self)
    have hothers : ∀ f ∈ ready, f.unsent ≠ [] := fun f hf =>
      h.unsent_ne_nil f (hr ▸ List.mem_cons_of_mem _ hf)
    have hunsent := unsent_advance hr hle
    have hadvance := advance_eq hr hle
    have hpending : w.chunksPending = ready.countP (·.last) + if front.last then 1 else 0 := by
      rw [chunksPending, hr, List.countP_cons]
    by_cases hdone : n ≠ 0 ∧ front.unsent.drop n = []
    · obtain ⟨spare, meter, heq, hclean⟩ :=
        finishFragment_eq (w := w.moved front ready n) rfl h.clean
      rw [if_pos hdone] at hadvance
      rw [hadvance] at hunsent ⊢
      rw [heq] at hclean hunsent ⊢
      refine ⟨_, rfl, ?_, hunsent, ?_, rfl, rfl, rfl⟩
      · exact ⟨h.packed, h.length_blocks, h.stagedLen_of_nil, h.stagedLen_le, hothers,
          fun _ => rfl, hclean⟩
      · rw [hpending]
        show w.chunksWritten + (if front.last then 1 else 0) + ready.countP (·.last) = _
        omega
    · rw [if_neg hdone] at hadvance
      rw [hadvance] at hunsent ⊢
      refine ⟨_, rfl, ?_, hunsent, ?_, rfl, rfl, rfl⟩
      · refine ⟨h.packed, h.length_blocks, h.stagedLen_of_nil, h.stagedLen_le, ?_, ?_, h.clean⟩
        · intro f hf
          rcases List.mem_cons.1 hf with rfl | hf
          · intro hnil
            refine hdone ⟨fun hn => hfront ?_, hnil⟩
            rw [hn] at hnil
            exact hnil
          · exact hothers f hf
        · intro h0
          exact absurd h0 (List.cons_ne_nil _ _)
      · rw [hpending, chunksPending, moved, List.countP_cons]

/-! ## Starting over -/

theorem foldl_recycle_unsent (w : Writer) (ready : List Fragment) :
    ready.foldl (fun w f => w.recycle f.unsent) w = (ready.map (·.unsent)).foldl recycle w := by
  rw [List.foldl_map]

/-- Starting over empties the writer; what was counted stays. -/
theorem reset_eq (w : Writer) :
    w.reset =
      { w with blocks := [], stagedLen := 0, ready := [], offset := 0, spare := w.reset.spare } := by
  unfold reset
  dsimp only
  rw [foldl_recycle_unsent, foldl_recycle_eq, discardStaged_eq]

theorem Sound.reset {w : Writer} (h : w.Sound) : w.reset.Sound := by
  have hclean : w.reset.Clean := by
    have hstaged := h.discardStaged.clean
    unfold Writer.reset
    dsimp only
    rw [foldl_recycle_unsent]
    exact hstaged.foldl_recycle _
  rw [reset_eq] at hclean ⊢
  exact ⟨trivial, fun h0 => absurd rfl h0, fun _ => rfl, Nat.zero_le _,
    fun f hf => absurd hf List.not_mem_nil, fun _ => rfl, hclean⟩

end Writer

end ChunkRouter.Frame
