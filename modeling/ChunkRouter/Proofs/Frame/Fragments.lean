import ChunkRouter.Proofs.Frame.Outbox

/-!
# Fragments and draining

A completed chunk fills its fragments, all but the last one, and there is never an empty one. That is
why draining ends: every turn takes something off the front fragment, and a fragment of which nothing is
left makes way for the next. `Draining.Ends` counts the turns. A writer whose blocks do not fit in memory
completes no chunk to begin with (`run_refines_outbox`).
-/

namespace ChunkRouter.Frame

open Grammar (frame)

/-! ## Counting pieces -/

/-- How many pieces of at most `size` bytes it takes for `n` bytes. -/
def pieceCount (size n : Nat) : Nat := (n + size - 1) / size

section

variable {size n : Nat}

theorem pieceCount_of_le (hpos : 0 < n) (hle : n ≤ size) : pieceCount size n = 1 := by
  apply Nat.div_eq_of_lt_le
  · rw [Nat.one_mul]
    omega
  · rw [Nat.add_mul, Nat.one_mul]
    omega

theorem pieceCount_of_lt (hsize : 0 < size) (hlt : size < n) :
    pieceCount size n = pieceCount size (n - size) + 1 := by
  have hsplit : n + size - 1 = (n - size + size - 1) + size := by omega
  rw [pieceCount, pieceCount, hsplit, Nat.add_div_right _ hsize]

end

namespace Writer

/-! ## The fragments of a chunk -/

variable {w : Writer}

/-- Packed blocks are full, all but the latest one. -/
theorem Packed.lengths {size : Nat} {blocks : List Bytes} (h : Packed size blocks)
    (hne : blocks ≠ []) :
    ∃ last, blocks.map List.length = last :: List.replicate (blocks.length - 1) size ∧
      1 ≤ last ∧ last ≤ size := by
  rcases blocks with _ | ⟨latest, older⟩
  · exact absurd rfl hne
  obtain ⟨hlatest, hle, hfull⟩ := h
  refine ⟨latest.length, ?_, List.length_pos_iff.2 hlatest, hle⟩
  rw [List.map_cons, List.map_congr_left hfull, List.map_const', List.length_cons,
    Nat.add_sub_cancel]

/-- The length prefix takes the place of the room for it. -/
theorem lengths_patch {n : Nat} {first : Bytes} (more : List Bytes)
    (h : prefixSize ≤ first.length) :
    (patch n (first :: more)).map List.length = (first :: more).map List.length := by
  have hfirst : (Header.encode n ++ first.drop prefixSize).length = first.length := by
    rw [List.length_append, Header.length_encode, List.length_drop]
    unfold prefixSize at *
    omega
  rw [patch, List.map_cons, List.map_cons, hfirst]

theorem lengths_fragments (blocks : List Bytes) :
    (fragments blocks).map (·.unsent.length) = blocks.map List.length := by
  have hmap := congrArg (List.map List.length) (map_unsent_fragments blocks)
  rw [List.map_map] at hmap
  exact hmap

/-- Completing a chunk makes fragments that are full, all but the last one. -/
theorem Sound.complete_fills (h : w.Sound) (hs : w.staged ≠ []) :
    let count := pieceCount w.limits.fragmentSize (w.staged.length + prefixSize)
    ∃ pieces last, w.complete.2 = .ok count ∧ w.complete.1.ready = w.ready ++ pieces ∧
      pieces.flatMap (·.unsent) = frame w.staged ∧
      pieces.map (·.unsent.length) = List.replicate (count - 1) w.limits.fragmentSize ++ [last] ∧
      1 ≤ last ∧ last ≤ w.limits.fragmentSize := by
  intro count
  obtain ⟨pieces, hcomplete, hframe, -, -⟩ := complete_of_ne_nil h hs
  have hlen0 : w.stagedLen ≠ 0 := fun h0 => hs (h.staged_eq_nil_iff.2 h0)
  have hmax : ¬ maxBodyLen < w.stagedLen :=
    Nat.not_lt.2 (Nat.le_trans h.stagedLen_le w.limits.maxChunkLen_le)
  have hblocks : w.blocks ≠ [] := fun h0 => hlen0 (h.stagedLen_of_nil h0)
  have hlaid : w.complete = ({ w with
      blocks := []
      stagedLen := 0
      ready := w.ready ++ fragments (patch w.stagedLen w.blocks.reverse) },
      .ok (fragments (patch w.stagedLen w.blocks.reverse)).length) := by
    rw [complete, if_neg hlen0, if_neg hmax]
  -- the fragments are the blocks
  have hpieces : pieces = fragments (patch w.stagedLen w.blocks.reverse) := by
    have hready := congrArg (fun r => r.1.ready) (hcomplete.symm.trans hlaid)
    exact List.append_cancel_left hready
  have hcount : w.blocks.length = count := by
    have hresult := congrArg Prod.snd (hlaid.symm.trans hcomplete)
    rw [length_fragments, length_patch, List.length_reverse] at hresult
    exact Except.ok.inj hresult
  obtain ⟨last, hlengths, hpos, hle⟩ := h.packed.lengths hblocks
  refine ⟨pieces, last, by rw [hcomplete]; rfl, by rw [hcomplete], hframe, ?_, hpos, hle⟩
  obtain ⟨first, more, hfirst⟩ :=
    List.exists_cons_of_ne_nil (List.reverse_ne_nil_iff.2 hblocks)
  rw [hpieces, lengths_fragments, hfirst, lengths_patch more (h.prefixSize_le hfirst), ← hfirst,
    List.map_reverse, hlengths, List.reverse_cons, List.reverse_replicate, hcount]

/-! ## Staging in portions -/

/-- The bytes that calls append which do nothing else, in order. -/
def appendedBy : List Call → Option Bytes
  | [] => some []
  | c :: calls =>
    match c.appended?, appendedBy calls with
    | some bytes, some later => some (bytes ++ later)
    | _, _ => none

theorem appendedBy_cons {c : Call} {calls : List Call} {body : Bytes}
    (h : appendedBy (c :: calls) = some body) :
    ∃ bytes later, c.appended? = some bytes ∧ appendedBy calls = some later ∧
      body = bytes ++ later := by
  unfold appendedBy at h
  split at h
  · rename_i bytes later hbytes hlater
    exact ⟨bytes, later, hbytes, hlater, (Option.some.inj h).symm⟩
  · cases h

/-- Portions that fit are staged one behind the other. -/
theorem Sound.stage_portions {t : Traffic} (h : t.writer.Sound) {staging : List Call} {body : Bytes}
    (hbody : appendedBy staging = some body)
    (hroom : t.writer.staged.length + body.length ≤ t.writer.limits.maxChunkLen) :
    (staging.foldl Traffic.step t).writer.Sound ∧
      (staging.foldl Traffic.step t).writer.staged = t.writer.staged ++ body ∧
      (staging.foldl Traffic.step t).writer.limits = t.writer.limits ∧
      (staging.foldl Traffic.step t).writer.ready = t.writer.ready := by
  induction staging generalizing t body with
  | nil =>
    cases hbody
    exact ⟨h, (List.append_nil _).symm, rfl, rfl⟩
  | cons c staging ih =>
    obtain ⟨bytes, later, hbytes, hlater, rfl⟩ := appendedBy_cons hbody
    rw [List.length_append] at hroom
    have hfits : t.writer.stagedLen + bytes.length ≤ t.writer.limits.maxChunkLen := by
      rw [← h.length_staged]
      omega
    obtain ⟨v, hwrite, hsound, hstaged, hothers⟩ := write_of_le h hfits
    have hv : (t.step c).writer = v := by
      rw [Traffic.step, call_of_appended? hbytes, hwrite]
    have hlimits : v.limits = t.writer.limits := by rw [hothers]
    have hready : v.ready = t.writer.ready := by rw [hothers]
    rw [← hv] at hsound hstaged hlimits hready
    obtain ⟨hsound', hstaged', hlimits', hready'⟩ := ih hsound hlater (by
      rw [hstaged, hlimits, List.length_append]
      omega)
    refine ⟨hsound', ?_, hlimits'.trans hlimits, hready'.trans hready⟩
    rw [List.foldl_cons, hstaged', hstaged, List.append_assoc]

/-! ## Turns of draining -/

/-- Taking a part of the front fragment leaves the rest of it, and taking all of it leaves the others. -/
theorem ready_advance {front : Fragment} {ready : List Fragment} {n : Nat}
    (h : w.ready = front :: ready) (hn : n ≠ 0) (hle : n ≤ front.unsent.length) :
    (w.advance n).1.ready =
      if front.unsent.drop n = [] then ready
      else { front with unsent := front.unsent.drop n } :: ready := by
  rw [advance_eq h hle]
  by_cases hdone : front.unsent.drop n = []
  · rw [if_pos ⟨hn, hdone⟩, if_pos hdone, ready_finishFragment]
    rfl
  · rw [if_neg fun hboth => hdone hboth.2, if_neg hdone]
    rfl

/-- How many turns it takes to drain fragments. -/
def turns (step : Nat) : List Fragment → Nat
  | [] => 0
  | front :: ready => pieceCount step front.unsent.length + turns step ready

/-- The sizes that are yet to be noted, `current` bytes of the front fragment being taken already. -/
def sizesDue (current : Nat) : List Fragment → List Nat
  | [] => []
  | front :: ready => (current + front.unsent.length) :: ready.map (·.unsent.length)

theorem sizesDue_zero (ready : List Fragment) : sizesDue 0 ready = ready.map (·.unsent.length) := by
  cases ready with
  | nil => rfl
  | cons front ready => rw [sizesDue, Nat.zero_add, List.map_cons]

end Writer

/-- A writer that is being drained: what was taken, the sizes of the fragments that were finished, and how
many bytes of the front one were taken. -/
structure Draining where
  writer : Writer
  wire : Bytes
  sizes : List Nat
  current : Nat

namespace Draining

/-- Take at most `step` bytes of the current fragment, if there is one, and report them. -/
def turn (step : Nat) (d : Draining) : Except FramingError (Option Draining) :=
  match d.writer.current? with
  | none => .ok none
  | some fragment =>
    let n := min fragment.length step
    match d.writer.advance n with
    | (_, .error e) => .error e
    | (writer, .ok ()) =>
      if writer.fragmentCount < d.writer.fragmentCount then
        .ok (some ⟨writer, d.wire ++ fragment.take n, d.sizes ++ [d.current + n], 0⟩)
      else .ok (some ⟨writer, d.wire ++ fragment.take n, d.sizes, d.current + n⟩)

/-- Turn after turn, until there is no fragment left; no report is refused. -/
inductive Ends (step : Nat) : Nat → Draining → Draining → Prop where
  | ended {d : Draining} : d.turn step = .ok none → Ends step 0 d d
  | turn {n : Nat} {d d' e : Draining} :
      d.turn step = .ok (some d') → Ends step n d' e → Ends step (n + 1) d e

variable {step : Nat} {d : Draining} {front : Fragment} {ready : List Fragment}

/-- A turn on a front fragment, of which `n` bytes are taken. -/
theorem turn_of_ready {n : Nat} (h : d.writer.ready = front :: ready)
    (hn : min front.unsent.length step = n) :
    d.turn step = .ok (some
      (if (d.writer.advance n).1.fragmentCount < d.writer.fragmentCount then
        ⟨(d.writer.advance n).1, d.wire ++ front.unsent.take n, d.sizes ++ [d.current + n], 0⟩
      else ⟨(d.writer.advance n).1, d.wire ++ front.unsent.take n, d.sizes, d.current + n⟩)) := by
  have hcurrent : d.writer.current? = some front.unsent := by rw [Writer.current?, h]; rfl
  have hanswer : (d.writer.advance n).2 = .ok () := by
    rw [Writer.advance_eq h (hn ▸ Nat.min_le_left _ _)]
  unfold turn
  rw [hcurrent]
  dsimp only
  rw [hn]
  generalize d.writer.advance n = advanced at hanswer ⊢
  obtain ⟨writer, answer⟩ := advanced
  subst hanswer
  dsimp only
  split <;> rfl

/-- A turn that takes all of the front fragment. -/
theorem turn_of_le (h : d.writer.ready = front :: ready) (hne : front.unsent ≠ [])
    (hle : front.unsent.length ≤ step) :
    (d.writer.advance front.unsent.length).1.ready = ready ∧
      d.turn step = .ok (some ⟨(d.writer.advance front.unsent.length).1, d.wire ++ front.unsent,
        d.sizes ++ [d.current + front.unsent.length], 0⟩) := by
  have hpos : 0 < front.unsent.length := List.length_pos_iff.2 hne
  have hready := Writer.ready_advance h (Nat.ne_of_gt hpos) (Nat.le_refl _)
  rw [if_pos (List.drop_length ..)] at hready
  have hfewer : (d.writer.advance front.unsent.length).1.fragmentCount < d.writer.fragmentCount := by
    rw [Writer.fragmentCount, Writer.fragmentCount, hready, h]
    exact Nat.lt_succ_self _
  refine ⟨hready, ?_⟩
  rw [turn_of_ready h (Nat.min_eq_left hle), if_pos hfewer, List.take_length]

/-- A turn that leaves a part of the front fragment. -/
theorem turn_of_lt (h : d.writer.ready = front :: ready) (hstep : 0 < step)
    (hlt : step < front.unsent.length) :
    (d.writer.advance step).1.ready = { front with unsent := front.unsent.drop step } :: ready ∧
      d.turn step = .ok (some ⟨(d.writer.advance step).1, d.wire ++ front.unsent.take step, d.sizes,
        d.current + step⟩) := by
  have hleft : front.unsent.drop step ≠ [] := by
    rw [Ne, List.drop_eq_nil_iff]
    omega
  have hready := Writer.ready_advance h (Nat.ne_of_gt hstep) (Nat.le_of_lt hlt)
  rw [if_neg hleft] at hready
  have hsame : ¬ (d.writer.advance step).1.fragmentCount < d.writer.fragmentCount := by
    rw [Writer.fragmentCount, Writer.fragmentCount, hready, h]
    exact Nat.lt_irrefl _
  refine ⟨hready, ?_⟩
  rw [turn_of_ready h (Nat.min_eq_right (Nat.le_of_lt hlt)), if_neg hsame]

/-- Draining ends in `out`, and this is what was taken. -/
structure Drains (step : Nat) (d : Draining) (out : Drained) : Prop where
  ends : ∃ left, Ends step (Writer.turns step d.writer.ready) d
    ⟨out.writer, out.wire, out.fragments, left⟩
  wire : out.wire = d.wire ++ d.writer.unsent
  sizes : out.fragments = d.sizes ++ Writer.sizesDue d.current d.writer.ready
  ready : out.writer.ready = []

variable {out : Drained}

theorem drains_of_nil (h : d.writer.ready = []) (step : Nat) :
    Drains step d ⟨d.writer, d.wire, d.sizes⟩ := by
  have hturn : d.turn step = .ok none := by
    rw [turn, Writer.current?, h]
    rfl
  refine ⟨⟨d.current, ?_⟩, ?_, ?_, h⟩
  · rw [h]
    exact .ended hturn
  · rw [Writer.unsent, h, List.flatMap_nil, List.append_nil]
  · rw [h, Writer.sizesDue, List.append_nil]

/-- A fragment that one turn takes comes before what follows it. -/
theorem Drains.of_le (h : d.writer.ready = front :: ready) (hne : front.unsent ≠ [])
    (hle : front.unsent.length ≤ step)
    (hrest : Drains step ⟨(d.writer.advance front.unsent.length).1, d.wire ++ front.unsent,
      d.sizes ++ [d.current + front.unsent.length], 0⟩ out) : Drains step d out := by
  obtain ⟨hready, hturn⟩ := turn_of_le h hne hle
  obtain ⟨⟨left, hends⟩, hwire, hsizes, hnil⟩ := hrest
  have hone := pieceCount_of_le (List.length_pos_iff.2 hne) hle
  dsimp only at hends hwire hsizes
  rw [hready] at hends hsizes
  refine ⟨⟨left, ?_⟩, ?_, ?_, hnil⟩
  · rw [h, Writer.turns, hone, Nat.add_comm]
    exact .turn hturn hends
  · rw [hwire, Writer.unsent, Writer.unsent, hready, h, List.flatMap_cons, List.append_assoc]
  · rw [hsizes, h, Writer.sizesDue_zero, List.append_assoc]
    rfl

/-- A turn that takes a part of a fragment comes before what follows it. -/
theorem Drains.of_lt (h : d.writer.ready = front :: ready) (hstep : 0 < step)
    (hlt : step < front.unsent.length)
    (hrest : Drains step ⟨(d.writer.advance step).1, d.wire ++ front.unsent.take step, d.sizes,
      d.current + step⟩ out) : Drains step d out := by
  obtain ⟨hready, hturn⟩ := turn_of_lt h hstep hlt
  obtain ⟨⟨left, hends⟩, hwire, hsizes, hnil⟩ := hrest
  have hmore := pieceCount_of_lt hstep hlt
  dsimp only at hends hwire hsizes
  rw [hready] at hends hsizes
  have hturns : Writer.turns step (front :: ready) =
      Writer.turns step ({ front with unsent := front.unsent.drop step } :: ready) + 1 := by
    rw [Writer.turns, Writer.turns, List.length_drop, hmore, Nat.add_right_comm]
  refine ⟨⟨left, ?_⟩, ?_, ?_, hnil⟩
  · rw [h, hturns]
    exact .turn hturn hends
  · rw [hwire, Writer.unsent, Writer.unsent, hready, h, List.flatMap_cons, List.flatMap_cons,
      List.append_assoc]
    dsimp only
    rw [← List.append_assoc (front.unsent.take step), List.take_append_drop]
  · have hsize : d.current + step + (front.unsent.drop step).length =
        d.current + front.unsent.length := by
      rw [List.length_drop]
      omega
    rw [hsizes, h, Writer.sizesDue, Writer.sizesDue, hsize]

end Draining

namespace Writer

/-- **Draining ends**, with everything taken and each fragment noted. -/
theorem Sound.drainLoop_drains {w : Writer} (h : w.Sound) (more : Nat) (wire : List Bytes)
    (sizes : List Nat) (current : Nat) :
    Draining.Drains (more + 1) ⟨w, wire.reverse.flatten, sizes.reverse, current⟩
      (w.drainLoop more wire sizes current) := by
  -- the loop tells a finished fragment by what is left of it, a turn by the number of fragments
  fun_induction drainLoop more w wire sizes current with
  | case1 w wire sizes current hready => exact Draining.drains_of_nil hready _
  | case2 w wire sizes current front ready hready hempty =>
    exact absurd hempty (h.unsent_ne_nil front (hready ▸ List.mem_cons_self))
  | case3 w wire sizes current front ready hready hne taken n hdone ih =>
    have hle : front.unsent.length ≤ more + 1 := by
      have hn : n ≤ more + 1 := List.length_take_le _ _
      exact Nat.le_trans (List.drop_eq_nil_iff.1 hdone) hn
    have htaken : taken = front.unsent := List.take_of_length_le hle
    have hlength : n = front.unsent.length := congrArg List.length htaken
    rw [hlength, htaken] at ih ⊢
    have hrest := ih (h.call_advance _).1
    rw [List.reverse_cons, List.flatten_concat, List.reverse_cons] at hrest
    exact hrest.of_le hready hne hle
  | case4 w wire sizes current front ready hready hne taken n hmore ih =>
    have hlt : more + 1 < front.unsent.length := by
      have hpart : n < front.unsent.length := by
        rw [← Nat.not_le, ← List.drop_eq_nil_iff]
        exact hmore
      have hn : n = min (more + 1) front.unsent.length := List.length_take
      omega
    have hlength : n = more + 1 := List.length_take_of_le (Nat.le_of_lt hlt)
    rw [hlength] at ih ⊢
    have hrest := ih (h.call_advance _).1
    rw [List.reverse_cons, List.flatten_concat] at hrest
    exact hrest.of_lt hready (Nat.succ_pos more) hlt

end Writer

/-- **Fragments are full, and draining them ends.** A writer after any run of calls, started over or not,
has no empty fragment. When nothing is staged, take any body that a chunk may have, staged by any writes
in any portions: completing it makes as many fragments as are needed for the body and its prefix, and
they are full, all but the last one, which has at least one byte. Draining such a writer, at most
`step` bytes at a turn, ends after as many turns as all fragments need one by one. Whatever the step, what
comes out is all that is unsent and the sizes of the fragments, of the front one what is left of it;
and no fragment stays behind. -/
theorem fragments_fill_and_drain (limits : Limits) (calls : List Call) :
    let w := (Traffic.run limits calls).writer
    (∀ f ∈ w.ready, f.unsent ≠ []) ∧
      (w.staged = [] → ∀ (staging : List Call) (body : Bytes),
        Writer.appendedBy staging = some body → 1 ≤ body.length → body.length ≤ limits.maxChunkLen →
        let v := (Traffic.run limits (calls ++ staging)).writer
        let count := pieceCount limits.fragmentSize (body.length + prefixSize)
        ∃ pieces last, v.complete.2 = .ok count ∧ v.complete.1.ready = w.ready ++ pieces ∧
          pieces.flatMap (·.unsent) = frame body ∧
          pieces.map (·.unsent.length) = List.replicate (count - 1) limits.fragmentSize ++ [last] ∧
          1 ≤ last ∧ last ≤ limits.fragmentSize) ∧
      ∀ step, 0 < step →
        ∃ out left, w.drain step = .ok out ∧
          Draining.Ends step (Writer.turns step w.ready) ⟨w, [], [], 0⟩
            ⟨out.writer, out.wire, out.fragments, left⟩ ∧
          out.wire = w.unsent ∧ out.fragments = w.ready.map (·.unsent.length) ∧
          out.writer.ready = [] := by
  intro w
  obtain ⟨hsound, hlimits⟩ : w.Sound ∧ w.limits = limits :=
    Traffic.sound_foldl calls (.new limits) (Writer.sound_new limits)
  refine ⟨hsound.unsent_ne_nil, fun hnone staging body hbody hpos hmax => ?_, fun step hstep => ?_⟩
  · intro v count
    have hv : v = (staging.foldl Traffic.step (Traffic.run limits calls)).writer := by
      show (Traffic.run limits (calls ++ staging)).writer = _
      rw [Traffic.run, List.foldl_append]
      rfl
    have hroom : w.staged.length + body.length ≤ w.limits.maxChunkLen := by
      rw [hnone, hlimits, List.length_nil, Nat.zero_add]
      exact hmax
    obtain ⟨hsound', hstaged, hlimits', hready⟩ := hsound.stage_portions hbody hroom
    rw [← hv] at hsound' hstaged hlimits' hready
    have hall : v.staged = body := hstaged.trans (congrArg (· ++ body) hnone)
    have hfills := hsound'.complete_fills (by rw [hall]; exact List.ne_nil_of_length_pos hpos)
    rw [hall, hlimits'.trans hlimits, hready] at hfills
    exact hfills
  · obtain ⟨more, rfl⟩ := Nat.exists_eq_succ_of_ne_zero (Nat.ne_of_gt hstep)
    obtain ⟨⟨left, hends⟩, hwire, hsizes, hready⟩ := hsound.drainLoop_drains more [] [] 0
    exact ⟨_, left, rfl, hends, hwire, hsizes.trans (Writer.sizesDue_zero w.ready), hready⟩

/-- A chunk that fills one fragment is partly sent and an empty write has opened a block; a body in three
portions then fills two fragments. Draining at three bytes a turn takes four turns for what is left of
the first chunk. -/
theorem fragments_fill_and_drain_exactly :
    let limits : Limits := .clamp 64 16
    let calls : List Call := [.write (List.replicate 12 7), .complete, .advance 5, .write []]
    let staging : List Call := [.put 1, .write [], .write (List.replicate 27 2)]
    (Traffic.run limits calls).writer.staged = [] ∧
      Writer.appendedBy staging = some (1 :: List.replicate 27 2) ∧
      (Traffic.run limits (calls ++ staging)).writer.complete.2 = .ok 2 ∧
      (∃ pieces, (Traffic.run limits (calls ++ staging)).writer.complete.1.ready =
          (Traffic.run limits calls).writer.ready ++ pieces ∧
        pieces.map (·.unsent.length) = [16, 16]) ∧
      ∃ out left, (Traffic.run limits calls).writer.drain 3 = .ok out ∧ out.fragments = [11] ∧
        Draining.Ends 3 4 ⟨(Traffic.run limits calls).writer, [], [], 0⟩
          ⟨out.writer, out.wire, out.fragments, left⟩ := by
  intro limits calls staging
  have hstaged : (Traffic.run limits calls).writer.staged = [] := by decide +kernel
  have hbody : Writer.appendedBy staging = some (1 :: List.replicate 27 2) := by decide +kernel
  obtain ⟨-, hfills, hdrains⟩ := fragments_fill_and_drain limits calls
  obtain ⟨pieces, last, hcount, hqueued, hframe, hsizes, -⟩ :=
    hfills hstaged staging _ hbody (by decide) (by decide)
  obtain ⟨out, left, hdrain, hends, -, hfragments, -⟩ := hdrains 3 (by decide)
  have hpieces : pieceCount limits.fragmentSize
      ((1 :: List.replicate 27 (2 : UInt8)).length + prefixSize) = 2 := by decide +kernel
  have hturns : Writer.turns 3 (Traffic.run limits calls).writer.ready = 4 := by decide +kernel
  have hleft : (Traffic.run limits calls).writer.ready.map (·.unsent.length) = [11] := by
    decide +kernel
  rw [hpieces] at hcount hsizes
  rw [hturns] at hends
  have hlast : last = 16 := by
    have hlength := congrArg List.length hframe
    rw [List.length_flatMap, hsizes] at hlength
    exact Nat.add_left_cancel (hlength : 16 + (last + 0) = 16 + 16)
  rw [hlast] at hsizes
  exact ⟨hstaged, hbody, hcount, ⟨pieces, hqueued, hsizes⟩, out, left, hdrain,
    hfragments.trans hleft, hends⟩

end ChunkRouter.Frame
