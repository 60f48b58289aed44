import ChunkRouter.Proofs.Frame.Outbox

/-!
# Blocks that are used again

A writer keeps emptied blocks for later chunks, wherever they come from: fragments that were sent,
chunks that were refused or given up. `Writer.bare` is a writer that keeps none and has counted nothing.
Every call does to a writer what it does to the bare one (`bare_call`), so callers see the same of both
but for the count of chunks (`shows_eq`). A writer that was started over is a new one when bare, so
nothing of its past can be seen.
-/

namespace ChunkRouter.Frame

namespace Writer

/-! ## What callers see -/

/-- Carry out a call, if there is memory for the bytes it appends. -/
def tryCall (w : Writer) (c : Call) : Writer × Except Panic Answer :=
  match c.appended?.elim (.ok ()) fun bytes => w.reserve bytes.length with
  | .ok () => ((w.call c).1, .ok (w.call c).2)
  | .error p => (w, .error p)

end Writer

/-- What a call shows: its answer, the bytes that the transport takes in it, and what there is to be
asked for afterwards. -/
structure Shown where
  answer : Except Panic Answer
  taken : Bytes
  current? : Option Bytes
  fragmentCount : Nat
  hasPending : Bool
  stagedLen : Nat
  chunksWritten : Nat

/-- The same where `n` chunks had been sent before. -/
def Shown.after (n : Nat) (s : Shown) : Shown := { s with chunksWritten := n + s.chunksWritten }

theorem Shown.after_after (n m : Nat) (s : Shown) : (s.after m).after n = s.after (n + m) := by
  unfold Shown.after
  rw [Nat.add_assoc]

namespace Writer

def shown (w : Writer) (c : Call) : Shown :=
  let v := (w.tryCall c).1
  { answer := (w.tryCall c).2
    taken := Traffic.takenBy w c
    current? := v.current?
    fragmentCount := v.fragmentCount
    hasPending := v.hasPending
    stagedLen := v.stagedLen
    chunksWritten := v.chunksWritten }

/-- What calls show, one after another. -/
def shows (w : Writer) : List Call → List Shown
  | [] => []
  | c :: calls => w.shown c :: (w.tryCall c).1.shows calls

/-- A writer after some calls. -/
def used (limits : Limits) (calls : List Call) : Writer :=
  calls.foldl (fun w c => (w.tryCall c).1) (new limits)

/-- The same writer without kept blocks, which has counted nothing. -/
def bare (w : Writer) : Writer := { w with spare := [], chunksWritten := 0, meter := .empty }

/-! ## One operation -/

variable {w : Writer}

theorem clean_bare (w : Writer) : w.bare.Clean :=
  ⟨fun _ hb => absurd hb List.not_mem_nil, Nat.zero_le _⟩

theorem Sound.bare (h : w.Sound) : w.bare.Sound where
  packed := h.packed
  length_blocks := h.length_blocks
  stagedLen_of_nil := h.stagedLen_of_nil
  stagedLen_le := h.stagedLen_le
  unsent_ne_nil := h.unsent_ne_nil
  offset_of_nil := h.offset_of_nil
  clean := clean_bare w

/-- A kept block holds nothing, so starting a block in it is starting a new one. -/
theorem bare_openBlock (h : w.Clean) (bytes : Bytes) :
    w.bare.openBlock bytes = (w.openBlock bytes).bare := by
  rw [openBlock_eq h, openBlock_eq (clean_bare w)]
  rfl

theorem bare_openBlocks (h : w.Clean) (bytes : Bytes) :
    w.bare.openBlocks bytes = (w.openBlocks bytes).bare := by
  fun_induction openBlocks w bytes with
  | case1 w => rw [openBlocks]
  | case2 w b rest ih =>
    rw [openBlocks]
    show ((w.bare.openBlock _).openBlocks _) = _
    rw [bare_openBlock h]
    exact ih (h.openBlock _)

theorem bare_stage (h : w.Clean) (bytes : Bytes) : w.bare.stage bytes = (w.stage bytes).bare := by
  rcases hb : w.blocks with _ | ⟨block, older⟩
  · have hb' : w.bare.blocks = [] := hb
    simp only [stage, hb, hb']
    exact bare_openBlocks h bytes
  · have hb' : w.bare.blocks = block :: older := hb
    simp only [stage, hb, hb']
    exact bare_openBlocks (w := { w with blocks := (block ++ bytes.take _) :: older }) h _

theorem bare_opened (h : w.Clean) : w.bare.opened = w.opened.bare := by
  unfold opened
  by_cases hb : w.blocks.isEmpty = true
  · have hb' : w.bare.blocks.isEmpty = true := hb
    rw [if_pos hb, if_pos hb', bare_openBlock h]
  · have hb' : ¬ w.bare.blocks.isEmpty = true := hb
    rw [if_neg hb, if_neg hb']

theorem bare_write (h : w.Sound) (bytes : Bytes) :
    w.bare.write bytes = ((w.write bytes).1.bare, (w.write bytes).2) := by
  by_cases hle : w.stagedLen + bytes.length ≤ w.limits.maxChunkLen
  · rw [write_eq hle, write_eq (w := w.bare) hle, bare_opened h.clean, bare_stage h.opened.1.clean]
    rfl
  · rw [write_of_lt (Nat.not_le.1 hle), write_of_lt (w := w.bare) (Nat.not_le.1 hle)]
    rfl

theorem bare_discardStaged (w : Writer) : w.bare.discardStaged.bare = w.discardStaged.bare := by
  rw [discardStaged_eq, discardStaged_eq w]
  rfl

theorem bare_complete (w : Writer) :
    w.bare.complete.1.bare = w.complete.1.bare ∧ w.bare.complete.2 = w.complete.2 := by
  unfold complete
  by_cases h0 : w.stagedLen = 0
  · have h0' : w.bare.stagedLen = 0 := h0
    rw [if_pos h0, if_pos h0']
    exact ⟨bare_discardStaged w, rfl⟩
  · have h0' : w.bare.stagedLen ≠ 0 := h0
    rw [if_neg h0, if_neg h0']
    by_cases hmax : maxBodyLen < w.stagedLen
    · have hmax' : maxBodyLen < w.bare.stagedLen := hmax
      rw [if_pos hmax, if_pos hmax']
      exact ⟨rfl, rfl⟩
    · have hmax' : ¬ maxBodyLen < w.bare.stagedLen := hmax
      rw [if_neg hmax, if_neg hmax']
      exact ⟨rfl, rfl⟩

/-- A block that is kept is not seen. -/
theorem bare_recycle (w : Writer) (block : Bytes) : (w.recycle block).bare = w.bare := by
  rw [recycle_eq]
  rfl

theorem chunksWritten_recycle (w : Writer) (block : Bytes) :
    (w.recycle block).chunksWritten = w.chunksWritten := by
  rw [recycle_eq]

theorem bare_finishFragment (w : Writer) :
    w.bare.finishFragment.bare = w.finishFragment.bare ∧
      w.finishFragment.chunksWritten = w.chunksWritten + w.bare.finishFragment.chunksWritten := by
  rcases hr : w.ready with _ | ⟨front, ready⟩
  · have hr' : w.bare.ready = [] := hr
    simp only [finishFragment, hr, hr']
    exact ⟨rfl, rfl⟩
  · have hr' : w.bare.ready = front :: ready := hr
    simp only [finishFragment, hr, hr', bare_recycle, chunksWritten_recycle]
    cases front.last
    · exact ⟨rfl, rfl⟩
    · exact ⟨rfl, (Nat.add_comm ..).trans (Nat.add_comm ..)⟩

theorem bare_advance (w : Writer) (n : Nat) :
    (w.bare.advance n).1.bare = (w.advance n).1.bare ∧ (w.bare.advance n).2 = (w.advance n).2 ∧
      (w.advance n).1.chunksWritten = w.chunksWritten + (w.bare.advance n).1.chunksWritten := by
  by_cases hle : n ≤ w.current.length
  · rcases hr : w.ready with _ | ⟨front, ready⟩
    · have hr' : w.bare.ready = [] := hr
      simp only [advance, hr, hr']
      split <;> exact ⟨rfl, rfl, rfl⟩
    · have hfront : n ≤ front.unsent.length := current_of_ready hr ▸ hle
      rw [advance_eq hr hfront, advance_eq (w := w.bare) hr hfront]
      by_cases hdone : n ≠ 0 ∧ front.unsent.drop n = []
      · rw [if_pos hdone, if_pos hdone]
        have hfinish := bare_finishFragment (w.moved front ready n)
        exact ⟨hfinish.1, rfl, hfinish.2⟩
      · rw [if_neg hdone, if_neg hdone]
        exact ⟨rfl, rfl, rfl⟩
  · have hlt := Nat.not_le.1 hle
    rw [advance_of_lt hlt, advance_of_lt (w := w.bare) hlt]
    exact ⟨rfl, rfl, rfl⟩

/-- Starting over gives a new writer, but for what is kept and what was counted. -/
theorem bare_reset (w : Writer) : w.reset.bare = new w.limits := by
  rw [reset_eq]
  rfl

theorem chunksWritten_reset (w : Writer) : w.reset.chunksWritten = w.chunksWritten := by
  rw [reset_eq]

/-! ## Calls -/

theorem chunksWritten_write (h : w.Sound) (bytes : Bytes) :
    (w.write bytes).1.chunksWritten = w.chunksWritten := by
  obtain ⟨v, hwrite, -, -, hothers, -⟩ := h.write bytes
  rw [hwrite]
  show v.chunksWritten = w.chunksWritten
  rw [hothers]

theorem chunksWritten_complete (w : Writer) : w.complete.1.chunksWritten = w.chunksWritten := by
  unfold complete
  split
  · rw [discardStaged_eq]
  · split <;> rfl

theorem bare_call_append (h : w.Sound) {c : Call} {bytes : Bytes} (hc : c.appended? = some bytes) :
    (w.bare.call c).1.bare = (w.call c).1.bare ∧ (w.bare.call c).2 = (w.call c).2 ∧
      (w.call c).1.chunksWritten = w.chunksWritten + (w.bare.call c).1.chunksWritten := by
  rw [call_of_appended? hc, call_of_appended? hc, bare_write h]
  exact ⟨rfl, rfl, chunksWritten_write h bytes⟩

/-- A call does to a writer what it does to the bare one, and answers alike. -/
theorem bare_call (h : w.Sound) (c : Call) :
    (w.bare.call c).1.bare = (w.call c).1.bare ∧ (w.bare.call c).2 = (w.call c).2 ∧
      (w.call c).1.chunksWritten = w.chunksWritten + (w.bare.call c).1.chunksWritten := by
  cases c with
  | write bytes => exact bare_call_append h rfl
  | put byte => exact bare_call_append h rfl
  | sink bytes => exact bare_call_append h rfl
  | complete =>
    obtain ⟨hbare, hanswer⟩ := bare_complete w
    refine ⟨hbare, congrArg Answer.count hanswer, ?_⟩
    show w.complete.1.chunksWritten = w.chunksWritten + w.bare.complete.1.chunksWritten
    rw [chunksWritten_complete, chunksWritten_complete]
    rfl
  | advance n =>
    obtain ⟨hbare, hanswer, hwritten⟩ := bare_advance w n
    exact ⟨hbare, congrArg Answer.done hanswer, hwritten⟩
  | reset =>
    refine ⟨(bare_reset w.bare).trans (bare_reset w).symm, rfl, ?_⟩
    show w.reset.chunksWritten = w.chunksWritten + w.bare.reset.chunksWritten
    rw [chunksWritten_reset, chunksWritten_reset]
    rfl

theorem bare_tryCall (h : w.Sound) (c : Call) :
    (w.bare.tryCall c).1.bare = (w.tryCall c).1.bare ∧ (w.bare.tryCall c).2 = (w.tryCall c).2 ∧
      (w.tryCall c).1.chunksWritten = w.chunksWritten + (w.bare.tryCall c).1.chunksWritten := by
  have hreserve : ∀ n, w.bare.reserve n = w.reserve n := fun _ => rfl
  obtain ⟨hbare, hanswer, hwritten⟩ := bare_call h c
  simp only [tryCall, hreserve]
  cases c.appended?.elim (.ok ()) fun bytes => w.reserve bytes.length with
  | ok u => exact ⟨hbare, congrArg Except.ok hanswer, hwritten⟩
  | error p => exact ⟨rfl, rfl, rfl⟩

theorem Sound.tryCall (h : w.Sound) (c : Call) :
    (w.tryCall c).1.Sound ∧ (w.tryCall c).1.limits = w.limits := by
  unfold Writer.tryCall
  split
  · exact ⟨(h.call c).1, (h.call c).2.1⟩
  · exact ⟨h, rfl⟩

theorem Sound.foldl_tryCall (h : w.Sound) (calls : List Call) :
    (calls.foldl (fun w c => (w.tryCall c).1) w).Sound ∧
      (calls.foldl (fun w c => (w.tryCall c).1) w).limits = w.limits := by
  induction calls generalizing w with
  | nil => exact ⟨h, rfl⟩
  | cons c calls ih =>
    obtain ⟨hsound, hlimits⟩ := h.tryCall c
    obtain ⟨hrest, hsame⟩ := ih hsound
    exact ⟨hrest, hsame.trans hlimits⟩

/-! ## Runs -/

theorem shown_eq (h : w.Sound) (c : Call) : w.shown c = (w.bare.shown c).after w.chunksWritten := by
  obtain ⟨hbare, hanswer, hwritten⟩ := bare_tryCall h c
  have htaken : Traffic.takenBy w.bare c = Traffic.takenBy w c := by
    cases c with
    | advance n =>
      simp only [Traffic.takenBy, (bare_advance w n).2.1]
      rfl
    | _ => rfl
  have hready : (w.bare.tryCall c).1.ready = (w.tryCall c).1.ready := (mk.inj hbare).2.2.2.1
  have hstaged : (w.bare.tryCall c).1.stagedLen = (w.tryCall c).1.stagedLen := (mk.inj hbare).2.2.1
  simp only [shown, Shown.after, current?, fragmentCount, hasPending, hwritten, hready, hstaged,
    hanswer, htaken]

/-- Neither kept blocks nor earlier counts are seen, but that the count of chunks goes on from there. -/
theorem shows_eq (h : w.Sound) (calls : List Call) :
    w.shows calls = (w.bare.shows calls).map (Shown.after w.chunksWritten) := by
  induction calls generalizing w with
  | nil => rfl
  | cons c calls ih =>
    obtain ⟨hbare, -, hwritten⟩ := bare_tryCall h c
    rw [shows, shows, List.map_cons, shown_eq h c, ih (h.tryCall c).1, ih (h.bare.tryCall c).1, hbare,
      hwritten, List.map_map]
    simp only [Function.comp_def, Shown.after_after]

/-- **A writer that was started over is a new one.** Whatever was done before, and with however little
memory, a writer that is started over shows its callers, in any calls that follow, what a new one shows;
only the count of chunks goes on. Kept blocks are never seen at all: any writer shows what it would show
had it kept none. There are sixteen of them at most, and they hold nothing. -/
theorem reset_leaves_no_trace (limits : Limits) (before after : List Call) :
    let w := used limits before
    w.reset.shows after = ((new limits).shows after).map (Shown.after w.chunksWritten) ∧
      w.reset.bare = new limits ∧
      w.shows after = (w.bare.shows after).map (Shown.after w.chunksWritten) ∧
      w.spare.length ≤ 16 ∧ ∀ block ∈ w.spare, block = [] := by
  intro w
  obtain ⟨h, hlimits⟩ : w.Sound ∧ w.limits = limits := (sound_new limits).foldl_tryCall before
  have hnew : w.reset.bare = new limits := by rw [bare_reset, hlimits]
  have hreset := shows_eq h.reset after
  rw [hnew, chunksWritten_reset] at hreset
  exact ⟨hreset, hnew, shows_eq h after, h.clean.2, h.clean.1⟩

end Writer

end ChunkRouter.Frame
