import ChunkRouter.ByteStream.Transfer
import ChunkRouter.Proofs.Frame.Writing

/-!
# Writers as outboxes

To its callers a writer is an `Outbox`: the body under construction and the wire bytes that were not
taken. `run_refines_outbox` says that any run of calls behaves like one, and that the bytes taken
are where the frames of the completed chunks begin. A write asks for memory first; it is given as
long as a fragment fits a buffer.
-/

namespace ChunkRouter.Frame

open ChunkRouter.ByteStream (IoError)
open Grammar (frame wire)

/-- A call on a writer. -/
inductive Call where
  | write (bytes : Bytes)
  | put (byte : UInt8)
  /-- Write through an interface that knows stream errors only. -/
  | sink (bytes : Bytes)
  | complete
  | advance (n : Nat)
  | reset

/-- What a call answers. -/
inductive Answer where
  | done (result : Except FramingError Unit)
  | count (result : Except FramingError Nat)
  | sunk (result : Except IoError Nat)

/-- Whether a call was refused. -/
def Answer.isError : Answer → Bool
  | .done (.error _) | .count (.error _) | .sunk (.error _) => true
  | _ => false

/-- The bytes that a call appends. -/
def Call.appended? : Call → Option Bytes
  | .write bytes | .sink bytes => some bytes
  | .put byte => some [byte]
  | _ => none

/-- The answer of an appending call, given the result of the write and its length. -/
def Call.answer (c : Call) (n : Nat) (result : Except FramingError Unit) : Answer :=
  match c, result with
  | .sink _, .ok () => .sunk (.ok n)
  | .sink _, .error e => .sunk (.error (.ofFraming e))
  | _, result => .done result

/-- Carry out a call. -/
def Writer.call (w : Writer) : Call → Writer × Answer
  | .write bytes => ((w.write bytes).1, .done (w.write bytes).2)
  | .put byte => ((w.put byte).1, .done (w.put byte).2)
  | .sink bytes => ((ByteStream.sink w bytes).1, .sunk (ByteStream.sink w bytes).2)
  | .complete => (w.complete.1, .count w.complete.2)
  | .advance n => ((w.advance n).1, .done (w.advance n).2)
  | .reset => (w.reset, .done (.ok ()))

/-- The body under construction and the wire bytes not yet taken. -/
structure Outbox where
  staged : Bytes
  unsent : Bytes

namespace Outbox

/-- Append to the body under construction, unless it would grow beyond `max`. -/
def append (max : Nat) (o : Outbox) (bytes : Bytes) : Outbox × Except FramingError Unit :=
  if o.staged.length + bytes.length ≤ max then
    ({ o with staged := o.staged ++ bytes }, .ok ())
  else (o, .error (.oversized (o.staged.length + bytes.length) max))

/-- Carry out a call while `inFlight` bytes of the current fragment are left. -/
def call (limits : Limits) (inFlight : Nat) (o : Outbox) : Call → Outbox × Answer
  | .write bytes =>
    ((o.append limits.maxChunkLen bytes).1, .done (o.append limits.maxChunkLen bytes).2)
  | .put byte =>
    ((o.append limits.maxChunkLen [byte]).1, .done (o.append limits.maxChunkLen [byte]).2)
  | .sink bytes =>
    match o.append limits.maxChunkLen bytes with
    | (o, .ok ()) => (o, .sunk (.ok bytes.length))
    | (o, .error e) => (o, .sunk (.error (.ofFraming e)))
  | .complete =>
    if o.staged = [] then (o, .count (.error .empty))
    else
      (⟨[], o.unsent ++ frame o.staged⟩,
        .count (.ok ((o.staged.length + prefixSize + limits.fragmentSize - 1) /
          limits.fragmentSize)))
  | .advance n =>
    if n ≤ inFlight then ({ o with unsent := o.unsent.drop n }, .done (.ok ()))
    else (o, .done (.error (.overrun n inFlight)))
  | .reset => (⟨[], []⟩, .done (.ok ()))

theorem call_of_appended? {c : Call} {bytes : Bytes} (h : c.appended? = some bytes)
    (limits : Limits) (inFlight : Nat) (o : Outbox) :
    o.call limits inFlight c =
      ((o.append limits.maxChunkLen bytes).1,
        c.answer bytes.length (o.append limits.maxChunkLen bytes).2) := by
  cases c <;> cases h
  · rfl
  · rfl
  · simp only [call]
    rcases o.append limits.maxChunkLen bytes with ⟨o', e | u⟩ <;> rfl

end Outbox

namespace Writer

def outbox (w : Writer) : Outbox := ⟨w.staged, w.unsent⟩

/-! ## One call -/

theorem call_of_appended? {c : Call} {bytes : Bytes} (h : c.appended? = some bytes) (w : Writer) :
    w.call c = ((w.write bytes).1, c.answer bytes.length (w.write bytes).2) := by
  cases c <;> cases h
  · rfl
  · rfl
  · simp only [call, ByteStream.sink]
    rcases w.write bytes with ⟨v, e | u⟩ <;> rfl

/-- What a call that appends does: the outbox says whether it is refused, and then nothing changes. -/
theorem Sound.write {w : Writer} (h : w.Sound) (bytes : Bytes) :
    ∃ v, w.write bytes = (v, (w.outbox.append w.limits.maxChunkLen bytes).2) ∧ v.Sound ∧
      v.outbox = (w.outbox.append w.limits.maxChunkLen bytes).1 ∧
      v = { w with blocks := v.blocks, spare := v.spare, stagedLen := v.stagedLen } ∧
      ((w.outbox.append w.limits.maxChunkLen bytes).2 ≠ .ok () → v = w) := by
  have hlen : w.outbox.staged.length = w.stagedLen := h.length_staged
  simp only [Outbox.append, hlen]
  by_cases hle : w.stagedLen + bytes.length ≤ w.limits.maxChunkLen
  · obtain ⟨v, hwrite, hsound, hstaged, hothers⟩ := write_of_le h hle
    rw [if_pos hle]
    refine ⟨v, hwrite, hsound, ?_, hothers, fun hok => absurd rfl hok⟩
    have hunsent : v.unsent = w.unsent := by rw [hothers]; rfl
    rw [outbox, hstaged, hunsent]
    rfl
  · rw [if_neg hle]
    exact ⟨w, write_of_lt (Nat.not_le.1 hle), h, rfl, rfl, fun _ => rfl⟩

theorem Sound.call_append {w : Writer} (h : w.Sound) {c : Call} {bytes : Bytes}
    (hc : c.appended? = some bytes) :
    (w.call c).1.Sound ∧ (w.call c).1.limits = w.limits ∧
      ((w.call c).1.outbox, (w.call c).2) = w.outbox.call w.limits w.current.length c := by
  obtain ⟨v, hwrite, hsound, houtbox, hothers, -⟩ := h.write bytes
  rw [call_of_appended? hc, Outbox.call_of_appended? hc, hwrite]
  refine ⟨hsound, ?_, by rw [houtbox]⟩
  show v.limits = w.limits
  rw [hothers]

theorem Sound.call_complete {w : Writer} (h : w.Sound) :
    w.complete.1.Sound ∧ w.complete.1.limits = w.limits ∧
      (w.complete.1.outbox, Answer.count w.complete.2) =
        w.outbox.call w.limits w.current.length .complete := by
  by_cases hs : w.staged = []
  · have houtbox : w.outbox.staged = [] := hs
    rw [complete_of_nil h hs, Outbox.call, if_pos houtbox]
    refine ⟨h.discardStaged, by rw [discardStaged_eq], ?_⟩
    rw [discardStaged_eq, outbox, outbox, hs]
    rfl
  · have houtbox : w.outbox.staged ≠ [] := hs
    obtain ⟨pieces, hcomplete, hframe, -, hsound⟩ := complete_of_ne_nil h hs
    rw [hcomplete, Outbox.call, if_neg houtbox]
    refine ⟨hsound, rfl, ?_⟩
    simp only [outbox, unsent, List.flatMap_append, hframe]
    rfl

theorem Sound.call_advance {w : Writer} (h : w.Sound) (n : Nat) :
    (w.advance n).1.Sound ∧ (w.advance n).1.limits = w.limits ∧
      ((w.advance n).1.outbox, Answer.done (w.advance n).2) =
        w.outbox.call w.limits w.current.length (.advance n) := by
  by_cases hle : n ≤ w.current.length
  · obtain ⟨v, hadvance, hsound, hunsent, -, hlimits, hblocks, -⟩ := advance_of_le h hle
    rw [hadvance, Outbox.call, if_pos hle]
    refine ⟨hsound, hlimits, ?_⟩
    simp only [outbox, staged, hblocks, hunsent]
  · rw [advance_of_lt (Nat.not_le.1 hle), Outbox.call, if_neg hle]
    exact ⟨h, rfl, rfl⟩

/-- Every call keeps the invariant and answers as the outbox does. -/
theorem Sound.call {w : Writer} (h : w.Sound) (c : Call) :
    (w.call c).1.Sound ∧ (w.call c).1.limits = w.limits ∧
      ((w.call c).1.outbox, (w.call c).2) = w.outbox.call w.limits w.current.length c := by
  cases c with
  | write bytes => exact h.call_append rfl
  | put byte => exact h.call_append rfl
  | sink bytes => exact h.call_append rfl
  | complete => exact h.call_complete
  | advance n => exact h.call_advance n
  | reset =>
    refine ⟨h.reset, ?_, ?_⟩
    · show w.reset.limits = w.limits
      rw [reset_eq]
    · show (w.reset.outbox, _) = _
      rw [reset_eq]
      rfl

/-- A writer opens blocks of the size of a fragment and asks for no more than that. -/
theorem reserve_eq_ok {w : Writer} (h : w.limits.fragmentSize ≤ Memory.bufferLimit) (n : Nat) :
    w.reserve n = .ok () := by
  unfold reserve
  split
  · rfl
  · rw [Memory.reserve_eq_ok_iff, Nat.one_mul]
    exact h

/-- There is memory to write as long as a fragment fits a buffer. -/
theorem tryWrite_eq {w : Writer} (h : w.limits.fragmentSize ≤ Memory.bufferLimit) (bytes : Bytes) :
    w.tryWrite bytes = .ok (w.write bytes) := by
  rw [tryWrite, reserve_eq_ok h]
  rfl

theorem Call.isError_answer {c : Call} {n : Nat} {result : Except FramingError Unit}
    (h : (c.answer n result).isError = true) : result ≠ .ok () := by
  rintro rfl
  cases c <;> cases h

theorem Sound.call_append_of_isError {w : Writer} (h : w.Sound) {c : Call} {bytes : Bytes}
    (hc : c.appended? = some bytes) (he : (w.call c).2.isError = true) : (w.call c).1 = w := by
  obtain ⟨v, hwrite, -, -, -, hsame⟩ := h.write bytes
  rw [call_of_appended? hc, hwrite] at he ⊢
  exact hsame (Call.isError_answer he)

/-- A refused call changes nothing, unless it is a completion. -/
theorem Sound.call_of_isError {w : Writer} (h : w.Sound) {c : Call} (hc : c ≠ .complete)
    (he : (w.call c).2.isError = true) : (w.call c).1 = w := by
  cases c with
  | write bytes => exact h.call_append_of_isError rfl he
  | put byte => exact h.call_append_of_isError rfl he
  | sink bytes => exact h.call_append_of_isError rfl he
  | complete => exact absurd rfl hc
  | advance n =>
    by_cases hle : n ≤ w.current.length
    · obtain ⟨v, hadvance, -⟩ := advance_of_le h hle
      simp [Writer.call, hadvance, Answer.isError] at he
    · show (w.advance n).1 = w
      rw [advance_of_lt (Nat.not_le.1 hle)]
  | reset => simp [Writer.call, Answer.isError] at he

end Writer

/-! ## Runs -/

/-- A writer in use, with the bytes the transport took and the bodies that were completed. -/
structure Traffic where
  writer : Writer
  taken : Bytes
  completed : List Bytes

namespace Traffic

def new (limits : Limits) : Traffic := ⟨.new limits, [], []⟩

/-- What the transport takes in a call: it reads where the current fragment goes on. -/
def takenBy (w : Writer) : Call → Bytes
  | .advance n =>
    match (w.advance n).2 with
    | .ok () => w.current.take n
    | .error _ => []
  | _ => []

/-- The bodies that a call completes. -/
def completedBy (w : Writer) : Call → List Bytes
  | .complete =>
    match w.complete.2 with
    | .ok _ => [w.staged]
    | .error _ => []
  | _ => []

def step (t : Traffic) (c : Call) : Traffic where
  writer := (t.writer.call c).1
  taken := t.taken ++ takenBy t.writer c
  completed := t.completed ++ completedBy t.writer c

def run (limits : Limits) (calls : List Call) : Traffic := calls.foldl step (new limits)

/-- What holds of a writer that was never started over: completed chunks are taken or unsent, byte by
byte and in number. -/
structure Balanced (t : Traffic) : Prop where
  sound : t.writer.Sound
  bytes : t.taken ++ t.writer.unsent = wire t.completed
  chunks : t.writer.chunksWritten + t.writer.chunksPending = t.completed.length

theorem balanced_new (limits : Limits) : (new limits).Balanced :=
  ⟨Writer.sound_new limits, rfl, rfl⟩

theorem takenBy_of_appended? {c : Call} {bytes : Bytes} (h : c.appended? = some bytes)
    (w : Writer) : takenBy w c = [] := by
  cases c <;> first | rfl | cases h

theorem completedBy_of_appended? {c : Call} {bytes : Bytes} (h : c.appended? = some bytes)
    (w : Writer) : completedBy w c = [] := by
  cases c <;> first | rfl | cases h

/-- A call that only appends leaves the wire alone. -/
theorem Balanced.append {t : Traffic} (h : t.Balanced) {c : Call} {bytes : Bytes}
    (hc : c.appended? = some bytes) : (t.step c).Balanced := by
  obtain ⟨v, hwrite, hsound, -, hothers, -⟩ := h.sound.write bytes
  have htaken := takenBy_of_appended? hc t.writer
  have hcompleted := completedBy_of_appended? hc t.writer
  have hunsent : v.unsent = t.writer.unsent := by rw [hothers]; rfl
  have hpending : v.chunksPending = t.writer.chunksPending := by rw [hothers]; rfl
  have hwritten : v.chunksWritten = t.writer.chunksWritten := by rw [hothers]
  simp only [step, htaken, hcompleted, Writer.call_of_appended? hc, hwrite, List.append_nil]
  exact ⟨hsound, by rw [hunsent]; exact h.bytes, by rw [hwritten, hpending]; exact h.chunks⟩

/-- A completion adds one frame, if anything was staged. -/
theorem Balanced.complete {t : Traffic} (h : t.Balanced) : (t.step .complete).Balanced := by
  have hsound : (t.step .complete).writer.Sound := (h.sound.call .complete).1
  have hbytes := h.bytes
  have hchunks := h.chunks
  by_cases hs : t.writer.staged = []
  · have hstep : t.step .complete = { t with writer := t.writer.discardStaged } := by
      simp [step, Writer.call, takenBy, completedBy, Writer.complete_of_nil h.sound hs]
    rw [hstep] at hsound ⊢
    rw [Writer.discardStaged_eq] at hsound ⊢
    exact ⟨hsound, hbytes, hchunks⟩
  · obtain ⟨pieces, hcomplete, hframe, hlast, -⟩ := Writer.complete_of_ne_nil h.sound hs
    have hstep : t.step .complete =
        { writer := { t.writer with
            blocks := [], stagedLen := 0, ready := t.writer.ready ++ pieces }
          taken := t.taken
          completed := t.completed ++ [t.writer.staged] } := by
      simp [step, Writer.call, takenBy, completedBy, hcomplete]
    rw [hstep] at hsound ⊢
    refine ⟨hsound, ?_, ?_⟩
    · simp only [Writer.unsent, List.flatMap_append, hframe, Grammar.wire_append]
      rw [← hbytes, List.append_assoc]
      simp [wire, Writer.unsent]
    · simp only [Writer.chunksPending, List.countP_append, hlast, List.length_append] at hchunks ⊢
      simp only [List.length_cons, List.length_nil]
      omega

/-- Taking bytes moves them from one side to the other. -/
theorem Balanced.advance {t : Traffic} (h : t.Balanced) (n : Nat) :
    (t.step (.advance n)).Balanced := by
  by_cases hle : n ≤ t.writer.current.length
  · obtain ⟨v, hadvance, hsound, hunsent, hchunks, -⟩ := Writer.advance_of_le h.sound hle
    have hstep : t.step (.advance n) =
        { t with writer := v, taken := t.taken ++ t.writer.current.take n } := by
      simp [step, Writer.call, takenBy, completedBy, hadvance]
    rw [hstep]
    refine ⟨hsound, ?_, hchunks.trans h.chunks⟩
    obtain ⟨rest, hrest⟩ := t.writer.current_prefix_unsent
    show t.taken ++ t.writer.current.take n ++ v.unsent = wire t.completed
    rw [hunsent, ← h.bytes, ← hrest, List.drop_append_of_le_length hle, List.append_assoc,
      ← List.append_assoc (t.writer.current.take n), List.take_append_drop]
  · have hstep : t.step (.advance n) = t := by
      simp [step, Writer.call, takenBy, completedBy, Writer.advance_of_lt (Nat.not_le.1 hle)]
    rw [hstep]
    exact h

theorem Balanced.step {t : Traffic} (h : t.Balanced) {c : Call} (hc : c ≠ .reset) :
    (t.step c).Balanced := by
  cases c with
  | write bytes => exact h.append rfl
  | put byte => exact h.append rfl
  | sink bytes => exact h.append rfl
  | complete => exact h.complete
  | advance n => exact h.advance n
  | reset => exact absurd rfl hc

theorem Balanced.foldl {t : Traffic} (h : t.Balanced) (calls : List Call)
    (hreset : Call.reset ∉ calls) : (calls.foldl Traffic.step t).Balanced := by
  induction calls generalizing t with
  | nil => exact h
  | cons c calls ih =>
    rw [List.mem_cons, not_or] at hreset
    exact ih (h.step (Ne.symm hreset.1)) hreset.2

/-- Calls keep the writer's invariant, started over or not. -/
theorem sound_foldl (calls : List Call) (t : Traffic) (h : t.writer.Sound) :
    (calls.foldl step t).writer.Sound ∧ (calls.foldl step t).writer.limits = t.writer.limits := by
  induction calls generalizing t with
  | nil => exact ⟨h, rfl⟩
  | cons c calls ih =>
    obtain ⟨hsound, hlimits, -⟩ := h.call c
    obtain ⟨hsound', hlimits'⟩ := ih (t.step c) hsound
    exact ⟨hsound', hlimits'.trans hlimits⟩

end Traffic

/-- **A writer is an outbox.** After any run of calls, each call changes the body under construction
and the unsent bytes, and answers, as the outbox does; a refused call changes nothing, except that
completing nothing gives up the empty chunk and leaves the wire alone, and no completion is refused
for its size. The fragment in flight is where the unsent bytes begin, and there is one as long as
there are any. A write has its memory unless a fragment is larger than any buffer. As long as the
writer is not started over, the bytes taken and the unsent ones are the frames of the completed
chunks. -/
theorem run_refines_outbox (limits : Limits) (calls : List Call) :
    let t := Traffic.run limits calls
    let w := t.writer
    (Writer.new limits).outbox = ⟨[], []⟩ ∧
      (∀ c, ((w.call c).1.outbox, (w.call c).2) = w.outbox.call limits w.current.length c) ∧
      (∀ c, c ≠ .complete → (w.call c).2.isError = true → (w.call c).1 = w) ∧
      (w.staged = [] → w.complete.1.ready = w.ready ∧ w.complete.1.offset = w.offset) ∧
      (∀ size max, w.complete.2 ≠ .error (.oversized size max)) ∧
      (w.current? = none ↔ w.unsent = []) ∧
      (∀ bytes, w.current? = some bytes → bytes ≠ [] ∧ bytes <+: w.unsent) ∧
      (limits.fragmentSize ≤ Memory.bufferLimit →
        ∀ bytes, w.tryWrite bytes = .ok (w.write bytes)) ∧
      (Call.reset ∉ calls → t.taken ++ w.unsent = wire t.completed) := by
  intro t w
  obtain ⟨hsound, hlimits⟩ : w.Sound ∧ w.limits = limits :=
    Traffic.sound_foldl calls (.new limits) (Writer.sound_new limits)
  refine ⟨rfl, fun c => ?_, fun c hc he => hsound.call_of_isError hc he, fun hs => ?_, ?_,
    hsound.current?_eq_none_iff, fun bytes hb => hsound.of_current?_eq_some hb,
    fun hfit => Writer.tryWrite_eq (hlimits ▸ hfit), fun hreset => ?_⟩
  · rw [← hlimits]
    exact (hsound.call c).2.2
  · rw [Writer.complete_of_nil hsound hs, Writer.discardStaged_eq]
    exact ⟨rfl, rfl⟩
  · intro size max
    by_cases hs : w.staged = []
    · rw [Writer.complete_of_nil hsound hs]
      simp
    · obtain ⟨pieces, hcomplete, -⟩ := Writer.complete_of_ne_nil hsound hs
      rw [hcomplete]
      simp
  · exact ((Traffic.balanced_new limits).foldl calls hreset).bytes

end ChunkRouter.Frame
