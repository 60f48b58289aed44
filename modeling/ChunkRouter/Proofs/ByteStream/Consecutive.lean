import ChunkRouter.Proofs.ByteStream.Flushing

/-!
# Consecutive flushes

A stream may take any part of what it is offered, take nothing, or fail, at any byte of any fragment.
`Flushes` says what one flush does however the stream answers: the stream takes the front of what the
writer holds and the writer keeps the rest. `consecutive_flushes` follows a writer over any number of
flushes with chunks built in between: nothing is lost or sent twice, and each flush goes on where the
one before it stopped.
-/

namespace ChunkRouter.ByteStream

open ChunkRouter.Frame (Traffic Writer Limits)
open ChunkRouter.Frame.Grammar (wire)

/-! ## How a stream answers -/

namespace Script

variable {s s' : Script} {bytes : Bytes}

/-- A stream that is asked to flush is asked for nothing else. -/
theorem turns_calls (c : Call) (later : List Turn) (calls : List Call) :
    ∃ again, (turns c later calls).2.2 = List.replicate again c ++ calls := by
  fun_induction turns c later calls with
  | case1 calls => exact ⟨1, rfl⟩
  | case2 later calls ih =>
    obtain ⟨again, hagain⟩ := ih
    refine ⟨again + 1, ?_⟩
    rw [hagain, List.replicate_succ', List.append_assoc]
    rfl
  | case3 kind later calls => exact ⟨1, rfl⟩

theorem turns_error {c : Call} {later : List Turn} {calls : List Call} {e : IoError}
    (h : (turns c later calls).1 = .error e) :
    ∃ kind, e = .ofKind kind ∧ Turn.fail kind ∈ later := by
  fun_induction turns c later calls with
  | case1 calls => cases h
  | case2 later calls ih =>
    obtain ⟨kind, he, hmem⟩ := ih h
    exact ⟨kind, he, List.mem_cons_of_mem _ hmem⟩
  | case3 kind later calls =>
    cases h
    exact ⟨kind, rfl, List.mem_cons_self⟩

theorem writeTurns_suffix (turns : List WriteTurn) (bytes : Bytes) :
    (writeTurns turns bytes).2 <:+ turns := by
  fun_induction writeTurns turns bytes with
  | case1 bytes => exact List.suffix_rfl
  | case2 turns bytes ih => exact ih.trans (List.suffix_cons _ _)
  | case3 => exact List.suffix_cons _ _
  | case4 => exact List.suffix_cons _ _

theorem writeTurns_error {turns : List WriteTurn} {e : IoError}
    (h : (writeTurns turns bytes).1 = .error e) :
    ∃ kind, e = .ofKind kind ∧ WriteTurn.fail kind ∈ turns := by
  fun_induction writeTurns turns bytes with
  | case1 bytes => cases h
  | case2 turns bytes ih =>
    obtain ⟨kind, he, hmem⟩ := ih h
    exact ⟨kind, he, List.mem_cons_of_mem _ hmem⟩
  | case3 bytes kind turns =>
    cases h
    exact ⟨kind, rfl, List.mem_cons_self⟩
  | case4 => cases h

/-- A write that went through is recorded, and uses up turns of the writes only. -/
theorem of_write_ok {n : Nat} (h : s.write bytes = (s', .ok n)) :
    n ≤ bytes.length ∧ s'.calls = .wrote (bytes.take n) bytes.length :: s.calls ∧
      s'.writes <:+ s.writes ∧ s'.flushes = s.flushes := by
  unfold write at h
  split at h
  · cases h
  · rename_i hturns
    cases h
    refine ⟨writeTurns_le hturns, rfl, ?_, rfl⟩
    have hsuffix := writeTurns_suffix s.writes bytes
    rw [hturns] at hsuffix
    exact hsuffix

theorem of_write_error {e : IoError} (h : s.write bytes = (s', .error e)) :
    s'.calls = s.calls ∧ ∃ kind, e = .ofKind kind ∧ WriteTurn.fail kind ∈ s.writes := by
  unfold write at h
  split at h
  · rename_i hturns
    cases h
    exact ⟨rfl, writeTurns_error (congrArg Prod.fst hturns)⟩
  · cases h

end Script

/-! ## One flush -/

/-- The number of fragments goes down just when the front one is sent to its end. -/
theorem fragmentCount_advance {w : Writer} {front : Frame.Fragment} {ready : List Frame.Fragment}
    {n : Nat} (h : w.ready = front :: ready) (hn : n ≠ 0) (hle : n ≤ front.unsent.length) :
    (w.advance n).1.fragmentCount + (if n = front.unsent.length then 1 else 0) =
      w.fragmentCount := by
  have hadvance := Writer.advance_eq h hle
  have hcount : w.fragmentCount = ready.length + 1 := by
    rw [Writer.fragmentCount, h, List.length_cons]
  by_cases hdone : n = front.unsent.length
  · have hempty : front.unsent.drop n = [] := List.drop_eq_nil_of_le (Nat.le_of_eq hdone.symm)
    rw [if_pos ⟨hn, hempty⟩] at hadvance
    rw [hadvance, if_pos hdone, hcount, Writer.fragmentCount, Writer.ready_finishFragment]
    rfl
  · have hmore : front.unsent.drop n ≠ [] := by
      rw [Ne, List.drop_eq_nil_iff]
      omega
    rw [if_neg fun hboth => hmore hboth.2] at hadvance
    rw [hadvance, if_neg hdone, hcount]
    rfl

namespace Outlet

/-- What a flush does that had finished `before` fragments already; `asked` are the calls it makes on
the stream, in order. -/
structure Flushes (before : Nat) (o o' : Outlet) (asked : List Call)
    (result : Except RelayError Nat) : Prop where
  recorded : o'.stream.calls = asked.reverse ++ o.stream.calls
  /-- The stream takes the front of what was held; the rest is still held. -/
  moved : asked.flatMap Call.taken ++ o'.writer.unsent = o.writer.unsent
  sound : o'.writer.Sound
  staged : o'.writer.staged = o.writer.staged
  limits : o'.writer.limits = o.writer.limits
  /-- The first write goes on with the fragment in flight. -/
  starts : ∀ bytes offered, asked.head? = some (.wrote bytes offered) →
    offered = o.writer.current.length ∧ bytes <+: o.writer.current
  of_ok : ∀ k, result = .ok k → o'.writer.ready = [] ∧ k = before + o.writer.fragmentCount
  /-- A write that takes nothing is the last call. -/
  of_zero : ∀ offered, .wrote [] offered ∈ asked →
    asked.getLast? = some (.wrote [] offered) ∧ result = .error (.io (.ofKind .writeZero))
  /-- There are no errors but these. -/
  of_error : ∀ e, result = .error e →
    (e = .io (.ofKind .writeZero) ∧ ∃ offered, .wrote [] offered ∈ asked) ∨
      ∃ kind, e = .io (.ofKind kind) ∧
        (.fail kind ∈ o.stream.writes ∨ .fail kind ∈ o.stream.flushes)

variable {o : Outlet}

theorem taken_replicate_flush (again : Nat) :
    (List.replicate again Call.flush).flatMap Call.taken = [] := by
  rw [List.flatMap_eq_nil_iff]
  intro c hc
  rw [List.eq_of_mem_replicate hc]
  rfl

/-- A flush with nothing left to write only asks the stream to flush. -/
theorem flushes_of_ready_nil (h : o.writer.Sound) (hready : o.writer.ready = []) {stream : Script}
    {answer : Except IoError Unit} (hflush : o.stream.flush = (stream, answer)) (before : Nat) :
    ∃ asked, Flushes before o { o with stream := stream } asked
      (answer.map (fun _ => before) |>.mapError .io) := by
  unfold Script.flush at hflush
  obtain ⟨again, hagain⟩ := Script.turns_calls .flush o.stream.flushes o.stream.calls
  rcases hturns : Script.turns .flush o.stream.flushes o.stream.calls with ⟨result, later, calls⟩
  rw [hturns] at hflush hagain
  obtain ⟨rfl, rfl⟩ := Prod.mk.injEq .. ▸ hflush
  have hasked : ∀ c ∈ List.replicate again Call.flush, c = .flush := fun c hc =>
    List.eq_of_mem_replicate hc
  refine ⟨List.replicate again .flush, ?_, ?_, h, rfl, rfl, ?_, ?_, ?_, ?_⟩
  · rw [List.reverse_replicate]
    exact hagain
  · rw [taken_replicate_flush]
    rfl
  · intro bytes offered hhead
    cases hasked _ (List.mem_of_mem_head? hhead)
  · intro k hk
    refine ⟨hready, ?_⟩
    rw [Writer.fragmentCount, hready]
    rcases result with e | u
    · cases hk
    · cases hk
      rfl
  · intro offered hmem
    cases hasked _ hmem
  · intro e he
    rcases result with e' | u
    · cases he
      obtain ⟨kind, rfl, hmem⟩ := Script.turns_error (congrArg Prod.fst hturns)
      exact .inr ⟨kind, rfl, .inr hmem⟩
    · cases he

/-- A write that the stream refuses leaves all as it was. -/
theorem flushes_of_write_error (h : o.writer.Sound) {bytes : Bytes} {stream : Script} {e : IoError}
    (hwrite : o.stream.write bytes = (stream, .error e)) (before : Nat) :
    Flushes before o { o with stream := stream } [] (.error (.io e)) := by
  obtain ⟨hcalls, kind, rfl, hmem⟩ := Script.of_write_error hwrite
  refine ⟨hcalls, rfl, h, rfl, rfl, ?_, ?_, ?_, ?_⟩
  · intro bytes offered hhead
    cases hhead
  · intro k hk
    cases hk
  · intro offered hmem
    cases hmem
  · intro e he
    cases he
    exact .inr ⟨kind, rfl, .inl hmem⟩

/-- A write that takes nothing leaves all as it was, and ends the flush. -/
theorem flushes_of_write_zero (h : o.writer.Sound) {bytes : Bytes} {stream : Script}
    (hcurrent : o.writer.current = bytes) (hwrite : o.stream.write bytes = (stream, .ok 0))
    (before : Nat) :
    Flushes before o { o with stream := stream } [.wrote [] bytes.length]
      (.error (.io (.ofKind .writeZero))) := by
  obtain ⟨-, hcalls, -⟩ := Script.of_write_ok hwrite
  refine ⟨hcalls, rfl, h, rfl, rfl, ?_, ?_, ?_, ?_⟩
  · intro taken offered hhead
    cases hhead
    exact ⟨by rw [hcurrent], List.nil_prefix⟩
  · intro k hk
    cases hk
  · intro offered hmem
    cases List.mem_singleton.1 hmem
    exact ⟨rfl, rfl⟩
  · intro e he
    cases he
    exact .inl ⟨rfl, _, List.mem_singleton_self _⟩

/-- A write that takes something comes before what the flush goes on to do. -/
theorem Flushes.of_write {front : Frame.Fragment} {ready : List Frame.Fragment} {before n : Nat}
    {stream : Script} {o' : Outlet} {asked : List Call} {result : Except RelayError Nat}
    (hready : o.writer.ready = front :: ready)
    (hwrite : o.stream.write front.unsent = (stream, .ok n)) (hn : n ≠ 0)
    (h : o.writer.Sound)
    (hrest : Flushes
      (if (o.writer.advance n).1.fragmentCount < o.writer.fragmentCount then before + 1 else before)
      ⟨stream, (o.writer.advance n).1⟩ o' asked result) :
    Flushes before o o' (.wrote (front.unsent.take n) front.unsent.length :: asked) result := by
  obtain ⟨hle, hcalls, hwrites, hflushes⟩ := Script.of_write_ok hwrite
  have hcurrent : o.writer.current = front.unsent := by
    rw [Writer.current, Writer.current?, hready]
    rfl
  have hne : front.unsent.take n ≠ [] := by
    rw [Ne, List.take_eq_nil_iff]
    rintro (h0 | h0)
    · exact hn h0
    · exact h.unsent_ne_nil front (hready ▸ List.mem_cons_self) h0
  obtain ⟨v, hadvance, -, hunsent, -, hlimits, hblocks, -⟩ :=
    Writer.advance_of_le h (hcurrent ▸ hle)
  have hcount := fragmentCount_advance hready hn hle
  rw [hadvance] at hrest hcount
  have hprefix : front.unsent.take n ++ v.unsent = o.writer.unsent := by
    have hfront : o.writer.unsent = front.unsent ++ ready.flatMap (·.unsent) := by
      rw [Writer.unsent, hready]
      rfl
    rw [hunsent, hfront, List.drop_append_of_le_length hle, ← List.append_assoc,
      List.take_append_drop]
  constructor
  case recorded => rw [hrest.recorded, hcalls, List.reverse_cons, List.append_assoc]; rfl
  case moved =>
    rw [List.flatMap_cons, List.append_assoc, hrest.moved]
    exact hprefix
  case sound => exact hrest.sound
  case staged => rw [hrest.staged, Writer.staged, hblocks]; rfl
  case limits => rw [hrest.limits, hlimits]
  case starts =>
    intro bytes offered hhead
    cases hhead
    rw [hcurrent]
    exact ⟨rfl, List.take_prefix _ _⟩
  case of_ok =>
    intro k hk
    obtain ⟨hnone, hcounted⟩ := hrest.of_ok k hk
    refine ⟨hnone, hcounted.trans ?_⟩
    dsimp only at hcount ⊢
    by_cases hdone : n = front.unsent.length
    · rw [if_pos hdone] at hcount
      rw [if_pos (by omega)]
      omega
    · rw [if_neg hdone] at hcount
      rw [if_neg (by omega)]
      omega
  case of_zero =>
    intro offered hmem
    rcases List.mem_cons.1 hmem with hfirst | hlater
    · injection hfirst with hnil _
      exact absurd hnil.symm hne
    · obtain ⟨hlast, hresult⟩ := hrest.of_zero offered hlater
      refine ⟨?_, hresult⟩
      rw [List.getLast?_cons, hlast]
      rfl
  case of_error =>
    intro e he
    rcases hrest.of_error e he with ⟨hzero, offered, hmem⟩ | ⟨kind, hkind, hmem⟩
    · exact .inl ⟨hzero, offered, List.mem_cons_of_mem _ hmem⟩
    · refine .inr ⟨kind, hkind, hmem.imp (fun hw => hwrites.subset hw) (fun hf => ?_)⟩
      exact hflushes ▸ hf

/-- **However the stream answers, a flush moves bytes from the writer to the stream** and ends in one
of the ways `Flushes` lists. -/
theorem flushLoop_flushes (h : o.writer.Sound) (before : Nat) :
    ∃ asked, Flushes before o (o.flushLoop before).1 asked (o.flushLoop before).2 := by
  fun_induction flushLoop o before with
  | case1 o before hready stream e hflush => exact flushes_of_ready_nil h hready hflush before
  | case2 o before hready stream hflush => exact flushes_of_ready_nil h hready hflush before
  | case3 o before front ready hready stream e hwrite =>
    exact ⟨[], flushes_of_write_error h hwrite before⟩
  | case4 o before front ready hready stream hwrite =>
    exact ⟨_, flushes_of_write_zero h (Writer.current_of_ready hready) hwrite before⟩
  | case5 o before front ready hready stream n hwrite hn w e hrefused =>
    exact absurd hrefused (advance_ne_error hready hwrite)
  | case6 o before front ready hready stream n hwrite hn w hadvance ih =>
    have hfits : n ≤ o.writer.current.length := by
      rw [Writer.current_of_ready hready]
      exact (Script.accepted_write hwrite).1
    obtain ⟨v, hadvance', hsound, -⟩ := Writer.advance_of_le h hfits
    obtain rfl : w = v := congrArg Prod.fst (hadvance.symm.trans hadvance')
    obtain ⟨asked, hrest⟩ := ih hsound
    refine ⟨.wrote (front.unsent.take n) front.unsent.length :: asked, .of_write hready hwrite hn h ?_⟩
    rw [hadvance]
    exact hrest

theorem Flushes.accepted {before : Nat} {o' : Outlet} {asked : List Call}
    {result : Except RelayError Nat} (h : Flushes before o o' asked result) :
    o'.stream.accepted = o.stream.accepted ++ asked.flatMap Call.taken := by
  rw [Script.accepted_eq, Script.accepted_eq, h.recorded, List.reverse_append, List.reverse_reverse,
    List.flatMap_append]

end Outlet

/-! ## Many flushes -/

/-- A call that builds chunks: what is completed is left to the flushes. -/
def Builds : Frame.Call → Prop
  | .write _ | .put _ | .sink _ | .complete => True
  | .advance _ | .reset => False

/-- A call that builds chunks adds the frames of those it completes. -/
theorem unsent_call {w : Writer} (h : w.Sound) {c : Frame.Call} (hc : Builds c) :
    (w.call c).1.unsent = w.unsent ++ wire (Traffic.completedBy w c) := by
  have happends : ∀ {bytes : Bytes}, c.appended? = some bytes →
      (w.call c).1.unsent = w.unsent ++ wire (Traffic.completedBy w c) := by
    intro bytes hbytes
    obtain ⟨v, hwrite, -, -, hothers, -⟩ := h.write bytes
    have hunsent : v.unsent = w.unsent := by
      rw [hothers]
      rfl
    rw [Writer.call_of_appended? hbytes, Traffic.completedBy_of_appended? hbytes, hwrite]
    exact hunsent.trans (List.append_nil _).symm
  cases c with
  | write bytes => exact happends rfl
  | put byte => exact happends rfl
  | sink bytes => exact happends rfl
  | complete =>
    by_cases hs : w.staged = []
    · rw [Writer.call, Traffic.completedBy, Writer.complete_of_nil h hs, Writer.discardStaged_eq]
      exact (List.append_nil _).symm
    · obtain ⟨pieces, hcomplete, hframe, -⟩ := Writer.complete_of_ne_nil h hs
      rw [Writer.call, Traffic.completedBy, hcomplete]
      simp only [Writer.unsent, List.flatMap_append, hframe]
      simp [wire]
  | advance n => exact hc.elim
  | reset => exact hc.elim

/-- What is done with a writer on a stream. -/
inductive Errand where
  | flush
  | call (c : Frame.Call)

/-- A writer on a stream, with the bodies completed on the way. -/
structure Shipment where
  outlet : Outlet
  completed : List Bytes

namespace Shipment

def step (s : Shipment) : Errand → Shipment
  | .flush => { s with outlet := s.outlet.flush.1 }
  | .call c =>
    ⟨{ s.outlet with writer := (s.outlet.writer.call c).1 },
      s.completed ++ Traffic.completedBy s.outlet.writer c⟩

/-- What was held in the beginning and what was completed since is with the stream or still held. -/
structure Accounted (o : Outlet) (s : Shipment) : Prop where
  sound : s.outlet.writer.Sound
  limits : s.outlet.writer.limits = o.writer.limits
  bytes : ∃ sent, s.outlet.stream.accepted = o.stream.accepted ++ sent ∧
    sent ++ s.outlet.writer.unsent = o.writer.unsent ++ wire s.completed

variable {o : Outlet} {s : Shipment}

theorem Accounted.flush (h : s.Accounted o) : (s.step .flush).Accounted o := by
  obtain ⟨asked, hflush⟩ := s.outlet.flushLoop_flushes h.sound 0
  obtain ⟨sent, haccepted, hbytes⟩ := h.bytes
  refine ⟨hflush.sound, hflush.limits.trans h.limits, sent ++ asked.flatMap Call.taken, ?_, ?_⟩
  · rw [← List.append_assoc, ← haccepted]
    exact hflush.accepted
  · show _ ++ (s.outlet.flushLoop 0).1.writer.unsent = _
    rw [List.append_assoc, hflush.moved]
    exact hbytes

theorem Accounted.call (h : s.Accounted o) {c : Frame.Call} (hc : Builds c) :
    (s.step (.call c)).Accounted o := by
  obtain ⟨hsound, hlimits, -⟩ := h.sound.call c
  obtain ⟨sent, haccepted, hbytes⟩ := h.bytes
  refine ⟨hsound, hlimits.trans h.limits, sent, haccepted, ?_⟩
  show sent ++ (s.outlet.writer.call c).1.unsent = _ ++ wire (s.completed ++ _)
  rw [unsent_call h.sound hc, Frame.Grammar.wire_append, ← List.append_assoc, hbytes,
    List.append_assoc]

theorem Accounted.foldl (h : s.Accounted o) (errands : List Errand)
    (hbuilds : ∀ c, Errand.call c ∈ errands → Builds c) :
    (errands.foldl step s).Accounted o := by
  induction errands generalizing s with
  | nil => exact h
  | cons errand errands ih =>
    refine ih ?_ fun c hc => hbuilds c (List.mem_cons_of_mem _ hc)
    cases errand with
    | flush => exact h.flush
    | call c => exact h.call (hbuilds c List.mem_cons_self)

end Shipment

/-- **Consecutive flushes lose nothing and repeat nothing.** Take a writer after any run of calls, any
stream, and any number of flushes with chunks built in between. What the stream took, followed by what
the writer holds, is what the writer held in the beginning and the frames of the chunks completed
since; with the bytes taken before, it is all frames of a writer that was never started over. The next
flush takes up where this leaves the fragment in flight, hands over a front of what is held and keeps
the rest, whatever its result. It ends well with nothing held only, and its answer is the number of
fragments there were; a write that takes nothing ends it with that error; all other errors are the
stream's own. -/
theorem consecutive_flushes (limits : Limits) (calls : List Frame.Call) (stream : Script)
    (errands : List Errand) (hbuilds : ∀ c, Errand.call c ∈ errands → Builds c) :
    let t := Traffic.run limits calls
    let s := errands.foldl Shipment.step ⟨⟨stream, t.writer⟩, []⟩
    let o := s.outlet
    let o' := o.flush.1
    (∃ sent, o.stream.accepted = stream.accepted ++ sent ∧
        sent ++ o.writer.unsent = t.writer.unsent ++ wire s.completed ∧
        (Frame.Call.reset ∉ calls →
          t.taken ++ sent ++ o.writer.unsent = wire (t.completed ++ s.completed))) ∧
      (∃ asked, o.Flushes 0 o' asked o.flush.2 ∧
        o'.stream.accepted = o.stream.accepted ++ asked.flatMap Call.taken ∧
        o'.writer.unsent = o.writer.unsent.drop (asked.flatMap Call.taken).length) ∧
      (o'.writer.current? = none ↔ o'.writer.unsent = []) ∧
      (∀ bytes, o'.writer.current? = some bytes → bytes ≠ [] ∧ bytes <+: o'.writer.unsent) := by
  intro t s o o'
  have hsound : t.writer.Sound :=
    (Traffic.sound_foldl calls (.new limits) (Writer.sound_new limits)).1
  have hstart : Shipment.Accounted ⟨stream, t.writer⟩ ⟨⟨stream, t.writer⟩, []⟩ :=
    ⟨hsound, rfl, [], (List.append_nil _).symm, (List.append_nil _).symm⟩
  have hs : s.Accounted ⟨stream, t.writer⟩ := hstart.foldl errands hbuilds
  obtain ⟨asked, hflush⟩ := o.flushLoop_flushes hs.sound 0
  refine ⟨?_, ⟨asked, hflush, hflush.accepted, ?_⟩, hflush.sound.current?_eq_none_iff,
    fun bytes hbytes => hflush.sound.of_current?_eq_some hbytes⟩
  · obtain ⟨sent, haccepted, hbytes⟩ := hs.bytes
    refine ⟨sent, haccepted, hbytes, fun hreset => ?_⟩
    have hbalanced := ((Traffic.balanced_new limits).foldl calls hreset).bytes
    rw [List.append_assoc, hbytes, Frame.Grammar.wire_append, ← List.append_assoc]
    exact congrArg (· ++ _) hbalanced
  · rw [← hflush.moved, List.drop_left]
    rfl

/-- A stream that takes three bytes and fails, then takes nothing at the end of the first of two
fragments: the third flush sends the rest of that chunk and the one that was completed meanwhile. -/
theorem consecutive_flushes_at_a_boundary :
    let body := List.replicate 20 (5 : UInt8)
    let calls : List Frame.Call := [.write body, .complete]
    let stream : Script :=
      ⟨[], [.accept 3, .fail .timedOut, .accept 13, .accept 0, .accept 7], [], [], []⟩
    let errands : List Errand := [.flush, .call (.put 7), .call .complete, .flush]
    let o := (errands.foldl Shipment.step
      ⟨⟨stream, (Traffic.run (.clamp 64 16) calls).writer⟩, []⟩).outlet
    (∀ c, Errand.call c ∈ errands → Builds c) ∧ Frame.Call.reset ∉ calls ∧
      o.stream.accepted.length = 16 ∧ o.flush.2 = .ok 2 ∧
      o.flush.1.stream.accepted = wire [body, [7]] := by
  intro body calls stream errands o
  have hbuilds : ∀ c, Errand.call c ∈ errands → Builds c := by
    intro c hc
    obtain rfl | rfl : c = .put 7 ∨ c = .complete := by simpa [errands] using hc
    · trivial
    · trivial
  have hreset : Frame.Call.reset ∉ calls := by simp [calls]
  have hresult : o.flush.2 = .ok 2 := by
    have hanswer : o.flush.2.toOption = some 2 := by decide +kernel
    cases hflush : o.flush.2 with
    | error e =>
      rw [hflush] at hanswer
      cases hanswer
    | ok k =>
      rw [hflush] at hanswer
      cases hanswer
      rfl
  obtain ⟨⟨sent, haccepted, -, hall⟩, ⟨asked, hflush, haccepted', -⟩, -⟩ :=
    consecutive_flushes (.clamp 64 16) calls stream errands hbuilds
  have hcompleted : (Traffic.run (.clamp 64 16) calls).completed ++ (errands.foldl Shipment.step
      ⟨⟨stream, (Traffic.run (.clamp 64 16) calls).writer⟩, []⟩).completed = [body, [7]] := by
    decide +kernel
  have htaken : (Traffic.run (.clamp 64 16) calls).taken = [] := by decide +kernel
  refine ⟨hbuilds, hreset, by decide +kernel, hresult, ?_⟩
  have hempty : o.flush.1.writer.unsent = [] := by
    rw [Writer.unsent, (hflush.of_ok 2 hresult).1]
    rfl
  have hmoved := hflush.moved
  rw [hempty, List.append_nil] at hmoved
  have hbytes := hall hreset
  rw [hcompleted, htaken, List.nil_append, ← hmoved] at hbytes
  exact haccepted'.trans ((congrArg (· ++ _) haccepted).trans hbytes)

end ChunkRouter.ByteStream
