import ChunkRouter.Proofs.Frame.Outbox
import ChunkRouter.Proofs.Frame.Parsing

/-!
# There and back

Bodies that are written, drained and delivered come out as they went in. The stream is cut three
times: by the blocks of the writer, by what the transport takes at a time, and by the pieces in
which the reader gets it. `spelled` reads off the bodies that calls write down, `Traffic.drain` takes
whatever is left, and `round_trip` says that none of the cuts shows. The writer has its memory here;
`run_refines_outbox` says when it is there and what a writer does without.
-/

namespace ChunkRouter.Frame

open Grammar (frame parse wire)

/-! ## The bodies that calls spell -/

/-- The bodies that calls complete, `body` being under construction before; none if a call starts over or
a body is left unfinished. How much of the stream is taken meanwhile does not matter. -/
def spelled (body : Bytes) : List Call → Option (List Bytes)
  | [] => if body = [] then some [] else none
  | .write bytes :: calls => spelled (body ++ bytes) calls
  | .put byte :: calls => spelled (body ++ [byte]) calls
  | .sink bytes :: calls => spelled (body ++ bytes) calls
  | .complete :: calls => (spelled [] calls).map (body :: ·)
  | .advance _ :: calls => spelled body calls
  | .reset :: _ => none

theorem spelled_of_appended? {c : Call} {bytes : Bytes} (h : c.appended? = some bytes)
    (body : Bytes) (calls : List Call) : spelled body (c :: calls) = spelled (body ++ bytes) calls := by
  cases c <;> cases h <;> rfl

theorem spelled_complete {body : Bytes} {calls : List Call} {bodies : List Bytes}
    (h : spelled body (.complete :: calls) = some bodies) :
    ∃ later, spelled [] calls = some later ∧ bodies = body :: later := by
  rw [spelled, Option.map_eq_some_iff] at h
  obtain ⟨later, hlater, rfl⟩ := h
  exact ⟨later, hlater, rfl⟩

theorem reset_not_mem_of_spelled {body : Bytes} {calls : List Call} {bodies : List Bytes}
    (h : spelled body calls = some bodies) : Call.reset ∉ calls := by
  induction calls generalizing body bodies with
  | nil => exact List.not_mem_nil
  | cons c calls ih =>
    rw [List.mem_cons, not_or]
    cases c with
    | complete =>
      obtain ⟨later, hlater, -⟩ := spelled_complete h
      exact ⟨Call.noConfusion, ih hlater⟩
    | reset => cases h
    | _ => exact ⟨Call.noConfusion, ih h⟩

/-- A body under construction never outgrows the body it becomes. -/
theorem length_le_of_spelled {max : Nat} {body : Bytes} {calls : List Call} {bodies : List Bytes}
    (h : spelled body calls = some bodies) (hle : ∀ b ∈ bodies, b.length ≤ max) :
    body.length ≤ max := by
  induction calls generalizing body bodies with
  | nil =>
    rw [spelled] at h
    split at h
    · simp_all
    · cases h
  | cons c calls ih =>
    cases c with
    | write bytes => exact Nat.le_trans (by simp) (ih h hle)
    | put byte => exact Nat.le_trans (by simp) (ih h hle)
    | sink bytes => exact Nat.le_trans (by simp) (ih h hle)
    | complete =>
      obtain ⟨later, -, rfl⟩ := spelled_complete h
      exact hle body List.mem_cons_self
    | advance n => exact ih h hle
    | reset => cases h

theorem Grammar.length_wire_concat (bodies : List Bytes) (body : Bytes) :
    (wire (bodies ++ [body])).length = (wire bodies).length + (4 + body.length) := by
  have hone : wire [body] = frame body := List.append_nil _
  rw [Grammar.wire_append, hone, List.length_append, frame, List.length_append, Header.length_encode]

namespace Traffic

/-! ## Writing bodies down -/

/-- The bytes that are not taken make up what is missing of the wire. -/
theorem Balanced.length_unsent {t : Traffic} (h : t.Balanced) :
    t.taken.length + t.writer.unsent.length = (wire t.completed).length := by
  rw [← h.bytes, List.length_append]

theorem staged_call {w : Writer} (h : w.Sound) (c : Call) :
    (w.call c).1.staged = (w.outbox.call w.limits w.current.length c).1.staged := by
  rw [← (h.call c).2.2]
  rfl

theorem staged_step_append {t : Traffic} (h : t.Balanced) {c : Call} {bytes : Bytes}
    (hc : c.appended? = some bytes)
    (hle : t.writer.staged.length + bytes.length ≤ t.writer.limits.maxChunkLen) :
    (t.step c).writer.staged = t.writer.staged ++ bytes ∧ (t.step c).completed = t.completed := by
  have hroom : t.writer.outbox.staged.length + bytes.length ≤ t.writer.limits.maxChunkLen := hle
  refine ⟨?_, ?_⟩
  · rw [step, staged_call h.sound, Outbox.call_of_appended? hc, Outbox.append, if_pos hroom]
    rfl
  · rw [step, completedBy_of_appended? hc, List.append_nil]

theorem staged_step_advance {t : Traffic} (h : t.Balanced) (n : Nat) :
    (t.step (.advance n)).writer.staged = t.writer.staged ∧
      (t.step (.advance n)).completed = t.completed := by
  refine ⟨?_, List.append_nil _⟩
  rw [step, staged_call h.sound, Outbox.call]
  split <;> rfl

theorem staged_step_complete {t : Traffic} (h : t.Balanced) (hs : t.writer.staged ≠ []) :
    (t.step .complete).writer.staged = [] ∧
      (t.step .complete).completed = t.completed ++ [t.writer.staged] := by
  have houtbox : t.writer.outbox.staged ≠ [] := hs
  obtain ⟨pieces, hcomplete, -⟩ := Writer.complete_of_ne_nil h.sound hs
  refine ⟨?_, ?_⟩
  · rw [step, staged_call h.sound, Outbox.call, if_neg houtbox]
  · simp [step, completedBy, hcomplete]

theorem limits_step {t : Traffic} (h : t.Balanced) (c : Call) :
    (t.step c).writer.limits = t.writer.limits := (h.sound.call c).2.1

/-- A body that fits is written and completed in two calls, and becomes one chunk. -/
theorem Balanced.writeChunk {w : Writer} {taken body : Bytes} {completed : List Bytes}
    (h : Balanced ⟨w, taken, completed⟩) (hstaged : w.staged = []) (hne : body ≠ [])
    (hfits : body.length ≤ w.limits.maxChunkLen) :
    ∃ v w' n, w.write body = (v, .ok ()) ∧ v.complete = (w', .ok n) ∧
      Balanced ⟨w', taken, completed ++ [body]⟩ ∧ w'.staged = [] ∧ w'.limits = w.limits := by
  have hzero : w.stagedLen = 0 := h.sound.staged_eq_nil_iff.1 hstaged
  have hroom : w.stagedLen + body.length ≤ w.limits.maxChunkLen := by
    rw [hzero, Nat.zero_add]
    exact hfits
  have hw : w.Sound := h.sound
  obtain ⟨v, hwrite, hsound, hbody, hv⟩ := Writer.write_of_le hw hroom
  rw [hstaged, List.nil_append] at hbody
  have hstagedNe : v.staged ≠ [] := hbody ▸ hne
  obtain ⟨pieces, hcomplete, -⟩ := Writer.complete_of_ne_nil hsound hstagedNe
  -- The two calls, as steps of the traffic.
  have hstep : Traffic.step ⟨w, taken, completed⟩ (.write body) = ⟨v, taken, completed⟩ := by
    simp [Traffic.step, Writer.call, takenBy, completedBy, hwrite]
  have hwritten : Balanced ⟨v, taken, completed⟩ := hstep ▸ h.append rfl
  have hstep' : Traffic.step ⟨v, taken, completed⟩ .complete =
      ⟨v.complete.1, taken, completed ++ [body]⟩ := by
    simp [Traffic.step, Writer.call, takenBy, completedBy, hcomplete, hbody]
  have hcompleted : Balanced ⟨v.complete.1, taken, completed ++ [body]⟩ :=
    hstep' ▸ hwritten.complete
  refine ⟨v, v.complete.1, _, hwrite, by rw [hcomplete], hcompleted, ?_, ?_⟩
  · have hempty := (staged_step_complete hwritten hstagedNe).1
    rw [hstep'] at hempty
    exact hempty
  · have hlimits := limits_step hwritten .complete
    rw [hstep'] at hlimits
    exact hlimits.trans (by rw [hv])

/-- The stream takes a part of the front fragment. -/
theorem Balanced.advance_of_current {w : Writer} {taken front : Bytes} {completed : List Bytes}
    {n : Nat} (h : Balanced ⟨w, taken, completed⟩) (hfront : w.current? = some front)
    (hn : n ≤ front.length) :
    Balanced ⟨(w.advance n).1, taken ++ front.take n, completed⟩ ∧
      (w.advance n).1.staged = w.staged ∧ (w.advance n).1.limits = w.limits ∧
      (w.advance n).1.unsent.length + n = w.unsent.length := by
  have hw : w.Sound := h.sound
  have hcurrent : w.current = front := by rw [Writer.current, hfront]; rfl
  obtain ⟨v, hadvance, -⟩ := Writer.advance_of_le hw (hcurrent ▸ hn)
  have hstep : Traffic.step ⟨w, taken, completed⟩ (.advance n) =
      ⟨(w.advance n).1, taken ++ front.take n, completed⟩ := by
    simp [Traffic.step, Writer.call, takenBy, completedBy, hadvance, hcurrent]
  have hadvanced : Balanced ⟨(w.advance n).1, taken ++ front.take n, completed⟩ :=
    hstep ▸ h.advance n
  refine ⟨hadvanced, ?_, ?_, ?_⟩
  · have hstaged := (staged_step_advance h n).1
    rw [hstep] at hstaged
    exact hstaged
  · have hlimits := limits_step h (.advance n)
    rw [hstep] at hlimits
    exact hlimits
  · have hbefore := h.length_unsent
    have hafter := hadvanced.length_unsent
    dsimp only at hbefore hafter
    rw [List.length_append, List.length_take_of_le hn] at hafter
    omega

/-- Calls that spell admissible bodies complete them, one after another. -/
theorem completed_of_spelled {t : Traffic} (h : t.Balanced) {calls : List Call}
    {bodies : List Bytes} (hs : spelled t.writer.staged calls = some bodies)
    (hlen : ∀ b ∈ bodies, b ≠ [] ∧ b.length ≤ t.writer.limits.maxChunkLen) :
    (calls.foldl step t).completed = t.completed ++ bodies ∧
      (calls.foldl step t).writer.staged = [] := by
  induction calls generalizing t bodies with
  | nil =>
    rw [spelled] at hs
    split at hs
    · cases hs
      exact ⟨(List.append_nil _).symm, by assumption⟩
    · cases hs
  | cons c calls ih =>
    have hlimits := limits_step h c
    -- a call that appends has room for what it appends
    have happend : ∀ bytes, c.appended? = some bytes →
        (calls.foldl step (t.step c)).completed = t.completed ++ bodies ∧
          (calls.foldl step (t.step c)).writer.staged = [] := by
      intro bytes hc
      rw [spelled_of_appended? hc] at hs
      have hroom := length_le_of_spelled hs fun b hb => (hlen b hb).2
      rw [List.length_append] at hroom
      obtain ⟨hstaged, hcompleted⟩ := staged_step_append h hc hroom
      rw [← hcompleted]
      exact ih (h.append hc) (by rw [hstaged]; exact hs) (by rw [hlimits]; exact hlen)
    cases c with
    | write bytes => exact happend bytes rfl
    | put byte => exact happend [byte] rfl
    | sink bytes => exact happend bytes rfl
    | complete =>
      obtain ⟨later, hlater, rfl⟩ := spelled_complete hs
      have hne := (hlen _ List.mem_cons_self).1
      obtain ⟨hstaged, hcompleted⟩ := staged_step_complete h hne
      have hrest := ih h.complete (by rw [hstaged]; exact hlater)
        (by rw [hlimits]; exact fun b hb => hlen b (List.mem_cons_of_mem _ hb))
      rw [hcompleted, List.append_assoc] at hrest
      exact hrest
    | advance n =>
      obtain ⟨hstaged, hcompleted⟩ := staged_step_advance h n
      rw [List.foldl_cons, ← hcompleted]
      exact ih (h.advance n) (by rw [hstaged]; exact hs) (by rw [hlimits]; exact hlen)
    | reset => cases hs

/-! ## Draining -/

/-- Take bytes until none are left: at most `sizes i + 1` of them, and no more than the current fragment
has, the `i`-th time. -/
def drain (sizes : Nat → Nat) (t : Traffic) : Traffic :=
  if _h : t.writer.current = [] then t
  else drain (fun i => sizes (i + 1)) (t.step (.advance (min (sizes 0 + 1) t.writer.current.length)))
termination_by t.writer.unsent.length
decreasing_by
  obtain ⟨front, ready, hready⟩ : ∃ front ready, t.writer.ready = front :: ready := by
    rcases hr : t.writer.ready with _ | ⟨front, ready⟩
    · exact absurd (by simp [Writer.current, Writer.current?, hr]) _h
    · exact ⟨front, ready, rfl⟩
  have hcurrent := Writer.current_of_ready hready
  have hpos := List.length_pos_iff.2 _h
  have hle := t.writer.current_prefix_unsent.length_le
  show (t.writer.advance _).1.unsent.length < _
  rw [Writer.unsent_advance hready (hcurrent ▸ Nat.min_le_right _ _), List.length_drop]
  omega

/-- Draining leaves nothing unsent, and what is staged or completed alone. -/
theorem Balanced.drain {t : Traffic} (h : t.Balanced) (sizes : Nat → Nat) :
    (t.drain sizes).Balanced ∧ (t.drain sizes).writer.current? = none ∧
      (t.drain sizes).writer.staged = t.writer.staged ∧ (t.drain sizes).completed = t.completed := by
  fun_induction Traffic.drain sizes t with
  | case1 sizes t hnil =>
    refine ⟨h, ?_, rfl, rfl⟩
    rcases hc : t.writer.current? with _ | bytes
    · rfl
    · have hne := (h.sound.of_current?_eq_some hc).1
      rw [Writer.current, hc] at hnil
      exact absurd hnil hne
  | case2 sizes t hne ih =>
    obtain ⟨hstaged, hcompleted⟩ := staged_step_advance h (min (sizes 0 + 1) t.writer.current.length)
    rw [← hstaged, ← hcompleted]
    exact ih (h.advance _)

/-- Calls that spell admissible bodies, and draining: the transport has the frames of the bodies, and
the writer has nothing left. -/
theorem drain_of_spelled {limits : Limits} {calls : List Call} {bodies : List Bytes}
    (hcalls : spelled [] calls = some bodies)
    (hlen : ∀ b ∈ bodies, b ≠ [] ∧ b.length ≤ limits.maxChunkLen) (sizes : Nat → Nat) :
    ((run limits calls).drain sizes).taken = wire bodies ∧
      ((run limits calls).drain sizes).writer.chunksWritten = bodies.length ∧
      ((run limits calls).drain sizes).writer.ready = [] ∧
      ((run limits calls).drain sizes).writer.staged = [] := by
  have hnew := balanced_new limits
  obtain ⟨hcompleted, hstaged⟩ := completed_of_spelled hnew hcalls hlen
  have hrun : (run limits calls).Balanced := hnew.foldl calls (reset_not_mem_of_spelled hcalls)
  obtain ⟨hbalanced, hnone, hstaged', hcompleted'⟩ := hrun.drain sizes
  have hready : ((run limits calls).drain sizes).writer.ready = [] := by
    rw [Writer.current?, Option.map_eq_none_iff, List.head?_eq_none_iff] at hnone
    exact hnone
  have hall : ((run limits calls).drain sizes).completed = bodies := hcompleted'.trans hcompleted
  have hbytes := hbalanced.bytes
  have hchunks := hbalanced.chunks
  rw [Writer.unsent, hready, List.flatMap_nil, List.append_nil, hall] at hbytes
  rw [Writer.chunksPending, hready, List.countP_nil, Nat.add_zero, hall] at hchunks
  exact ⟨hbytes, hchunks, hready, hstaged'.trans hstaged⟩

end Traffic

/-! ## Reading bodies back -/

/-- Parsing undoes writing down any number of chunks. -/
theorem Grammar.parse_wire {max : Nat} {bodies : List Bytes}
    (h : ∀ b ∈ bodies, b ≠ [] ∧ b.length ≤ max ∧ b.length < 4294967296) :
    parse max (wire bodies) = ⟨bodies, .header []⟩ := by
  induction bodies with
  | nil =>
    rw [parse]
    rfl
  | cons body bodies ih =>
    obtain ⟨hne, hmax, h32⟩ := h body List.mem_cons_self
    have hlater : parse max (bodies.flatMap frame) = ⟨bodies, .header []⟩ :=
      ih fun b hb => h b (List.mem_cons_of_mem _ hb)
    rw [wire, List.flatMap_cons, parse_frame_append _ hne hmax h32, hlater]

/-- A new reader gets the bodies back, however their frames are cut into pieces. -/
theorem Reader.deliveries_new_of_wire {limits : Limits} {bodies : List Bytes}
    (hlen : ∀ b ∈ bodies, b ≠ [] ∧ b.length ≤ limits.maxChunkLen) {pieces : List (Nat × Bytes)}
    (hpieces : pieces.flatMap (·.2) = wire bodies) :
    ((new limits).deliveries pieces).result = .ok bodies.length ∧
      ((new limits).deliveries pieces).chunks = bodies ∧
      ((new limits).deliveries pieces).reader.isIdle = true ∧
      ((new limits).deliveries pieces).reader.chunksRead = bodies.length := by
  have hparse : parse limits.maxChunkLen (wire bodies) = ⟨bodies, .header []⟩ :=
    Grammar.parse_wire fun b hb =>
      ⟨(hlen b hb).1, (hlen b hb).2,
        Nat.lt_succ_of_le (Nat.le_trans (hlen b hb).2 limits.maxChunkLen_le)⟩
  have hagrees := run_agrees limits.maxChunkLen (wire bodies) _ (holds_new limits) rfl
  rw [hparse] at hagrees
  rw [deliveries_eq_run, hpieces]
  refine ⟨?_, hagrees.chunks, hagrees.holds.shows.2.1, ?_⟩
  · rw [Reading.result_delivery, hagrees.error, hagrees.chunks]
    rfl
  · exact hagrees.chunksRead.trans (Nat.zero_add _)

/-! ## The round trip -/

/-- **What is written comes back.** Bodies that both limits admit are written in any portions, the
transport takes any part of what is there at any time and then the rest in any portions, and
the reader gets the stream in any pieces: it delivers these bodies and ends on a chunk boundary, both
sides count them, and the writer has nothing left. -/
theorem round_trip (writing reading : Limits) (bodies : List Bytes)
    (hlen : ∀ b ∈ bodies,
      1 ≤ b.length ∧ b.length ≤ min writing.maxChunkLen reading.maxChunkLen)
    (calls : List Call) (hcalls : spelled [] calls = some bodies) (sizes : Nat → Nat)
    (pieces : List (Nat × Bytes))
    (hpieces : pieces.flatMap (·.2) = ((Traffic.run writing calls).drain sizes).taken) :
    let w := ((Traffic.run writing calls).drain sizes).writer
    let d := (Reader.new reading).deliveries pieces
    d.result = .ok bodies.length ∧ d.chunks = bodies ∧ d.reader.isIdle = true ∧
      d.reader.chunksRead = bodies.length ∧ w.chunksWritten = bodies.length ∧
      w.hasPending = false ∧ w.staged = [] := by
  intro w d
  have hwriting : ∀ b ∈ bodies, b ≠ [] ∧ b.length ≤ writing.maxChunkLen := fun b hb =>
    ⟨List.ne_nil_of_length_pos (hlen b hb).1, Nat.le_trans (hlen b hb).2 (Nat.min_le_left _ _)⟩
  have hreading : ∀ b ∈ bodies, b ≠ [] ∧ b.length ≤ reading.maxChunkLen := fun b hb =>
    ⟨List.ne_nil_of_length_pos (hlen b hb).1, Nat.le_trans (hlen b hb).2 (Nat.min_le_right _ _)⟩
  obtain ⟨htaken, hwritten, hready, hstaged⟩ := Traffic.drain_of_spelled hcalls hwriting sizes
  obtain ⟨hresult, hchunks, hidle, hread⟩ :=
    Reader.deliveries_new_of_wire hreading (hpieces.trans htaken)
  refine ⟨hresult, hchunks, hidle, hread, hwritten, ?_, hstaged⟩
  rw [Writer.hasPending, hready]
  rfl

/-- Two bodies in five portions, the first in two fragments and partly sent while the second one is
written; the reader gets the stream in three pieces, the first of which ends within a prefix. -/
theorem round_trip_two_bodies :
    let calls := [.write (List.replicate 10 7), .advance 3, .sink (List.replicate 6 7), .put 7,
      .complete, .advance 5, .write [9], .advance 0, .write [], .complete]
    let pieces := [(0, [0, 0]), (2, [0, 17] ++ List.replicate 17 7 ++ [0, 0]), (99, [0, 1, 9])]
    let t := (Traffic.run (.clamp 20 16) calls).drain id
    let d := (Reader.new (.clamp 18 100)).deliveries pieces
    spelled [] calls = some [List.replicate 17 7, [9]] ∧ pieces.flatMap (·.2) = t.taken ∧
      d.result = .ok 2 ∧ d.chunks = [List.replicate 17 7, [9]] ∧ d.reader.isIdle = true ∧
      d.reader.chunksRead = 2 ∧ t.writer.chunksWritten = 2 ∧ t.writer.hasPending = false ∧
      t.writer.staged = [] := by
  intro calls pieces t d
  have hcalls : spelled [] calls = some [List.replicate 17 7, [9]] := by decide
  have hpieces : pieces.flatMap (·.2) = t.taken := by
    rw [(Traffic.drain_of_spelled hcalls (by decide) id).1]
    decide
  exact ⟨hcalls, hpieces,
    round_trip (.clamp 20 16) (.clamp 18 100) _ (by decide) calls hcalls id pieces hpieces⟩

end ChunkRouter.Frame
