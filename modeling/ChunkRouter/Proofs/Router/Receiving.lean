import ChunkRouter.Proofs.Frame.RoundTrip
import ChunkRouter.Router.Connection

/-!
# Receiving chunks

The reader of a connection is told how many bytes arrived in its window, piece by piece. That is the
same as running it over all bytes that arrived, so the chunks it completes are those of the grammar,
and of a wire of well-formed chunks no part is an error.
-/

namespace ChunkRouter

/-! ## Pieces -/

namespace Frame

open Grammar (parse wire)

namespace Reader

variable {got : Bytes} {limits : Limits} {bodies : List Bytes}

theorem chunksRead_setWindow (r : Reader) (w : Window) : (r.setWindow w).chunksRead = r.chunksRead := by
  unfold setWindow
  split <;> rfl

theorem chunksRead_fill (r : Reader) (bytes : Bytes) : (r.fill bytes).chunksRead = r.chunksRead := by
  unfold fill
  split
  · rfl
  · exact chunksRead_setWindow _ _

theorem chunksRead_settle (r : Reader) :
    r.settle.1.chunksRead =
      match r.settle.2 with
      | .ok (some _) => r.chunksRead + 1
      | _ => r.chunksRead := by
  unfold settle
  split
  · split
    · rw [openBody_eq]
      split <;> rfl
    · rfl
  · rfl

/-- Bytes that arrive complete one chunk, or none. -/
theorem chunksRead_advance (r : Reader) (n : Nat) :
    (r.advance n).1.chunksRead =
      match (r.advance n).2 with
      | .ok (some _) => r.chunksRead + 1
      | _ => r.chunksRead := by
  unfold advance
  split
  · rfl
  · split
    · rfl
    · rename_i w _
      rw [chunksRead_settle, chunksRead_setWindow]

/-- A wire of well-formed chunks is read without an error, to a chunk boundary. -/
theorem run_wire (hbodies : ∀ b ∈ bodies, 1 ≤ b.length ∧ b.length ≤ limits.maxChunkLen) :
    ((new limits).run (wire bodies)).error? = none ∧
      ((new limits).run (wire bodies)).chunks = bodies ∧
      ((new limits).run (wire bodies)).reader.isIdle = true := by
  have hparse : parse limits.maxChunkLen (wire bodies) = ⟨bodies, .header []⟩ :=
    Grammar.parse_wire fun b hb =>
      ⟨List.ne_nil_of_length_pos (hbodies b hb).1, (hbodies b hb).2,
        Nat.lt_succ_of_le (Nat.le_trans (hbodies b hb).2 limits.maxChunkLen_le)⟩
  have hagrees := run_agrees limits.maxChunkLen (wire bodies) _ (holds_new limits) rfl
  rw [hparse] at hagrees
  exact ⟨hagrees.error, hagrees.chunks, hagrees.holds.shows.2.1⟩

/-- No part of a wire of well-formed chunks is an error, and its chunks are the first ones. -/
theorem run_part (hbodies : ∀ b ∈ bodies, 1 ≤ b.length ∧ b.length ≤ limits.maxChunkLen)
    (hgot : got <+: wire bodies) :
    ((new limits).run got).error? = none ∧ ((new limits).run got).chunks <+: bodies := by
  obtain ⟨rest, hrest⟩ := hgot
  obtain ⟨hnone, hchunks, -⟩ := run_wire hbodies
  have hok : ((new limits).run got).error? = none := by
    cases herror : ((new limits).run got).error? with
    | none => rfl
    | some e =>
      have hsame := run_append_of_error rest (herror ▸ Option.some_ne_none e)
      rw [hrest] at hsame
      rw [hsame, herror] at hnone
      cases hnone
  refine ⟨hok, ?_⟩
  have hsplit := run_append (new limits) got rest
  rw [hrest, if_pos hok] at hsplit
  rw [hsplit, Reading.chunks_after] at hchunks
  exact ⟨_, hchunks⟩

/-- The chunks a reader completes are those of the grammar. -/
theorem chunks_run (limits : Limits) (got : Bytes) :
    ((new limits).run got).chunks = (parse limits.maxChunkLen got).bodies :=
  (run_agrees limits.maxChunkLen got _ (holds_new limits) rfl).chunks

end Reader

end Frame

/-! ## Receiving -/

namespace Router

open ChunkRouter.Frame (Reader)
open ChunkRouter.Frame.Grammar (parse wire)

namespace Connection

variable {c c' : Connection}

/-- Bytes that arrive complete one chunk at most. -/
theorem receive_cases (c : Connection) (bytes : Bytes) :
    ∃ reader, (∃ e, c.receive bytes = { c with reader := reader }.endReading (.error e) ∧
        reader.chunksRead = c.reader.chunksRead) ∨
      (c.receive bytes = { c with reader := reader } ∧ reader.chunksRead = c.reader.chunksRead) ∨
      ∃ chunk, c.receive bytes = { c with reader := reader }.accept (.ofChunk chunk) ∧
        reader.chunksRead = c.reader.chunksRead + 1 := by
  have hcount := (c.reader.fill bytes).chunksRead_advance bytes.length
  rw [Reader.chunksRead_fill] at hcount
  unfold receive
  generalize (c.reader.fill bytes).advance bytes.length = result at hcount ⊢
  obtain ⟨reader, e | _ | chunk⟩ := result
  · exact ⟨reader, .inl ⟨_, rfl, hcount⟩⟩
  · exact ⟨reader, .inr (.inl ⟨rfl, hcount⟩)⟩
  · exact ⟨reader, .inr (.inr ⟨chunk, rfl, hcount⟩)⟩

/-! What the acts of the reader ask for, and what they do. -/

theorem of_step_receive {bytes : Bytes} (hs : c.step (.receive bytes) = some c') :
    c.isReading = true ∧ bytes ≠ [] ∧ bytes.length ≤ c.reader.space ∧ c' = c.receive bytes := by
  simp only [step, Option.ite_none_right_eq_some, Option.some.injEq] at hs
  exact ⟨hs.1.1, hs.1.2.1, hs.1.2.2, hs.2.symm⟩

theorem of_step_hangUp (hs : c.step .hangUp = some c') :
    c.isReading = true ∧
      c' = c.endReading ((ByteStream.Inlet.checkEof c.reader).mapError .eof) := by
  simp only [step, Option.ite_none_right_eq_some, Option.some.injEq] at hs
  exact ⟨hs.1, hs.2.symm⟩

theorem of_step_readFails {e : ByteStream.IoError} (hs : c.step (.readFails e) = some c') :
    c.isReading = true ∧ c' = c.endReading (.error (.io e)) := by
  simp only [step, Option.ite_none_right_eq_some, Option.some.injEq] at hs
  exact ⟨hs.1, hs.2.symm⟩

theorem of_step_shutDown (hs : c.step .shutDown = some c') :
    c.readEnd = none ∧ c' = c.endReading (.ok ()) := by
  simp only [step, Option.ite_none_right_eq_some, Option.some.injEq, Option.isNone_iff_eq_none] at hs
  exact ⟨hs.1, hs.2.symm⟩

theorem isReading_iff : c.isReading = true ↔ c.readEnd = none ∧ c.backlog.hasRoom = true := by
  rw [isReading, Bool.and_eq_true, Option.isNone_iff_eq_none]

end Connection

/-- The reader of a connection after `got`, with the chunks it completed. -/
structure Reads (c : Connection) (limits : Frame.Limits) (got : Bytes) (chunks : List Bytes) : Prop where
  run : (Reader.new limits).run got = ⟨c.reader, chunks, none⟩
  ended : ∀ result, c.readEnd = some result → result = .ok ()

theorem reads_new (config : Config) (id : ConnectionId) :
    Reads (.new config id) config.frame [] [] := ⟨rfl, fun _ h => nomatch h⟩

section

variable {c : Connection} {limits : Frame.Limits} {got bytes : Bytes} {chunks bodies : List Bytes}

/-- A reader that did not come to an error holds what is left of the bytes. -/
theorem Reads.parsed (h : Reads c limits got chunks) :
    (parse limits.maxChunkLen got).bodies = chunks ∧
      (parse limits.maxChunkLen got).tail.error? = none ∧
      c.reader.Holds (parse limits.maxChunkLen got).tail := by
  have hagrees := Reader.run_agrees limits.maxChunkLen got _ (Reader.holds_new limits) rfl
  rw [h.run] at hagrees
  exact ⟨hagrees.chunks.symm, hagrees.error.symm, hagrees.holds⟩

/-- Bytes arrive: they complete one chunk at most, or break the stream. -/
theorem Reads.receive (h : Reads c limits got chunks) (hne : bytes ≠ [])
    (hle : bytes.length ≤ c.reader.space) :
    ∃ reader, (Reads { c with reader := reader } limits (got ++ bytes) chunks ∧
        c.receive bytes = { c with reader := reader }) ∨
      (∃ chunk, Reads { c with reader := reader } limits (got ++ bytes) (chunks ++ [chunk]) ∧
        c.receive bytes = { c with reader := reader }.accept (.ofChunk chunk)) ∨
      ∃ e, (Reader.new limits).run (got ++ bytes) = ⟨reader, chunks, some e⟩ ∧
        c.receive bytes = { c with reader := reader }.endReading (.error (.framing e)) := by
  have hrun := Reader.run_append (Reader.new limits) got bytes
  rw [h.run, if_pos rfl] at hrun
  have hstep := Reader.run_eq_advance hne hle
  unfold Connection.receive
  generalize (c.reader.fill bytes).advance bytes.length = result at hstep
  obtain ⟨reader, e | _ | chunk⟩ := result <;> simp only [hstep] at hrun
  · refine ⟨reader, .inr (.inr ⟨e, ?_, rfl⟩)⟩
    simpa [Reader.Reading.after] using hrun
  · refine ⟨reader, .inl ⟨⟨?_, h.ended⟩, rfl⟩⟩
    simpa [Reader.Reading.after] using hrun
  · exact ⟨reader, .inr (.inl ⟨chunk, ⟨hrun, h.ended⟩, rfl⟩)⟩

/-- At the end of a wire of well-formed chunks the peer may hang up. -/
theorem Reads.checkEof (h : Reads c limits (wire bodies) chunks)
    (hbodies : ∀ b ∈ bodies, 1 ≤ b.length ∧ b.length ≤ limits.maxChunkLen) :
    ByteStream.Inlet.checkEof c.reader = .ok () ∧ chunks = bodies := by
  obtain ⟨-, hchunks, hidle⟩ := Reader.run_wire hbodies
  rw [h.run] at hchunks hidle
  exact ⟨if_pos hidle, hchunks⟩

end

end Router

end ChunkRouter
