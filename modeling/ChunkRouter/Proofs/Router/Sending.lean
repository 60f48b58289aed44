import ChunkRouter.Proofs.Frame.RoundTrip
import ChunkRouter.Proofs.Router.Attending

/-!
# Sending replies

The writer of a connection takes replies out of the channel and puts each on the wire as one chunk.
What the stream took and what is still to be sent are at all times the chunks of the replies that were
collected, in order; the writer is done only when all replies there will ever be are sent.
-/

namespace ChunkRouter.Router

open Connection (WriterPhase replyWork stageReply)
open ChunkRouter.Frame (Traffic Writer)
open ChunkRouter.Frame.Grammar (wire)
open Message (Reply)

/-! ## The wire -/

/-- What a connection's writer was given, the replies that were collected, and what came of it. -/
def Connection.traffic (c : Connection) (collected : List Reply) : Traffic :=
  ⟨c.writer, c.written, collected.map Reply.encode⟩

section

variable {w : Writer} {taken : Bytes} {completed : List Bytes} {r : Reply}

/-- A reply that fits becomes a chunk. -/
theorem stageReply_of_fits (h : Traffic.Balanced ⟨w, taken, completed⟩) (hstaged : w.staged = [])
    (hfits : r.encode.length ≤ w.limits.maxChunkLen) :
    ∃ w', stageReply w r = (w', .ok ()) ∧
      Traffic.Balanced ⟨w', taken, completed ++ [r.encode]⟩ ∧ w'.staged = [] ∧
      w'.limits = w.limits ∧ w'.unsent.length = w.unsent.length + (4 + r.encode.length) := by
  obtain ⟨v, w', n, hwrite, hcomplete, hcompleted, hempty, hlimits⟩ :=
    h.writeChunk hstaged r.encode_ne_nil hfits
  refine ⟨w', ?_, hcompleted, hempty, hlimits, ?_⟩
  · unfold stageReply
    rw [hwrite]
    simp only [hcomplete]
    rfl
  · have hbefore := h.length_unsent
    have hafter := hcompleted.length_unsent
    rw [Frame.Grammar.length_wire_concat] at hafter
    dsimp only at hbefore hafter
    omega

/-- A reply that does not fit leaves the writer as it was. -/
theorem stageReply_of_long (hlong : w.limits.maxChunkLen < w.stagedLen + r.encode.length) :
    stageReply w r = (w, .ok ()) := by
  unfold stageReply
  rw [Writer.write_of_lt hlong]

/-- A reply becomes a chunk, or is dropped. -/
theorem stageReply_ok (h : Traffic.Balanced ⟨w, taken, completed⟩) (hstaged : w.staged = [])
    (r : Reply) :
    ∃ w' completed', stageReply w r = (w', .ok ()) ∧ Traffic.Balanced ⟨w', taken, completed'⟩ ∧
      w'.staged = [] ∧ w'.limits = w.limits ∧
      w'.unsent.length ≤ w.unsent.length + (4 + r.encode.length) ∧
      (r.encode.length ≤ w.limits.maxChunkLen → completed' = completed ++ [r.encode]) := by
  by_cases hfits : r.encode.length ≤ w.limits.maxChunkLen
  · obtain ⟨w', hstage, hbalanced, hstaged', hlimits, hunsent⟩ := stageReply_of_fits h hstaged hfits
    exact ⟨w', _, hstage, hbalanced, hstaged', hlimits, Nat.le_of_eq hunsent, fun _ => rfl⟩
  · refine ⟨w, completed, stageReply_of_long ?_, h, hstaged, rfl, Nat.le_add_right _ _,
      fun hle => absurd hle hfits⟩
    omega

end

/-! ## Acts of the writer -/

namespace Connection

variable {c c' : Connection}

theorem of_step_collect (hs : c.step .collect = some c') :
    c.phase = .collecting ∧ c.collect = some c' := by
  simp only [step] at hs
  split at hs
  · exact ⟨by assumption, hs⟩
  · cases hs

theorem of_step_beginSending (hs : c.step .beginSending = some c') :
    c.phase = .collecting ∧ 0 < c.round ∧ c' = { c with phase := .sending } := by
  simp only [step] at hs
  split at hs
  · simp only [Option.ite_none_right_eq_some, Option.some.injEq] at hs
    exact ⟨by assumption, hs.1, hs.2.symm⟩
  · cases hs

theorem of_step_send {n : Nat} (hs : c.step (.send n) = some c') :
    c.phase = .sending ∧ c.send n = some c' := by
  simp only [step] at hs
  split at hs
  · exact ⟨by assumption, hs⟩
  · cases hs

theorem of_step_release (hs : c.step .release = some c') :
    c.phase = .sending ∧ c.writer.ready = [] ∧
      c' = { c with phase := .collecting, backlog := c.backlog.release c.round, round := 0 } := by
  simp only [step] at hs
  split at hs
  · exact ⟨by assumption, by assumption, (Option.some.inj hs).symm⟩
  · cases hs

theorem isFlushed_iff :
    c.isFlushed = true ↔
      c.phase = .collecting ∧ c.round = 0 ∧ c.visitor.sent = [] ∧ c.noneReplies = true := by
  cases hphase : c.phase <;> simp [isFlushed, hphase, and_assoc]

theorem of_step_finish (hs : c.step .finish = some c') :
    c.isFlushed = true ∧ c' = c.endWriting (.ok c.writer.chunksWritten) := by
  simp only [step, Option.ite_none_right_eq_some, Option.some.injEq] at hs
  exact ⟨hs.1, hs.2.symm⟩

theorem of_step_writeFails {e : ByteStream.IoError} (hs : c.step (.writeFails e) = some c') :
    (c.isSending = true ∨ c.isFlushed = true) ∧ c' = c.endWriting (.error (.io e)) := by
  simp only [step, Option.ite_none_right_eq_some, Option.some.injEq, Bool.or_eq_true] at hs
  exact ⟨hs.1, hs.2.symm⟩

end Connection

/-! ## Rounds -/

/-- The writer has made chunks of `bodies`, in order, and nothing else; what a round that is over made is
sent. -/
structure Rounds (c : Connection) (limits : Frame.Limits) (bodies : List Bytes) : Prop where
  balanced : Traffic.Balanced ⟨c.writer, c.written, bodies⟩
  staged : c.writer.staged = []
  limits : c.writer.limits = limits
  resting : c.phase = .collecting → c.round = 0 → c.writer.ready = []

theorem workLeft_eq (c : Connection) :
    c.workLeft = c.attention + c.writer.unsent.length + c.roundWork := by
  unfold Connection.workLeft Connection.attention poolWork armed
  rw [Lane.Pool.length_queued, List.countP_eq_length_filter]
  omega

section

variable {c c' : Connection} {limits : Frame.Limits} {bodies : List Bytes}

theorem rounds_new (config : Config) (id : ConnectionId) : Rounds (.new config id) config.frame [] where
  balanced := Traffic.balanced_new config.frame
  staged := rfl
  limits := rfl
  resting := fun _ _ => rfl

/-- A reply is taken out of the channel; one that does not fit a chunk is dropped. -/
theorem Rounds.collect (h : Rounds c limits bodies) (hphase : c.phase = .collecting)
    (hc : c.collect = some c') :
    ∃ r sent writer bodies', c.visitor.sent = sent ++ [r] ∧
      c' = { c with
        visitor := { c.visitor with sent := sent }, writer := writer, round := c.round + 1 } ∧
      Rounds c' limits bodies' ∧ c'.workLeft < c.workLeft ∧
      (r.encode.length ≤ limits.maxChunkLen → bodies' = bodies ++ [r.encode]) := by
  obtain ⟨r, hlast, hc'⟩ := Option.map_eq_some_iff.1 hc
  obtain ⟨sent, hsent⟩ := List.getLast?_eq_some_iff.1 hlast
  have hdrop : c.visitor.sent.dropLast = sent := by rw [hsent, List.dropLast_concat]
  obtain ⟨w, bodies', hstage, hbalanced, hstaged, hlimits, hunsent, hmade⟩ :=
    stageReply_ok h.balanced h.staged r
  rw [h.limits] at hlimits hmade
  have hcollected : { c with
      visitor := { c.visitor with sent := sent }, writer := w, round := c.round + 1 } = c' := by
    rw [← hc']
    simp only [hstage, hdrop]
  subst hcollected
  refine ⟨r, sent, w, bodies', hsent, rfl,
    ⟨hbalanced, hstaged, hlimits, fun _ hround => (nomatch hround)⟩, ?_, hmade⟩
  have hwork : total (c.visitor.sent.map replyWork) =
      total (sent.map replyWork) + (8 + r.encode.length) := by
    rw [hsent, List.map_append, total_append]
    rfl
  have hbefore : 1 ≤ c.roundWork := by
    simp only [Connection.roundWork, hphase]
    split <;> omega
  rw [workLeft_eq, workLeft_eq]
  simp only [Connection.attention, Connection.roundWork, hphase, hwork] at hbefore ⊢
  split <;> omega

/-- A round begins. -/
theorem Rounds.beginSending (h : Rounds c limits bodies) (hphase : c.phase = .collecting)
    (hround : 0 < c.round) :
    Rounds { c with phase := .sending } limits bodies ∧
      ({ c with phase := .sending } : Connection).workLeft < c.workLeft := by
  refine ⟨⟨h.balanced, h.staged, h.limits, fun hcollecting => nomatch hcollecting⟩, ?_⟩
  rw [workLeft_eq, workLeft_eq]
  simp only [Connection.attention, Connection.roundWork, hphase, if_neg (Nat.ne_of_gt hround)]
  omega

/-- The stream takes some bytes. -/
theorem Rounds.send (h : Rounds c limits bodies) (hphase : c.phase = .sending) {n : Nat}
    (hc : c.send n = some c') :
    ∃ writer pieces, c' = { c with writer := writer, pieces := pieces } ∧ Rounds c' limits bodies ∧
      c'.workLeft < c.workLeft := by
  obtain ⟨front, hfront, hc'⟩ := Option.bind_eq_some_iff.1 hc
  split at hc'
  · rename_i hn
    cases hc'
    obtain ⟨hbalanced, hstaged, hlimits, hunsent⟩ := h.balanced.advance_of_current hfront hn.2
    refine ⟨_, _, rfl, ⟨?_, hstaged.trans h.staged, hlimits.trans h.limits,
      fun hcollecting => nomatch hphase.symm.trans hcollecting⟩, ?_⟩
    · have hwritten : Connection.written { c with
          writer := (c.writer.advance n).1, pieces := front.take n :: c.pieces } =
            c.written ++ front.take n := by
        simp [Connection.written]
      rw [hwritten]
      exact hbalanced
    · rw [workLeft_eq, workLeft_eq]
      simp only [Connection.attention, Connection.roundWork]
      omega
  · cases hc'

/-- A round is over. -/
theorem Rounds.release (h : Rounds c limits bodies) (hphase : c.phase = .sending)
    (hready : c.writer.ready = []) :
    let c' := { c with
      phase := .collecting, backlog := c.backlog.release c.round, round := 0 }
    Rounds c' limits bodies ∧ c'.workLeft < c.workLeft := by
  refine ⟨⟨h.balanced, h.staged, h.limits, fun _ _ => hready⟩, ?_⟩
  rw [workLeft_eq, workLeft_eq]
  simp only [Connection.attention, Connection.roundWork, hphase, if_true]
  omega

end

/-! ## Replies -/

/-- The replies given so far are those that were collected and those in the channel, in order. -/
structure Sends (c : Connection) (limits : Frame.Limits) (replies collected : List Reply) : Prop where
  replies : replies = collected ++ c.channel
  balanced : (c.traffic collected).Balanced
  staged : c.writer.staged = []
  limits : c.writer.limits = limits
  resting : c.phase = .collecting → c.round = 0 → c.writer.ready = []
  done : ∀ result, c.phase = .done result → result = .ok collected.length ∧ c.writer.ready = [] ∧
    c.visitor.sent = [] ∧ c.noneReplies = true
  listening : (∀ result, c.phase ≠ .done result) →
    c.visitor.listening = true ∧ c.backlog.writerDone = false

section

variable {c c' : Connection} {limits : Frame.Limits} {replies collected : List Reply}

theorem Sends.rounds (h : Sends c limits replies collected) :
    Rounds c limits (collected.map Reply.encode) :=
  ⟨h.balanced, h.staged, h.limits, h.resting⟩

/-- Rounds in which no reply was dropped, of a writer that is not done. -/
theorem Rounds.sends (h : Rounds c limits (collected.map Reply.encode))
    (hreplies : replies = collected ++ c.channel) (hwriting : ∀ result, c.phase ≠ .done result)
    (hlistening : c.visitor.listening = true ∧ c.backlog.writerDone = false) :
    Sends c limits replies collected where
  replies := hreplies
  balanced := h.balanced
  staged := h.staged
  limits := h.limits
  resting := h.resting
  done := fun result hdone => absurd hdone (hwriting result)
  listening := fun _ => hlistening

theorem sends_new (config : Config) (id : ConnectionId) : Sends (.new config id) config.frame [] [] := by
  have hrounds : Rounds (.new config id) config.frame (([] : List Reply).map Reply.encode) :=
    rounds_new config id
  exact hrounds.sends rfl (fun _ h => nomatch h) ⟨rfl, rfl⟩

/-- A reply is taken out of the channel. -/
theorem Sends.collect (h : Sends c limits replies collected) (hphase : c.phase = .collecting)
    (hfits : ∀ r ∈ replies, r.encode.length ≤ limits.maxChunkLen) (hc : c.collect = some c') :
    ∃ r sent writer, c' = { c with
        visitor := { c.visitor with sent := sent }, writer := writer, round := c.round + 1 } ∧
      Sends c' limits replies (collected ++ [r]) ∧ c'.workLeft < c.workLeft := by
  obtain ⟨r, sent, w, bodies', hsent, rfl, hrounds, hwork, hmade⟩ := h.rounds.collect hphase hc
  have hchannel : c.channel = r :: sent.reverse := by
    rw [Connection.channel, hsent, List.reverse_append]
    rfl
  have hmem : r ∈ replies := by
    rw [h.replies, hchannel]
    exact List.mem_append_right _ List.mem_cons_self
  have hwriting : ∀ result, c.phase ≠ .done result := fun result hdone =>
    nomatch hphase.symm.trans hdone
  have hbodies : bodies' = (collected ++ [r]).map Reply.encode := by
    rw [hmade (hfits r hmem), List.map_append]
    rfl
  refine ⟨r, sent, w, rfl, (hbodies ▸ hrounds).sends ?_ hwriting (h.listening hwriting), hwork⟩
  rw [h.replies, hchannel, List.append_assoc]
  rfl

/-- A round begins. -/
theorem Sends.beginSending (h : Sends c limits replies collected) (hphase : c.phase = .collecting)
    (hround : 0 < c.round) :
    Sends { c with phase := .sending } limits replies collected ∧
      ({ c with phase := .sending } : Connection).workLeft < c.workLeft := by
  have hlistening := h.listening fun result hdone => nomatch hphase.symm.trans hdone
  obtain ⟨hrounds, hwork⟩ := h.rounds.beginSending hphase hround
  exact ⟨hrounds.sends h.replies (fun result hdone => nomatch hdone) hlistening, hwork⟩

/-- The stream takes some bytes. -/
theorem Sends.send (h : Sends c limits replies collected) (hphase : c.phase = .sending) {n : Nat}
    (hc : c.send n = some c') :
    ∃ writer pieces, c' = { c with writer := writer, pieces := pieces } ∧
      Sends c' limits replies collected ∧ c'.workLeft < c.workLeft := by
  have hwriting : ∀ result, c.phase ≠ .done result := fun result hdone =>
    nomatch hphase.symm.trans hdone
  obtain ⟨writer, pieces, rfl, hrounds, hwork⟩ := h.rounds.send hphase hc
  exact ⟨writer, pieces, rfl, hrounds.sends h.replies hwriting (h.listening hwriting), hwork⟩

/-- A round is over. -/
theorem Sends.release (h : Sends c limits replies collected) (hphase : c.phase = .sending)
    (hready : c.writer.ready = []) :
    let c' := { c with
      phase := .collecting, backlog := c.backlog.release c.round, round := 0 }
    Sends c' limits replies collected ∧ c'.workLeft < c.workLeft := by
  have hlistening := h.listening fun result hdone => nomatch hphase.symm.trans hdone
  obtain ⟨hrounds, hwork⟩ := h.rounds.release hphase hready
  exact ⟨hrounds.sends h.replies (fun result hdone => nomatch hdone) hlistening, hwork⟩

/-- The writer is done. -/
theorem Sends.finish (h : Sends c limits replies collected) (hflushed : c.isFlushed = true) :
    Sends (c.endWriting (.ok c.writer.chunksWritten)) limits replies collected ∧
      (c.endWriting (.ok c.writer.chunksWritten)).workLeft < c.workLeft := by
  obtain ⟨hphase, hround, hsent, hnone⟩ := Connection.isFlushed_iff.1 hflushed
  have hready := h.resting hphase hround
  have hchannel : c.channel = [] := by rw [Connection.channel, hsent]; rfl
  have hcount : c.writer.chunksWritten = collected.length := by
    have hchunks := h.balanced.chunks
    have hpending : c.writer.chunksPending = 0 := by
      rw [Writer.chunksPending, hready]
      rfl
    rw [Connection.traffic, hpending, List.length_map] at hchunks
    exact hchunks
  refine ⟨⟨?_, h.balanced, h.staged, h.limits, ?_, ?_, fun hne => absurd rfl (hne _)⟩, ?_⟩
  · rw [h.replies, hchannel]
    rfl
  · intro hcollecting
    cases hcollecting
  · intro result hdone
    cases hdone
    exact ⟨by rw [hcount], hready, rfl, hnone⟩
  · rw [workLeft_eq, workLeft_eq]
    simp only [Connection.endWriting, Connection.attention, Connection.roundWork, hphase, hround,
      hsent, if_true]
    omega

end

end ChunkRouter.Router
