import ChunkRouter.Proofs.Router.Breaking
import ChunkRouter.Proofs.Router.Owing

/-!
# Replies fit

A reply that sends something back is no longer than its request, and any other one is short. So a writer
whose chunks may have 98 bytes drops none: what it takes out of the channel becomes a frame. This holds
in every run, on streams that break and for limits of any size, since what waits in the channel always
answers chunks that were received.
-/

namespace ChunkRouter.Router

open Connection (Act stageReply)
open ChunkRouter.Frame (Writer)
open ChunkRouter.Frame.Grammar (frame parse wire)
open Message (Reply)

/-! ## One reply -/

/-- **A reply that fits becomes one frame**, and nothing is left of it in the writer but that. -/
theorem stageReply_frame {w : Writer} {r : Reply} (h : w.Sound) (hstaged : w.staged = [])
    (hfits : r.encode.length ≤ w.limits.maxChunkLen) :
    ∃ w', stageReply w r = (w', .ok ()) ∧ w'.unsent = w.unsent ++ frame r.encode ∧
      w'.chunksPending = w.chunksPending + 1 ∧ w'.blocks = [] ∧ w'.stagedLen = 0 := by
  have hzero : w.stagedLen = 0 := h.staged_eq_nil_iff.1 hstaged
  have hroom : w.stagedLen + r.encode.length ≤ w.limits.maxChunkLen := by
    rw [hzero, Nat.zero_add]
    exact hfits
  obtain ⟨v, hwrite, hsound, hbody, hothers⟩ := Writer.write_of_le h hroom
  rw [hstaged, List.nil_append] at hbody
  obtain ⟨pieces, hcomplete, hframe, hlast, -⟩ :=
    Writer.complete_of_ne_nil hsound (hbody.symm ▸ r.encode_ne_nil)
  have hready : v.ready = w.ready := by rw [hothers]
  refine ⟨{ v with blocks := [], stagedLen := 0, ready := v.ready ++ pieces }, ?_, ?_, ?_, rfl, rfl⟩
  · unfold stageReply
    rw [hwrite]
    dsimp only
    rw [hcomplete]
    rfl
  · rw [Writer.unsent, Writer.unsent, List.flatMap_append, hframe, hready, hbody]
  · rw [Writer.chunksPending, Writer.chunksPending, List.countP_append, hlast, hready]

/-! ## Connections that handle chunks -/

/-- A connection whose lanes attend to `chunks` and whose writer is not done: what waits in the channel
answers some of them, and the writer is between two replies. -/
structure Handles (config : Config) (c : Connection) (chunks : List Bytes) : Prop where
  attends : ∃ answers opened, Attends c chunks answers opened ∧
    ∀ r ∈ c.visitor.sent, r ∈ answers.map (·.2)
  rounds : ∃ bodies, Rounds c config.frame bodies
  listening : c.visitor.listening = true

/-- The lanes and the writer of a connection that is not done handle its chunks, those of the bytes that
it got or, where the stream broke, a front of them. -/
inductive Handling (config : Config) (c : Connection) (got : Bytes) : Prop
  | whole {chunks : List Bytes} (hreads : Reads c config.frame got chunks)
      (h : Handles config c chunks)
  | broken {e : ByteStream.RelayError} {d : Connection} {kept : List Bytes}
      (hfront : kept <+: (parse config.frame.maxChunkLen got).bodies)
      (hbroken : Broken e c d) (h : Handles config d kept)
  | finished {result : Except ByteStream.RelayError Nat} (h : c.phase = .done result)

section

variable {config : Config} {c c' : Connection} {got : Bytes} {chunks : List Bytes} {a : Act}

theorem handles_new (config : Config) (id : ConnectionId) : Handles config (.new config id) [] where
  attends := ⟨[], [], attends_new config id, fun _ h => h⟩
  rounds := ⟨[], rounds_new config id⟩
  listening := rfl

/-- What waits in the channel answers chunks. -/
theorem Handles.answers (h : Handles config c chunks) {r : Reply} (hr : r ∈ c.visitor.sent) :
    ∃ chunk ∈ chunks, Answers chunk r := by
  obtain ⟨answers, opened, hattends, hsent⟩ := h.attends
  obtain ⟨answer, hanswer, rfl⟩ := List.mem_map.1 (hsent r hr)
  obtain ⟨chunk, hchunk, hright⟩ := hattends.accounts.right answer hanswer
  exact ⟨chunk, List.mem_of_getElem? hchunk, hright⟩

/-- The lanes act: what they reply answers chunks too. -/
theorem Handles.served (h : Handles config c chunks) {answers answers' : List (Nat × Reply)}
    {opened' : List Opened} (hsent : ∀ r ∈ c.visitor.sent, r ∈ answers.map (·.2))
    (hattends : Attends c' chunks answers' opened') (hserved : Served c c' answers answers') :
    Handles config c' chunks ∧ c'.reader = c.reader ∧ c'.readEnd = c.readEnd := by
  obtain ⟨new, hanswers, hnew⟩ := hserved.replied.sent
  have hlistening := hserved.replied.listening
  have hothers := hserved.others
  obtain ⟨bodies, hrounds⟩ := h.rounds
  refine ⟨⟨⟨answers', opened', hattends, ?_⟩, ⟨bodies, ?_⟩, hlistening.trans h.listening⟩, ?_, ?_⟩
  · intro r hr
    rw [hnew, List.mem_append, List.mem_reverse] at hr
    rw [hanswers, List.map_append, List.mem_append]
    exact hr.symm.imp_left (hsent r)
  · rw [hothers]
    exact ⟨hrounds.balanced, hrounds.staged, hrounds.limits, hrounds.resting⟩
  · rw [hothers]
  · rw [hothers]

/-- An act of lanes or writer, which may be the writer's last. -/
theorem Handles.serve (h : Handles config c chunks) (ha : a.serves = true)
    (hs : c.step a = some c') :
    (∃ result, c'.phase = .done result) ∨
      Handles config c' chunks ∧ c'.reader = c.reader ∧ c'.readEnd = c.readEnd := by
  obtain ⟨answers, opened, hattends, hsent⟩ := h.attends
  obtain ⟨bodies, hrounds⟩ := h.rounds
  cases a with
  | receive bytes | hangUp | readFails e | shutDown | writeFails e => cases ha
  | takeTurn i =>
    obtain ⟨answers', opened', hattends', hserved⟩ := hattends.takeTurn h.listening hs
    exact .inr (h.served hsent hattends' hserved)
  | visit =>
    obtain ⟨answers', opened', hattends', hserved⟩ := hattends.visit h.listening hs
    exact .inr (h.served hsent hattends' hserved)
  | collect =>
    obtain ⟨hphase, hcollect⟩ := Connection.of_step_collect hs
    obtain ⟨r, sent, w, bodies', hlast, rfl, hrounds', -⟩ := hrounds.collect hphase hcollect
    refine .inr ⟨⟨⟨answers, opened, ⟨hattends.tended, hattends.accounts⟩, fun r' hr' => ?_⟩,
      ⟨bodies', hrounds'⟩, h.listening⟩, rfl, rfl⟩
    apply hsent
    rw [hlast]
    exact List.mem_append_left _ hr'
  | beginSending =>
    obtain ⟨hphase, hround, rfl⟩ := Connection.of_step_beginSending hs
    exact .inr ⟨⟨⟨answers, opened, ⟨hattends.tended, hattends.accounts⟩, hsent⟩,
      ⟨bodies, (hrounds.beginSending hphase hround).1⟩, h.listening⟩, rfl, rfl⟩
  | send n =>
    obtain ⟨hphase, hsend⟩ := Connection.of_step_send hs
    obtain ⟨writer, pieces, rfl, hrounds', -⟩ := hrounds.send hphase hsend
    exact .inr ⟨⟨⟨answers, opened, ⟨hattends.tended, hattends.accounts⟩, hsent⟩,
      ⟨bodies, hrounds'⟩, h.listening⟩, rfl, rfl⟩
  | release =>
    obtain ⟨hphase, hready, rfl⟩ := Connection.of_step_release hs
    exact .inr ⟨⟨⟨answers, opened, ⟨hattends.tended, hattends.accounts⟩, hsent⟩,
      ⟨bodies, (hrounds.release hphase hready).1⟩, h.listening⟩, rfl, rfl⟩
  | finish =>
    obtain ⟨-, rfl⟩ := Connection.of_step_finish hs
    exact .inl ⟨_, rfl⟩

/-- The stream breaks: the chunks that a drain task has taken are still handled. -/
theorem Handles.broken (h : Handles config c chunks) (reader : Frame.Reader)
    (e : ByteStream.RelayError) :
    ∃ d kept, kept <+: chunks ∧ Broken e ({ c with reader := reader }.endReading (.error e)) d ∧
      Handles config d kept := by
  obtain ⟨answers, opened, hattends, hsent⟩ := h.attends
  obtain ⟨bodies, hrounds⟩ := h.rounds
  obtain ⟨hlists, htended⟩ := hattends.tended.emptied
  obtain ⟨-, haccounts⟩ := hattends.accounts.cut
  refine ⟨c.endedBehind config.frame chunks [],
    chunks.take (answers.length + opened.length + c.handed.length), List.take_prefix _ _,
    ⟨rfl, rfl, rfl, hlists, hlists⟩,
    ⟨⟨answers, opened, ⟨htended, ?_⟩, hsent⟩, ⟨bodies, ?_⟩, h.listening⟩⟩
  · have hpending : (c.endedBehind config.frame chunks []).pipeline.queue.pending = [] :=
      Work.Queue.Lists.pending_eq hlists
    rw [hpending, List.append_nil]
    exact haccounts
  · exact ⟨hrounds.balanced, hrounds.staged, hrounds.limits, hrounds.resting⟩

/-- Reading ends, well or not. -/
theorem Handles.ended (h : Handles config c chunks) (hreads : Reads c config.frame got chunks)
    (result : Except ByteStream.RelayError Unit) : Handling config (c.endReading result) got := by
  cases result with
  | ok u =>
    obtain ⟨answers, opened, hattends, hsent⟩ := h.attends
    obtain ⟨bodies, hrounds⟩ := h.rounds
    refine .whole ⟨hreads.run, fun result hresult => (Option.some.inj hresult).symm⟩
      ⟨⟨answers, opened, ⟨hattends.tended, hattends.accounts⟩, hsent⟩, ⟨bodies, ?_⟩, h.listening⟩
    exact ⟨hrounds.balanced, hrounds.staged, hrounds.limits, hrounds.resting⟩
  | error e =>
    obtain ⟨d, kept, hfront, hbroken, hd⟩ := h.broken c.reader e
    exact .broken (hreads.parsed.1 ▸ hfront) hbroken hd

/-- Bytes arrive: they complete one chunk at most, or break the stream. -/
theorem Handles.receive (h : Handles config c chunks) (hreads : Reads c config.frame got chunks)
    {bytes : Bytes} (hne : bytes ≠ []) (hle : bytes.length ≤ c.reader.space) :
    Handling config (c.receive bytes) (got ++ bytes) := by
  obtain ⟨answers, opened, hattends, hsent⟩ := h.attends
  obtain ⟨bodies, hrounds⟩ := h.rounds
  obtain ⟨reader, ⟨hnext, heq⟩ | ⟨chunk, hnext, heq⟩ | ⟨e, hrun, heq⟩⟩ := hreads.receive hne hle
  · rw [heq]
    refine .whole hnext ⟨⟨answers, opened, ⟨hattends.tended, hattends.accounts⟩, hsent⟩,
      ⟨bodies, ?_⟩, h.listening⟩
    exact ⟨hrounds.balanced, hrounds.staged, hrounds.limits, hrounds.resting⟩
  · have hreader : Attends { c with reader := reader } chunks answers opened :=
      ⟨hattends.tended, hattends.accounts⟩
    obtain ⟨pipeline, pool, haccept, hattends'⟩ := hreader.accept chunk
    rw [heq]
    rw [haccept] at hattends' ⊢
    refine .whole ⟨hnext.run, hnext.ended⟩ ⟨⟨answers, opened, hattends', hsent⟩,
      ⟨bodies, ?_⟩, h.listening⟩
    exact ⟨hrounds.balanced, hrounds.staged, hrounds.limits, hrounds.resting⟩
  · have hagrees := Frame.Reader.run_agrees config.frame.maxChunkLen (got ++ bytes) _
      (Frame.Reader.holds_new config.frame) rfl
    rw [hrun] at hagrees
    have hbodies : chunks = _ := hagrees.chunks
    obtain ⟨d, kept, hfront, hbroken, hd⟩ := h.broken reader (.framing e)
    rw [heq]
    exact .broken (hbodies ▸ hfront) hbroken hd

/-- An act of lanes or writer, which is the writer's last perhaps. -/
theorem Handling.serve (h : Handling config c got) (ha : a.serves = true) (hs : c.step a = some c') :
    Handling config c' got := by
  cases h with
  | whole hreads h =>
    obtain ⟨result, hdone⟩ | ⟨hnext, hreader, hend⟩ := h.serve ha hs
    · exact .finished hdone
    · refine .whole ⟨?_, ?_⟩ hnext
      · rw [hreader]
        exact hreads.run
      · rw [hend]
        exact hreads.ended
  | broken hfront hbroken h =>
    obtain ⟨d', hs', hbroken'⟩ := hbroken.of_step ha hs
    have hphase : d'.phase = c'.phase := by rw [hbroken'.others]
    obtain ⟨result, hdone⟩ | ⟨hnext, -⟩ := h.serve ha hs'
    · exact .finished (hphase.symm.trans hdone)
    · exact .broken hfront hbroken' hnext
  | finished hdone => exact .finished ((Connection.leads_step hs).done _ hdone)

/-- While reading goes on, and the writer is not done, all is as the bytes that arrived spell it. -/
theorem Handling.reads (h : Handling config c got) (hend : c.readEnd = none) :
    (∃ chunks, Reads c config.frame got chunks ∧ Handles config c chunks) ∨
      ∃ result, c.phase = .done result := by
  cases h with
  | whole hreads h => exact .inl ⟨_, hreads, h⟩
  | broken hfront hbroken h => cases hend.symm.trans hbroken.readEnd
  | finished hdone => exact .inr ⟨_, hdone⟩

/-- **Every act keeps what is known of the channel.** -/
theorem Handling.step (h : Handling config c got) (hs : c.step a = some c') :
    Handling config c' (got ++ a.received) := by
  -- an act that ends reading brings no bytes
  have hstops : ∀ result, c.readEnd = none → c' = c.endReading result →
      Handling config c' (got ++ []) := by
    intro result hend heq
    rw [List.append_nil]
    obtain ⟨chunks, hreads, hchunks⟩ | ⟨_, hdone⟩ := h.reads hend
    · rw [heq]
      exact hchunks.ended hreads result
    · exact .finished ((Connection.leads_step hs).done _ hdone)
  cases a with
  | receive bytes =>
    obtain ⟨hreading, hne, hle, heq⟩ := Connection.of_step_receive hs
    obtain ⟨chunks, hreads, hchunks⟩ | ⟨_, hdone⟩ :=
      h.reads (Connection.isReading_iff.1 hreading).1
    · rw [heq]
      exact hchunks.receive hreads hne hle
    · exact .finished ((Connection.leads_step hs).done _ hdone)
  | hangUp =>
    obtain ⟨hreading, heq⟩ := Connection.of_step_hangUp hs
    exact hstops _ (Connection.isReading_iff.1 hreading).1 heq
  | readFails e =>
    obtain ⟨hreading, heq⟩ := Connection.of_step_readFails hs
    exact hstops _ (Connection.isReading_iff.1 hreading).1 heq
  | shutDown =>
    obtain ⟨hend, heq⟩ := Connection.of_step_shutDown hs
    exact hstops _ hend heq
  | writeFails e =>
    obtain ⟨-, rfl⟩ := Connection.of_step_writeFails hs
    exact .finished rfl
  | takeTurn i | visit | collect | beginSending | send n | release | finish =>
    rw [received_of_serves rfl, List.append_nil]
    exact h.serve rfl hs

/-- The channel of a connection is known after every run, on streams that fail too. -/
theorem handling_run (config : Config) (id : ConnectionId) {acts : List Act}
    (hrun : (Connection.new config id).run acts = some c) :
    Handling config c (Connection.received acts) := by
  induction acts using List.reverseRecOn generalizing c with
  | nil =>
    cases hrun
    exact .whole (reads_new config id) (handles_new config id)
  | append_singleton acts a ih =>
    rw [Connection.run, List.foldlM_append] at hrun
    obtain ⟨before, hbefore, hs⟩ := Option.bind_eq_some_iff.1 hrun
    have hlast : before.step a = some c := by simpa using hs
    rw [received_concat]
    exact (ih hbefore).step hlast

/-- A writer that is not done is between two replies, and what waits for it answers chunks of the
stream. -/
theorem Handling.channel (h : Handling config c got) (hwriting : ∀ result, c.phase ≠ .done result) :
    c.writer.Sound ∧ c.writer.staged = [] ∧ c.writer.limits = config.frame ∧
      ∀ r ∈ c.visitor.sent, ∃ chunk ∈ (parse config.frame.maxChunkLen got).bodies, Answers chunk r := by
  cases h with
  | whole hreads h =>
    obtain ⟨bodies, hrounds⟩ := h.rounds
    refine ⟨hrounds.balanced.sound, hrounds.staged, hrounds.limits, ?_⟩
    rw [hreads.parsed.1]
    exact fun r => h.answers
  | @broken e d kept hfront hbroken h =>
    obtain ⟨bodies, hrounds⟩ := h.rounds
    have hwriter : d.writer = c.writer := by rw [hbroken.others]
    have hvisitor : d.visitor = c.visitor := by rw [hbroken.others]
    rw [← hwriter, ← hvisitor]
    refine ⟨hrounds.balanced.sound, hrounds.staged, hrounds.limits, fun r hr => ?_⟩
    obtain ⟨chunk, hchunk, hright⟩ := h.answers hr
    exact ⟨chunk, hfront.subset hchunk, hright⟩
  | finished hdone => exact absurd hdone (hwriting _)

/-- The oldest reply is taken out of the channel, to become a frame or to be dropped. -/
theorem collect_frame (hwriter : c.writer.Sound) (hstaged : c.writer.staged = [])
    (hc : c.collect = some c') :
    ∃ sent r, c.visitor.sent = sent ++ [r] ∧ c'.visitor.sent = sent ∧ c'.phase = c.phase ∧
      (r.encode.length ≤ c.writer.limits.maxChunkLen →
        c'.writer.unsent = c.writer.unsent ++ frame r.encode ∧
        c'.writer.chunksPending = c.writer.chunksPending + 1 ∧
        c'.writer.blocks = [] ∧ c'.writer.stagedLen = 0) ∧
      (c.writer.limits.maxChunkLen < r.encode.length → c'.writer = c.writer) := by
  obtain ⟨r, hlast, hc'⟩ := Option.map_eq_some_iff.1 hc
  obtain ⟨sent, hsent⟩ := List.getLast?_eq_some_iff.1 hlast
  rw [hsent, List.dropLast_concat] at hc'
  dsimp only at hc'
  refine ⟨sent, r, hsent, ?_⟩
  by_cases hfits : r.encode.length ≤ c.writer.limits.maxChunkLen
  · obtain ⟨w, hstage, hframe⟩ := stageReply_frame hwriter hstaged hfits
    rw [hstage] at hc'
    subst hc'
    exact ⟨rfl, rfl, fun _ => hframe, fun hlong => absurd hfits (Nat.not_le.2 hlong)⟩
  · have hzero : c.writer.stagedLen = 0 := hwriter.staged_eq_nil_iff.1 hstaged
    have hlong : c.writer.limits.maxChunkLen < c.writer.stagedLen + r.encode.length := by omega
    rw [stageReply_of_long hlong] at hc'
    subst hc'
    exact ⟨rfl, rfl, fun hle => absurd hle hfits, fun _ => rfl⟩

end

/-- **Replies fit.** A chunk that asks to have its number or its bytes sent back is answered by no more
bytes than it has, and any other chunk by 98 at most. In every run, on streams that break or fail too, a
reply that waits for the writer answers a chunk of the bytes received; the writer takes the replies out
oldest first, and a reply that fits under the limit becomes exactly one more frame, behind the others,
with nothing left over. If chunks may have 98 bytes, every reply does. -/
theorem replies_fit (config : Config) (id : ConnectionId) {acts : List Act} {c : Connection}
    (hrun : (Connection.new config id).run acts = some c)
    (hwriting : ∀ result, c.phase ≠ .done result) :
    let limit := config.frame.maxChunkLen
    (∀ chunk r, chunk.length ≤ limit → Answers chunk r →
      (IsMirror chunk → r.encode.length ≤ chunk.length) ∧
      (¬IsMirror chunk → r.encode.length ≤ 98)) ∧
    (∀ r ∈ c.visitor.sent, ∃ chunk ∈ (parse limit (Connection.received acts)).bodies,
      1 ≤ chunk.length ∧ chunk.length ≤ limit ∧ Answers chunk r) ∧
    (98 ≤ limit → ∀ r ∈ c.visitor.sent, r.encode.length ≤ limit) ∧
    ∀ c', c.step .collect = some c' →
      ∃ sent r, c.visitor.sent = sent ++ [r] ∧ c'.visitor.sent = sent ∧ c'.phase = c.phase ∧
        (r.encode.length ≤ limit →
          c'.writer.unsent = c.writer.unsent ++ frame r.encode ∧
          c'.writer.chunksPending = c.writer.chunksPending + 1 ∧
          c'.writer.blocks = [] ∧ c'.writer.stagedLen = 0) ∧
        (limit < r.encode.length → c'.writer = c.writer) := by
  intro limit
  obtain ⟨hsound, hstaged, hlimits, hsent⟩ := (handling_run config id hrun).channel hwriting
  have hlengths : ∀ chunk r, chunk.length ≤ limit → Answers chunk r →
      (IsMirror chunk → r.encode.length ≤ chunk.length) ∧
      (¬IsMirror chunk → r.encode.length ≤ 98) := by
    intro chunk r hle h
    have hlimit : limit ≤ 4294967295 := config.frame.maxChunkLen_le
    exact ⟨h.length_le_of_mirror, h.length_le_of_not_mirror (by omega)⟩
  have hwaits : ∀ r ∈ c.visitor.sent, ∃ chunk ∈ (parse limit (Connection.received acts)).bodies,
      1 ≤ chunk.length ∧ chunk.length ≤ limit ∧ Answers chunk r := by
    intro r hr
    obtain ⟨chunk, hchunk, hright⟩ := hsent r hr
    obtain ⟨hpos, hle⟩ := Frame.Grammar.admissible_of_mem_bodies hchunk
    exact ⟨chunk, hchunk, hpos, hle, hright⟩
  refine ⟨hlengths, hwaits, ?_, ?_⟩
  · intro hlimit r hr
    obtain ⟨chunk, -, -, hle, hright⟩ := hwaits r hr
    obtain ⟨hmirrored, hother⟩ := hlengths chunk r hle hright
    by_cases hmirror : IsMirror chunk
    · exact Nat.le_trans (hmirrored hmirror) hle
    · exact Nat.le_trans (hother hmirror) hlimit
  · intro c' hs
    have hcollected := collect_frame hsound hstaged (Connection.of_step_collect hs).2
    rw [hlimits] at hcollected
    exact hcollected

/-- The longest of the short replies, to a request of no known kind, has just room where chunks may have
98 bytes. -/
theorem replies_fit_at_98 :
    let config : Config := { Config.standard with frame := .clamp 98 16 }
    let acts : List Act := [.receive [0, 0, 0, 5], .receive [252, 255, 255, 255, 255], .takeTurn 0,
      .visit]
    ∃ c c' r, (Connection.new config ⟨0⟩).run acts = some c ∧ c.step .collect = some c' ∧
      c.visitor.sent = [r] ∧ Answers [252, 255, 255, 255, 255] r ∧ r.encode.length = 98 ∧
      c'.writer.unsent = frame r.encode ∧ c'.writer.chunksPending = 1 ∧ c'.writer.stagedLen = 0 := by
  intro config acts
  have hruns : (((Connection.new config ⟨0⟩).run acts).bind fun c =>
      (c.step .collect).bind fun c' => if c.visitor.sent.map (·.encode.length) = [98] ∧
        c.writer.unsent = [] ∧ c.writer.chunksPending = 0 then some (c, c') else none).isSome = true := by
    decide +kernel
  obtain ⟨pair, hpair⟩ := Option.isSome_iff_exists.1 hruns
  obtain ⟨c, hrun, hpair⟩ := Option.bind_eq_some_iff.1 hpair
  obtain ⟨c', hs, hpair⟩ := Option.bind_eq_some_iff.1 hpair
  obtain ⟨⟨hlengths, hempty, hnone⟩, -⟩ := Option.ite_none_right_eq_some.1 hpair
  obtain ⟨r, hsent, hlength⟩ := List.map_eq_singleton_iff.1 hlengths
  have hwriting : ∀ result, c.phase ≠ .done result := by
    intro result hdone
    cases (Connection.of_step_collect hs).1.symm.trans hdone
  have hparse : (parse config.frame.maxChunkLen (Connection.received acts)).bodies =
      [[252, 255, 255, 255, 255]] := by
    have hreceived : Connection.received acts = frame [252, 255, 255, 255, 255] ++ [] := by decide
    rw [hreceived, Frame.Grammar.parse_frame_append _ (by decide) (by decide) (by decide), parse]
    rfl
  obtain ⟨-, hwaits, -, hcollects⟩ := replies_fit config ⟨0⟩ hrun hwriting
  obtain ⟨chunk, hchunk, -, -, hright⟩ := hwaits r (hsent ▸ List.mem_singleton_self r)
  rw [hparse, List.mem_singleton] at hchunk
  obtain ⟨sent, r', hsent', -, -, hfits, -⟩ := hcollects c' hs
  cases List.append_inj_right' (hsent'.symm.trans hsent : sent ++ [r'] = [] ++ [r]) rfl
  obtain ⟨hunsent, hpending, -, hstaged⟩ := hfits (Nat.le_of_eq hlength)
  rw [hempty, List.nil_append] at hunsent
  rw [hnone] at hpending
  exact ⟨c, c', r, hrun, hs, hsent, hchunk ▸ hright, hlength, hunsent, hpending, hstaged⟩

end ChunkRouter.Router
