import ChunkRouter.Proofs.Router.Receiving
import ChunkRouter.Proofs.Router.Sending

/-!
# Connections with a fair peer

A fair peer sends well-formed chunks, hangs up behind the last one at the earliest, and takes what it is
sent. With such a peer every act of reader, lanes and writer keeps the books of a connection: which
chunks arrived, which replies were given for them, which of these were collected. Whatever lanes and
writer do uses work up.
-/

namespace ChunkRouter.Router

open Connection (Act)
open ChunkRouter.Frame.Grammar (wire)
open Message (Reply)

/-! ## Peers -/

/-- The bytes that arrive in an act. -/
def Connection.Act.received : Act → Bytes
  | .receive bytes => bytes
  | _ => []

/-- The bytes that arrive in a run. -/
def Connection.received (acts : List Act) : Bytes := acts.flatMap Act.received

/-- Whether an act is one of a peer that sends `sent`, of which `got` has arrived, hangs up after that
at the earliest, and takes what it is sent; what the router does is up to the router. -/
def Connection.Act.Fair (sent got : Bytes) : Act → Prop
  | .receive bytes => got ++ bytes <+: sent
  | .hangUp => got = sent
  | .readFails _ | .writeFails _ => False
  | _ => True

instance Connection.Act.decidableFair (sent got : Bytes) : (a : Act) → Decidable (a.Fair sent got)
  | .receive bytes => inferInstanceAs (Decidable (got ++ bytes <+: sent))
  | .hangUp => inferInstanceAs (Decidable (got = sent))
  | .readFails _ | .writeFails _ => .isFalse id
  | .shutDown | .takeTurn _ | .visit | .collect | .beginSending | .send _ | .release | .finish =>
    .isTrue trivial

/-- Whether the acts are those of a connection with a peer that sends `sent` and reads all replies, once
`got` has arrived. -/
def Connection.Fair (sent : Bytes) : Bytes → List Act → Prop
  | _, [] => True
  | got, a :: acts => a.Fair sent got ∧ Fair sent (got ++ a.received) acts

instance Connection.decidableFair (sent : Bytes) :
    (got : Bytes) → (acts : List Act) → Decidable (Connection.Fair sent got acts)
  | _, [] => .isTrue trivial
  | got, a :: acts => @instDecidableAnd _ _ _ (decidableFair sent (got ++ a.received) acts)

/-- Whether an act is one of lanes or writer. -/
def Connection.Act.serves : Act → Bool
  | .takeTurn _ | .visit | .collect | .beginSending | .send _ | .release | .finish => true
  | _ => false

/-- Lanes or writer take a connection from `c` to `c'`: less work is left, and reading is as it was. -/
def Connection.Advances (c c' : Connection) : Prop :=
  c'.readEnd = c.readEnd ∧ c'.workLeft < c.workLeft

/-- Lanes and writer act at most as often as there is work left, where each of their acts keeps what
advances them. -/
theorem length_le_of_advances {P : Connection → Prop}
    (hadvance : ∀ c a c', P c → a.serves = true → c.step a = some c' → P c' ∧ c.Advances c')
    {c c' : Connection} {more : List Act} (h : P c) (hserve : ∀ a ∈ more, a.serves = true)
    (hrun : c.run more = some c') :
    more.length + c'.workLeft ≤ c.workLeft ∧ c'.readEnd = c.readEnd ∧ P c' := by
  induction more generalizing c with
  | nil =>
    cases hrun
    exact ⟨Nat.le_of_eq (Nat.zero_add _), rfl, h⟩
  | cons a more ih =>
    obtain ⟨next, hstep, hrest⟩ := Option.bind_eq_some_iff.1 hrun
    obtain ⟨hnext, hsame, hless⟩ := hadvance c a next h (hserve a List.mem_cons_self) hstep
    obtain ⟨hle, hkept, hlater⟩ := ih hnext (fun b hb => hserve b (List.mem_cons_of_mem _ hb)) hrest
    refine ⟨?_, hkept.trans hsame, hlater⟩
    rw [List.length_cons]
    omega

section

variable {c c' : Connection} {answers answers' : List (Nat × Reply)}

/-- What lanes reply goes into the channel. -/
theorem Served.channel (h : Served c c' answers answers') :
    ∃ new, answers' = answers ++ new ∧ c'.channel = c.channel ++ new.map (·.2) := by
  obtain ⟨new, hanswers, hsent⟩ := h.replied.sent
  refine ⟨new, hanswers, ?_⟩
  rw [Connection.channel, hsent, List.reverse_append, List.reverse_reverse]
  rfl

theorem Served.advances (h : Served c c' answers answers') : c.Advances c' := by
  have hattention := h.attention
  have hothers := h.others
  refine ⟨by rw [hothers], ?_⟩
  have hunsent : c'.writer.unsent = c.writer.unsent := by rw [hothers]
  have hround : c'.roundWork = c.roundWork := by
    rw [hothers]
    rfl
  rw [workLeft_eq, workLeft_eq, hunsent, hround]
  omega

end

/-! ## Connections -/

/-- All that is known of a connection to which `got` has arrived. -/
structure Serves (config : Config) (c : Connection) (got : Bytes) (chunks : List Bytes)
    (answers : List (Nat × Reply)) (opened : List Opened) (collected : List Reply) : Prop where
  reads : Reads c config.frame got chunks
  attends : Attends c chunks answers opened
  sends : Sends c config.frame (answers.map (·.2)) collected
  owed : c.backlog.pending + collected.length = chunks.length + c.round
  limit : 0 < c.backlog.limit

theorem serves_new (config : Config) (id : ConnectionId) :
    Serves config (.new config id) [] [] [] [] [] where
  reads := reads_new config id
  attends := attends_new config id
  sends := sends_new config id
  owed := rfl
  limit := Nat.le_max_right _ _

section

variable {config : Config} {c c' : Connection} {got : Bytes} {chunks bodies : List Bytes}
  {answers : List (Nat × Reply)} {opened : List Opened} {collected : List Reply}

theorem noneReplies_iff (c : Connection) :
    c.noneReplies = true ↔ c.readEnd.isSome = true ∧ c.visiting = none ∧ c.pool.queued = [] := by
  unfold Connection.noneReplies
  rw [Bool.and_eq_true, Bool.and_eq_true, Option.isNone_iff_eq_none, Lane.Pool.queued_eq_nil_iff,
    and_assoc]

/-- A connection whose lanes act has a writer. -/
theorem Serves.listening (h : Serves config c got chunks answers opened collected)
    (hbusy : c.readEnd = none ∨ c.visiting ≠ none ∨ c.pool.queued ≠ []) :
    (∀ result, c.phase ≠ .done result) ∧ c.visitor.listening = true ∧ c.backlog.writerDone = false := by
  have hnot : ∀ result, c.phase ≠ .done result := by
    intro result hdone
    obtain ⟨-, -, -, hnone⟩ := h.sends.done result hdone
    obtain ⟨hend, hvisiting, hqueued⟩ := (noneReplies_iff c).1 hnone
    rcases hbusy with hopen | hne | hne
    · rw [hopen] at hend
      cases hend
    · exact hne hvisiting
    · exact hne hqueued
  exact ⟨hnot, h.sends.listening hnot⟩

/-- The lanes act: what they reply goes into the channel. -/
theorem Serves.served (h : Serves config c got chunks answers opened collected)
    (hbusy : c.visiting ≠ none ∨ c.pool.queued ≠ [])
    {answers' : List (Nat × Reply)} {opened' : List Opened}
    (hattends : Attends c' chunks answers' opened') (hserved : Served c c' answers answers') :
    Serves config c' got chunks answers' opened' collected ∧ c.Advances c' := by
  obtain ⟨hnot, hlistening⟩ := h.listening (.inr hbusy)
  obtain ⟨new, hanswers, hchannel⟩ := hserved.channel
  have hlistening' := hserved.replied.listening
  have hadvances := hserved.advances
  obtain ⟨pipeline, visitor, pool, visiting, rfl⟩ : ∃ pipeline visitor pool visiting,
      c' = { c with pipeline := pipeline, visitor := visitor, pool := pool, visiting := visiting } :=
    ⟨_, _, _, _, hserved.others⟩
  refine ⟨⟨⟨h.reads.run, h.reads.ended⟩, hattends, ?_, h.owed, h.limit⟩, hadvances⟩
  refine ⟨?_, h.sends.balanced, h.sends.staged, h.sends.limits, h.sends.resting,
    fun result hdone => absurd hdone (hnot result),
    fun _ => ⟨hlistening'.trans hlistening.1, hlistening.2⟩⟩
  rw [hanswers, List.map_append, h.sends.replies, hchannel, List.append_assoc]

/-- A lane takes its turn. -/
theorem Serves.takeTurn (h : Serves config c got chunks answers opened collected) {i : Nat}
    (hs : c.takeTurn i = some c') :
    ∃ answers' opened', Serves config c' got chunks answers' opened' collected ∧ c.Advances c' := by
  have hbusy : c.pool.queued ≠ [] := by
    obtain ⟨result, hb, -⟩ := Option.map_eq_some_iff.1 hs
    obtain ⟨pool, lane, task, -, -, hqueued, -⟩ := h.attends.tended.sane.beginTurn hb
    exact List.ne_nil_of_mem (hqueued.mem_iff.2 List.mem_cons_self)
  obtain ⟨-, hlistening, -⟩ := h.listening (.inr (.inr hbusy))
  obtain ⟨answers', opened', hattends, hserved⟩ := h.attends.takeTurn hlistening hs
  exact ⟨answers', opened', h.served (.inr hbusy) hattends hserved⟩

/-- The drain task goes on. -/
theorem Serves.visit (h : Serves config c got chunks answers opened collected)
    (hs : c.visit = some c') :
    ∃ answers' opened', Serves config c' got chunks answers' opened' collected ∧ c.Advances c' := by
  have hbusy : c.visiting ≠ none := by
    obtain ⟨v, hvisiting, -⟩ := Option.map_eq_some_iff.1 hs
    exact hvisiting ▸ Option.some_ne_none v
  obtain ⟨-, hlistening, -⟩ := h.listening (.inr (.inl hbusy))
  obtain ⟨answers', opened', hattends, hserved⟩ := h.attends.visit hlistening hs
  exact ⟨answers', opened', h.served (.inl hbusy) hattends hserved⟩

/-- Bytes arrive that do not break the stream. -/
theorem Serves.receive (h : Serves config c got chunks answers opened collected) {bytes : Bytes}
    (hok : ((Frame.Reader.new config.frame).run (got ++ bytes)).error? = none)
    (hend : c.readEnd = none) (hne : bytes ≠ []) (hle : bytes.length ≤ c.reader.space) :
    (c.receive bytes).readEnd = none ∧
      ∃ chunks', Serves config (c.receive bytes) (got ++ bytes) chunks' answers opened collected := by
  obtain ⟨hnot, hlistening⟩ := h.listening (.inl hend)
  obtain ⟨reader, ⟨hreads, heq⟩ | ⟨chunk, hreads, heq⟩ | ⟨e, hrun, -⟩⟩ := h.reads.receive hne hle
  · rw [heq]
    exact ⟨hend, chunks, hreads, ⟨h.attends.tended, h.attends.accounts⟩,
      ⟨h.sends.replies, h.sends.balanced, h.sends.staged, h.sends.limits, h.sends.resting,
        h.sends.done, h.sends.listening⟩, h.owed, h.limit⟩
  · have hattends : Attends { c with reader := reader } chunks answers opened :=
      ⟨h.attends.tended, h.attends.accounts⟩
    obtain ⟨pipeline, pool, haccept, hattends'⟩ := hattends.accept chunk
    rw [heq]
    rw [haccept] at hattends' ⊢
    refine ⟨hend, chunks ++ [chunk], ⟨hreads.run, hreads.ended⟩, hattends',
      ⟨h.sends.replies, h.sends.balanced, h.sends.staged, h.sends.limits, h.sends.resting,
        fun result hdone => absurd hdone (hnot result), fun _ => hlistening⟩, ?_, h.limit⟩
    have howed := h.owed
    show c.backlog.pending + 1 + collected.length = (chunks ++ [chunk]).length + c.round
    rw [List.length_append, List.length_singleton]
    omega
  · rw [hrun] at hok
    cases hok

/-- Reading ends well. -/
theorem Serves.endReading (h : Serves config c got chunks answers opened collected)
    (hend : c.readEnd = none) :
    Serves config (c.endReading (.ok ())) got chunks answers opened collected := by
  obtain ⟨hnot, hlistening⟩ := h.listening (.inl hend)
  exact ⟨⟨h.reads.run, fun result hresult => (Option.some.inj hresult).symm⟩,
    ⟨h.attends.tended, h.attends.accounts⟩,
    ⟨h.sends.replies, h.sends.balanced, h.sends.staged, h.sends.limits, h.sends.resting,
      fun result hdone => absurd hdone (hnot result), fun _ => hlistening⟩, h.owed, h.limit⟩

/-- All replies that were given fit a chunk. -/
theorem Serves.fits (h : Serves config c got chunks answers opened collected)
    (hmax : 128 ≤ config.frame.maxChunkLen)
    (hchunks : ∀ chunk ∈ chunks, chunk.length ≤ config.frame.maxChunkLen) :
    ∀ r ∈ answers.map (·.2), r.encode.length ≤ config.frame.maxChunkLen := by
  intro r hr
  obtain ⟨a, ha, rfl⟩ := List.mem_map.1 hr
  obtain ⟨chunk, hget, hanswers⟩ := h.attends.accounts.right a ha
  have hchunk := hchunks chunk (List.mem_of_getElem? hget)
  have hlimit := config.frame.maxChunkLen_le
  unfold Frame.maxBodyLen at hlimit
  have hlen := hanswers.length_le (by omega)
  omega

/-- A reply is collected. -/
theorem Serves.collect (h : Serves config c got chunks answers opened collected)
    (hphase : c.phase = .collecting)
    (hfits : ∀ r ∈ answers.map (·.2), r.encode.length ≤ config.frame.maxChunkLen)
    (hs : c.collect = some c') :
    ∃ collected', Serves config c' got chunks answers opened collected' ∧
      c.Advances c' := by
  obtain ⟨r, sent, writer, rfl, hsends, hwork⟩ := h.sends.collect hphase hfits hs
  refine ⟨collected ++ [r], ⟨⟨h.reads.run, h.reads.ended⟩, ⟨h.attends.tended, h.attends.accounts⟩,
    hsends, ?_, h.limit⟩, rfl, hwork⟩
  have howed := h.owed
  show c.backlog.pending + (collected ++ [r]).length = chunks.length + (c.round + 1)
  rw [List.length_append, List.length_singleton]
  omega

/-- A round is over, and its replies are owed no longer. -/
theorem Serves.release (h : Serves config c got chunks answers opened collected)
    (hphase : c.phase = .sending) (hready : c.writer.ready = []) :
    let c' := { c with
      phase := .collecting, backlog := c.backlog.release c.round, round := 0 }
    Serves config c' got chunks answers opened collected ∧ c.Advances c' := by
  obtain ⟨hsends, hwork⟩ := h.sends.release hphase hready
  refine ⟨⟨⟨h.reads.run, h.reads.ended⟩, ⟨h.attends.tended, h.attends.accounts⟩, hsends, ?_, h.limit⟩,
    rfl, hwork⟩
  have howed := h.owed
  have hle := h.attends.accounts.le
  have hreplies := congrArg List.length h.sends.replies
  rw [List.length_map, List.length_append] at hreplies
  show c.backlog.pending - c.round + collected.length = chunks.length + 0
  omega

theorem Serves.completed (h : Serves config c got chunks answers opened collected)
    (hbodies : ∀ b ∈ bodies, 1 ≤ b.length ∧ b.length ≤ config.frame.maxChunkLen)
    (hgot : got <+: wire bodies) : chunks <+: bodies := by
  have hpart := (Frame.Reader.run_part hbodies hgot).2
  rw [h.reads.run] at hpart
  exact hpart

/-- An act of lanes or writer uses work up. -/
theorem Serves.serve (h : Serves config c got chunks answers opened collected)
    (hfits : ∀ r ∈ answers.map (·.2), r.encode.length ≤ config.frame.maxChunkLen) {a : Act}
    (ha : a.serves = true) (hs : c.step a = some c') :
    ∃ answers' opened' collected', Serves config c' got chunks answers' opened' collected' ∧
      c.Advances c' := by
  cases a with
  | receive bytes | hangUp | readFails e | shutDown | writeFails e => cases ha
  | takeTurn i =>
    obtain ⟨answers', opened', hnext⟩ := h.takeTurn hs
    exact ⟨answers', opened', collected, hnext⟩
  | visit =>
    obtain ⟨answers', opened', hnext⟩ := h.visit hs
    exact ⟨answers', opened', collected, hnext⟩
  | collect =>
    obtain ⟨hphase, hcollect⟩ := Connection.of_step_collect hs
    obtain ⟨collected', hnext⟩ := h.collect hphase hfits hcollect
    exact ⟨answers, opened, collected', hnext⟩
  | beginSending =>
    obtain ⟨hphase, hround, rfl⟩ := Connection.of_step_beginSending hs
    obtain ⟨hsends, hwork⟩ := h.sends.beginSending hphase hround
    exact ⟨answers, opened, collected, ⟨⟨h.reads.run, h.reads.ended⟩,
      ⟨h.attends.tended, h.attends.accounts⟩, hsends, h.owed, h.limit⟩, rfl, hwork⟩
  | send n =>
    obtain ⟨hphase, hsend⟩ := Connection.of_step_send hs
    obtain ⟨writer, pieces, rfl, hsends, hwork⟩ := h.sends.send hphase hsend
    exact ⟨answers, opened, collected, ⟨⟨h.reads.run, h.reads.ended⟩,
      ⟨h.attends.tended, h.attends.accounts⟩, hsends, h.owed, h.limit⟩, rfl, hwork⟩
  | release =>
    obtain ⟨hphase, hready, rfl⟩ := Connection.of_step_release hs
    exact ⟨answers, opened, collected, h.release hphase hready⟩
  | finish =>
    obtain ⟨hflushed, rfl⟩ := Connection.of_step_finish hs
    obtain ⟨hsends, hwork⟩ := h.sends.finish hflushed
    exact ⟨answers, opened, collected, ⟨⟨h.reads.run, h.reads.ended⟩,
      ⟨h.attends.tended, h.attends.accounts⟩, hsends, h.owed, h.limit⟩, rfl, hwork⟩

/-- An act of the reader, with a fair peer. -/
theorem Serves.read (h : Serves config c got chunks answers opened collected)
    (hbodies : ∀ b ∈ bodies, 1 ≤ b.length ∧ b.length ≤ config.frame.maxChunkLen) {a : Act}
    (ha : a.serves = false) (hfair : a.Fair (wire bodies) got) (hs : c.step a = some c') :
    ∃ chunks', Serves config c' (got ++ a.received) chunks' answers opened collected := by
  have hkeep : got ++ [] = got := List.append_nil got
  cases a with
  | takeTurn i | visit | collect | beginSending | send n | release | finish => cases ha
  | readFails e | writeFails e => exact hfair.elim
  | receive bytes =>
    obtain ⟨hreading, hne, hle, rfl⟩ := Connection.of_step_receive hs
    exact (h.receive (Frame.Reader.run_part hbodies hfair).1
      (Connection.isReading_iff.1 hreading).1 hne hle).2
  | hangUp =>
    obtain ⟨hreading, rfl⟩ := Connection.of_step_hangUp hs
    have hall : got = wire bodies := hfair
    obtain ⟨hcheck, -⟩ := Reads.checkEof (hall ▸ h.reads) hbodies
    rw [hcheck]
    exact ⟨chunks, hkeep.symm ▸ h.endReading (Connection.isReading_iff.1 hreading).1⟩
  | shutDown =>
    obtain ⟨hopen, rfl⟩ := Connection.of_step_shutDown hs
    exact ⟨chunks, hkeep.symm ▸ h.endReading hopen⟩

theorem received_of_serves {a : Act} (h : a.serves = true) : a.received = [] := by
  cases a with
  | receive bytes => cases h
  | _ => rfl

theorem Connection.Act.Fair.arrives {a : Act} {sent : Bytes} (hfair : a.Fair sent got)
    (hgot : got <+: sent) : got ++ a.received <+: sent := by
  cases a with
  | receive bytes => exact hfair
  | _ =>
    show got ++ [] <+: sent
    rw [List.append_nil]
    exact hgot

end

/-! ## Runs -/

section

variable {config : Config} {c c' : Connection} {got : Bytes} {chunks bodies : List Bytes}
  {answers : List (Nat × Reply)} {opened : List Opened} {collected : List Reply} {acts : List Act}

theorem received_cons (a : Act) (acts : List Act) :
    Connection.received (a :: acts) = a.received ++ Connection.received acts := rfl

theorem arrived_of_fair {sent : Bytes} (hgot : got <+: sent) (hfair : Connection.Fair sent got acts) :
    got ++ Connection.received acts <+: sent := by
  induction acts generalizing got with
  | nil =>
    rw [Connection.received, List.flatMap_nil, List.append_nil]
    exact hgot
  | cons a acts ih =>
    rw [received_cons, ← List.append_assoc]
    exact ih (hfair.1.arrives hgot) hfair.2

/-- A peer that has hung up has sent everything. -/
theorem arrived_of_hangUp {sent : Bytes} (hgot : got <+: sent)
    (hfair : Connection.Fair sent got acts) (hmem : .hangUp ∈ acts) :
    got ++ Connection.received acts = sent := by
  induction acts generalizing got with
  | nil => cases hmem
  | cons a acts ih =>
    rcases List.mem_cons.1 hmem with rfl | hmem
    · have hall : got = sent := hfair.1
      have hpart := arrived_of_fair hgot hfair
      rw [hall] at hpart ⊢
      exact hpart.eq_of_length_le (by rw [List.length_append]; omega)
    · rw [received_cons, ← List.append_assoc]
      exact ih (hfair.1.arrives hgot) hfair.2 hmem

/-- **Every run of a connection with a fair peer is accounted for.** -/
theorem Serves.run (h : Serves config c got chunks answers opened collected)
    (hmax : 128 ≤ config.frame.maxChunkLen)
    (hbodies : ∀ b ∈ bodies, 1 ≤ b.length ∧ b.length ≤ config.frame.maxChunkLen)
    (hgot : got <+: wire bodies) (hfair : Connection.Fair (wire bodies) got acts)
    (hrun : c.run acts = some c') :
    ∃ chunks' answers' opened' collected',
      Serves config c' (got ++ Connection.received acts) chunks' answers' opened' collected' := by
  induction acts generalizing c got chunks answers opened collected with
  | nil =>
    cases hrun
    rw [Connection.received, List.flatMap_nil, List.append_nil]
    exact ⟨chunks, answers, opened, collected, h⟩
  | cons a acts ih =>
    obtain ⟨next, hstep, hrest⟩ := Option.bind_eq_some_iff.1 hrun
    obtain ⟨hnow, hlater⟩ := hfair
    have hpart := h.completed hbodies hgot
    have hfits := h.fits hmax fun chunk hchunk => (hbodies chunk (hpart.subset hchunk)).2
    rw [received_cons, ← List.append_assoc]
    cases hserves : a.serves
    · obtain ⟨chunks', hnext⟩ := h.read hbodies hserves hnow hstep
      exact ih hnext (hnow.arrives hgot) hlater hrest
    · obtain ⟨answers', opened', collected', hnext, -⟩ := h.serve hfits hserves hstep
      rw [received_of_serves hserves, List.append_nil] at hlater ⊢
      exact ih hnext hgot hlater hrest

end

end ChunkRouter.Router
