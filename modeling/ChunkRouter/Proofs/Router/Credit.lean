import ChunkRouter.Proofs.Router.Owing

/-!
# Credit

The reader of a connection takes credit for a reply with every chunk it completes, and the writer gives
back the credit of a whole round at a time. What is taken and not given back is what is owed, and stays
within the limit, so a reader that pauses for want of credit has replies to wait for.
-/

namespace ChunkRouter.Router

open ChunkRouter.ByteStream (RelayError)
open Connection (Act)
open Message (Reply)

namespace Connection

/-- How many replies an act releases. -/
def releasedBy (c : Connection) : Act → Nat
  | .release => c.round
  | _ => 0

/-- How many replies acts release. -/
def released (c : Connection) : List Act → Nat
  | [] => 0
  | a :: acts => c.releasedBy a + ((c.step a).map fun next => next.released acts).getD 0

end Connection

/-! ## Connections -/

/-- What is known of the credit of a live connection that has released `gone` replies. -/
structure Credits (config : Config) (c : Connection) (gone : Nat) (chunks : List Bytes)
    (answers : List (Nat × Reply)) (opened : List Opened) (bodies : List Bytes) : Prop where
  attends : Attends c chunks answers opened
  rounds : Rounds c config.frame bodies
  listening : c.visitor.listening = true
  backlogOpen : c.backlog.writerDone = false
  writing : ∀ result, c.phase ≠ .done result
  owing : c.backlog.pending = c.owing
  taken : c.backlog.pending + gone = chunks.length
  answered : answers.length = gone + c.round + c.channel.length
  read : c.reader.chunksRead = chunks.length
  limit : c.backlog.limit = max config.maxPendingReplies 1
  bounded : c.backlog.pending ≤ c.backlog.limit
  sending : c.phase = .sending → 0 < c.round

theorem credits_new (config : Config) (id : ConnectionId) :
    Credits config (.new config id) 0 [] [] [] [] where
  attends := attends_new config id
  rounds := rounds_new config id
  listening := rfl
  backlogOpen := rfl
  writing := fun _ h => nomatch h
  owing := by
    have hpending : (Connection.new config id).pipeline.queue.pending = [] :=
      (Work.Queue.lists_new config.queue true).pending_eq
    rw [Connection.owing, hpending]
    rfl
  taken := rfl
  answered := rfl
  read := rfl
  limit := rfl
  bounded := Nat.zero_le _
  sending := fun h => nomatch h

section

variable {config : Config} {c c' : Connection} {gone : Nat} {chunks bodies : List Bytes}
  {answers : List (Nat × Reply)} {opened : List Opened}

/-- The reader goes on while replies are owed up to the limit. -/
theorem Credits.hasRoom_iff (h : Credits config c gone chunks answers opened bodies) :
    c.backlog.hasRoom = true ↔ c.backlog.pending < max config.maxPendingReplies 1 := by
  rw [Backlog.hasRoom, h.backlogOpen, Bool.false_or, decide_eq_true_iff, h.limit]

/-- The lanes act. -/
theorem Credits.served (h : Credits config c gone chunks answers opened bodies)
    {answers' : List (Nat × Reply)} {opened' : List Opened}
    (hattends : Attends c' chunks answers' opened') (hserved : Served c c' answers answers')
    (howing : c'.owing = c.owing) :
    Credits config c' gone chunks answers' opened' bodies ∧ c.Advances c' := by
  obtain ⟨new, hanswers, hchannel⟩ := hserved.channel
  have hlistening := hserved.replied.listening
  have hadvances := hserved.advances
  obtain ⟨pipeline, visitor, pool, visiting, rfl⟩ : ∃ pipeline visitor pool visiting,
      c' = { c with pipeline := pipeline, visitor := visitor, pool := pool, visiting := visiting } :=
    ⟨_, _, _, _, hserved.others⟩
  refine ⟨{ h with
    attends := hattends
    rounds := ⟨h.rounds.balanced, h.rounds.staged, h.rounds.limits, h.rounds.resting⟩
    listening := hlistening.trans h.listening
    owing := h.owing.trans howing.symm
    answered := ?_ }, hadvances⟩
  have hbefore := h.answered
  rw [hanswers, hchannel, List.length_append, List.length_append, List.length_map]
  show answers.length + _ = gone + c.round + _
  omega

/-- A chunk is completed where there was room for its reply. -/
theorem Credits.accept (h : Credits config c gone chunks answers opened bodies) (chunk : Bytes)
    {reader : Frame.Reader} (hcount : reader.chunksRead = c.reader.chunksRead + 1)
    (hroom : c.backlog.hasRoom = true) :
    Credits config ({ c with reader := reader }.accept (.ofChunk chunk)) gone (chunks ++ [chunk])
      answers opened bodies := by
  have hattends : Attends { c with reader := reader } chunks answers opened :=
    ⟨h.attends.tended, h.attends.accounts⟩
  have howing : ({ c with reader := reader }.accept (.ofChunk chunk)).owing = c.owing + 1 :=
    hattends.owing_accept _
  obtain ⟨pipeline, pool, haccept, hattends'⟩ := hattends.accept chunk
  have hlength : (chunks ++ [chunk]).length = chunks.length + 1 := List.length_append
  have htaken := h.taken
  have hlimit := h.hasRoom_iff.1 hroom
  rw [haccept] at hattends' howing ⊢
  refine { h with
    attends := hattends'
    rounds := ⟨h.rounds.balanced, h.rounds.staged, h.rounds.limits, h.rounds.resting⟩
    owing := ?_
    taken := ?_
    read := ?_
    bounded := ?_ }
  · rw [howing, ← h.owing]
    rfl
  · show c.backlog.pending + 1 + gone = _
    omega
  · rw [hlength, ← h.read]
    exact hcount
  · show c.backlog.pending + 1 ≤ c.backlog.limit
    rw [h.limit]
    exact hlimit

/-- Reading ends well. -/
theorem Credits.endReading (h : Credits config c gone chunks answers opened bodies)
    (result : Except RelayError Unit) (hopen : (c.endReading result).pipeline.queue.closed = false) :
    Credits config (c.endReading result) gone chunks answers opened bodies := by
  cases result with
  | ok u =>
    exact { h with
      attends := ⟨h.attends.tended, h.attends.accounts⟩
      rounds := ⟨h.rounds.balanced, h.rounds.staged, h.rounds.limits, h.rounds.resting⟩ }
  | error e =>
    have hclosed : c.pipeline.queue.close.1.closed = true := by rw [Work.Queue.close_eq]
    exact Bool.noConfusion (hclosed.symm.trans hopen)

/-- A reply is collected. -/
theorem Credits.collect (h : Credits config c gone chunks answers opened bodies)
    (hphase : c.phase = .collecting) (hc : c.collect = some c') :
    ∃ bodies', Credits config c' gone chunks answers opened bodies' ∧ c.Advances c' := by
  obtain ⟨r, sent, w, bodies', hsent, rfl, hrounds, hwork, -⟩ := h.rounds.collect hphase hc
  have hchannel : c.channel.length = sent.length + 1 := by
    rw [Connection.channel, List.length_reverse, hsent, List.length_append]
    rfl
  have howing := h.owing
  have hanswered := h.answered
  have hnot : ¬c.phase = .sending := fun hsending => by
    rw [hphase] at hsending
    cases hsending
  refine ⟨bodies', { h with
    attends := ⟨h.attends.tended, h.attends.accounts⟩
    rounds := hrounds
    owing := ?_
    answered := ?_
    sending := fun hsending => absurd hsending hnot }, rfl, hwork⟩
  · unfold Connection.owing at howing ⊢
    show c.backlog.pending = c.pipeline.queue.pending.length + c.handed.length +
      armed c.visitor.batches + sent.reverse.length + (c.round + 1)
    rw [List.length_reverse]
    omega
  · show answers.length = gone + (c.round + 1) + sent.reverse.length
    rw [List.length_reverse]
    omega

/-- A round is sent, and released as a whole. -/
theorem Credits.release (h : Credits config c gone chunks answers opened bodies)
    (hphase : c.phase = .sending) (hready : c.writer.ready = []) :
    let c' := { c with
      phase := .collecting, backlog := c.backlog.release c.round, round := 0 }
    Credits config c' (gone + c.round) chunks answers opened bodies ∧ c.Advances c' ∧
      c'.backlog.pending + c.round = c.backlog.pending := by
  obtain ⟨hrounds, hwork⟩ := h.rounds.release hphase hready
  have howing := h.owing
  have htaken := h.taken
  have hbounded := h.bounded
  have hround : c.round ≤ c.backlog.pending := by
    rw [howing]
    exact Nat.le_add_left _ _
  have hreleased : c.backlog.pending - c.round + c.round = c.backlog.pending :=
    Nat.sub_add_cancel hround
  refine ⟨{ h with
    attends := ⟨h.attends.tended, h.attends.accounts⟩
    rounds := hrounds
    writing := fun result hdone => nomatch hdone
    owing := ?_
    taken := ?_
    bounded := ?_
    sending := fun hsending => nomatch hsending }, ⟨rfl, hwork⟩, hreleased⟩
  · unfold Connection.owing at howing ⊢
    show c.backlog.pending - c.round = c.pipeline.queue.pending.length + c.handed.length +
      armed c.visitor.batches + c.channel.length + 0
    omega
  · show c.backlog.pending - c.round + (gone + c.round) = chunks.length
    omega
  · show c.backlog.pending - c.round ≤ c.backlog.limit
    omega

/-- A lane takes its turn. -/
theorem Credits.takeTurn (h : Credits config c gone chunks answers opened bodies) {i : Nat}
    (hs : c.takeTurn i = some c') :
    ∃ answers' opened', Credits config c' gone chunks answers' opened' bodies ∧ c.Advances c' := by
  obtain ⟨answers', opened', hattends, hserved⟩ := h.attends.takeTurn h.listening hs
  exact ⟨answers', opened', h.served hattends hserved (h.attends.owing_takeTurn h.listening hs)⟩

/-- The drain task goes on. -/
theorem Credits.visit (h : Credits config c gone chunks answers opened bodies)
    (hs : c.visit = some c') :
    ∃ answers' opened', Credits config c' gone chunks answers' opened' bodies ∧ c.Advances c' := by
  obtain ⟨answers', opened', hattends, hserved⟩ := h.attends.visit h.listening hs
  exact ⟨answers', opened', h.served hattends hserved (h.attends.owing_visit h.listening hs)⟩

/-- An act of lanes or writer, but the writer's last, keeps the credit and uses work up. -/
theorem Credits.serve (h : Credits config c gone chunks answers opened bodies) {a : Act}
    (ha : a.serves = true) (hfinish : a ≠ .finish) (hs : c.step a = some c') :
    ∃ answers' opened' bodies',
      Credits config c' (gone + c.releasedBy a) chunks answers' opened' bodies' ∧ c.Advances c' := by
  cases a with
  | receive bytes | hangUp | readFails e | shutDown | writeFails e => cases ha
  | finish => exact absurd rfl hfinish
  | takeTurn i =>
    obtain ⟨answers', opened', hnext⟩ := h.takeTurn hs
    exact ⟨answers', opened', bodies, hnext⟩
  | visit =>
    obtain ⟨answers', opened', hnext⟩ := h.visit hs
    exact ⟨answers', opened', bodies, hnext⟩
  | collect =>
    obtain ⟨hphase, hcollect⟩ := Connection.of_step_collect hs
    obtain ⟨bodies', hnext⟩ := h.collect hphase hcollect
    exact ⟨answers, opened, bodies', hnext⟩
  | beginSending =>
    obtain ⟨hphase, hround, rfl⟩ := Connection.of_step_beginSending hs
    obtain ⟨hrounds, hwork⟩ := h.rounds.beginSending hphase hround
    refine ⟨answers, opened, bodies, { h with
      attends := ⟨h.attends.tended, h.attends.accounts⟩
      rounds := hrounds
      writing := fun result hdone => nomatch hdone
      sending := fun _ => hround }, rfl, hwork⟩
  | send n =>
    obtain ⟨hphase, hsend⟩ := Connection.of_step_send hs
    obtain ⟨writer, pieces, rfl, hrounds, hwork⟩ := h.rounds.send hphase hsend
    exact ⟨answers, opened, bodies, { h with
      attends := ⟨h.attends.tended, h.attends.accounts⟩, rounds := hrounds }, rfl, hwork⟩
  | release =>
    obtain ⟨hphase, hready, rfl⟩ := Connection.of_step_release hs
    obtain ⟨hnext, hadvances, -⟩ := h.release hphase hready
    exact ⟨answers, opened, bodies, hnext, hadvances⟩

/-- Bytes arrive. -/
theorem Credits.receive (h : Credits config c gone chunks answers opened bodies) {bytes : Bytes}
    (hroom : c.backlog.hasRoom = true) (hopen : (c.receive bytes).pipeline.queue.closed = false) :
    ∃ chunks', Credits config (c.receive bytes) gone chunks' answers opened bodies := by
  obtain ⟨reader, ⟨e, heq, -⟩ | ⟨heq, hcount⟩ | ⟨chunk, heq, hcount⟩⟩ := c.receive_cases bytes
  · have hclosed : c.pipeline.queue.close.1.closed = true := by rw [Work.Queue.close_eq]
    rw [heq] at hopen
    exact Bool.noConfusion (hclosed.symm.trans hopen)
  · rw [heq]
    exact ⟨chunks, { h with
      attends := ⟨h.attends.tended, h.attends.accounts⟩
      rounds := ⟨h.rounds.balanced, h.rounds.staged, h.rounds.limits, h.rounds.resting⟩
      read := hcount.trans h.read }⟩
  · rw [heq]
    exact ⟨chunks ++ [chunk], h.accept chunk hcount hroom⟩

/-- **Every act that leaves the connection live keeps its credit.** -/
theorem Credits.step (h : Credits config c gone chunks answers opened bodies) {a : Act}
    (hs : c.step a = some c') (hlive : c'.Live) :
    ∃ chunks' answers' opened' bodies',
      Credits config c' (gone + c.releasedBy a) chunks' answers' opened' bodies' := by
  cases hserves : a.serves with
  | true =>
    -- A writer that finishes is done, and one whose stream fails too.
    have hfinish : a ≠ .finish := by
      rintro rfl
      obtain ⟨-, rfl⟩ := Connection.of_step_finish hs
      exact hlive.writing _ rfl
    obtain ⟨answers', opened', bodies', hnext, -⟩ := h.serve hserves hfinish hs
    exact ⟨chunks, answers', opened', bodies', hnext⟩
  | false =>
    cases a with
    | takeTurn i | visit | collect | beginSending | send n | release | finish => cases hserves
    | receive bytes =>
      obtain ⟨hreading, -, -, rfl⟩ := Connection.of_step_receive hs
      obtain ⟨chunks', hnext⟩ := h.receive (Connection.isReading_iff.1 hreading).2 hlive.isOpen
      exact ⟨chunks', answers, opened, bodies, hnext⟩
    | hangUp =>
      obtain ⟨-, rfl⟩ := Connection.of_step_hangUp hs
      exact ⟨chunks, answers, opened, bodies, h.endReading _ hlive.isOpen⟩
    | readFails e =>
      obtain ⟨-, rfl⟩ := Connection.of_step_readFails hs
      exact ⟨chunks, answers, opened, bodies, h.endReading _ hlive.isOpen⟩
    | shutDown =>
      obtain ⟨-, rfl⟩ := Connection.of_step_shutDown hs
      exact ⟨chunks, answers, opened, bodies, h.endReading _ hlive.isOpen⟩
    | writeFails e =>
      obtain ⟨-, rfl⟩ := Connection.of_step_writeFails hs
      exact absurd rfl (hlive.writing _)

/-- Credit is kept in every run. -/
theorem Credits.run (h : Credits config c gone chunks answers opened bodies) {acts : List Act}
    (hrun : c.run acts = some c') (hlive : c'.Live) :
    ∃ chunks' answers' opened' bodies',
      Credits config c' (gone + c.released acts) chunks' answers' opened' bodies' := by
  induction acts generalizing c gone chunks answers opened bodies with
  | nil =>
    cases hrun
    exact ⟨chunks, answers, opened, bodies, h⟩
  | cons a acts ih =>
    obtain ⟨next, hstep, hrest⟩ := Option.bind_eq_some_iff.1 hrun
    -- That the connection is live is known of the end of the run only, but then it always was.
    have hrest' : next.run acts = some c' := hrest
    obtain ⟨chunks', answers', opened', bodies', hnext⟩ := h.step hstep (hlive.of_run hrest')
    have hlater := ih hnext hrest
    rw [Connection.released, hstep, Option.map_some, Option.getD_some, ← Nat.add_assoc]
    exact hlater

/-! ## Pauses -/

/-- The writer does not finish while there may be more to read. -/
theorem ne_finish (hreading : c.readEnd = none) {a : Act} (hs : c.step a = some c') : a ≠ .finish := by
  rintro rfl
  obtain ⟨hflushed, -⟩ := Connection.of_step_finish hs
  obtain ⟨-, -, -, hnone⟩ := Connection.isFlushed_iff.1 hflushed
  have hended := ((noneReplies_iff c).1 hnone).1
  rw [hreading] at hended
  cases hended

/-- **A live connection at rest reads on.** -/
theorem Credits.isReading (h : Credits config c gone chunks answers opened bodies)
    (hreading : c.readEnd = none) (hrest : ∀ a, a.serves = true → c.step a = none) :
    c.isReading = true := by
  obtain ⟨hvisiting, hqueued⟩ := h.attends.idle hrest
  obtain ⟨-, hanswered⟩ := h.attends.answered hvisiting hqueued
  cases hphase : c.phase with
  | done result => exact absurd hphase (h.writing result)
  | sending => exact absurd hphase (h.rounds.not_sending hrest)
  | collecting =>
    obtain ⟨hsent, hround⟩ := nothing_collected hphase hrest
    -- Every chunk is answered and every answer released, so nothing is owed.
    have htaken := h.taken
    have hcollected := h.answered
    rw [Connection.channel, hsent, hround] at hcollected
    have hzero : c.backlog.pending = 0 := by
      simp only [List.reverse_nil, List.length_nil, Nat.add_zero] at hcollected
      omega
    rw [Connection.isReading, hreading, h.hasRoom_iff.2 (by omega)]
    rfl

/-- Lanes and writer act as often as there is work left at most. -/
theorem Credits.length_le (h : Credits config c gone chunks answers opened bodies)
    (hreading : c.readEnd = none) {more : List Act} (hserve : ∀ a ∈ more, a.serves = true)
    (hrun : c.run more = some c') :
    more.length + c'.workLeft ≤ c.workLeft ∧ c'.readEnd = none ∧
      ∃ gone' answers' opened' bodies', Credits config c' gone' chunks answers' opened' bodies' := by
  refine And.imp_right And.right (length_le_of_advances (P := fun c => c.readEnd = none ∧
    ∃ gone answers opened bodies, Credits config c gone chunks answers opened bodies)
    (fun c a c' hc ha hstep => ?_) ⟨hreading, gone, answers, opened, bodies, h⟩ hserve hrun)
  obtain ⟨hopen, gone, answers, opened, bodies, hc⟩ := hc
  obtain ⟨answers', opened', bodies', hnext, hadvances⟩ := hc.serve ha (ne_finish hopen hstep) hstep
  exact ⟨⟨hadvances.1.trans hopen, _, answers', opened', bodies', hnext⟩, hadvances⟩

end

/-- **Credit is conserved.** However reader, lanes and writer of a connection take turns: as long as the
writer is not done and the pipeline is open, the backlog counts the completed chunks whose replies are
not released, each of which waits to be visited, or is a batch whose join has not fired, or has its
reply in the channel or in the round of the writer. It never counts more than the limit, since an act
completes one chunk at most, and that where there was room; a release gives back no more than was
taken. A reader that pauses is owed a reply: lanes or writer can act, they act `workLeft` times at most,
and at rest the reader reads on. -/
theorem credit_conserved (config : Config) (id : ConnectionId) {acts : List Act} {c : Connection}
    (hrun : (Connection.new config id).run acts = some c) (hlive : c.Live) :
    c.backlog.pending = c.owing ∧
      c.backlog.pending + (Connection.new config id).released acts = c.reader.chunksRead ∧
      c.backlog.pending ≤ max config.maxPendingReplies 1 ∧
      (∀ a c', c.step a = some c' → c'.reader.chunksRead = c.reader.chunksRead ∨
        c'.reader.chunksRead = c.reader.chunksRead + 1 ∧
          c.backlog.pending < max config.maxPendingReplies 1) ∧
      (∀ c', c.step .release = some c' → 0 < c.round ∧
        c'.backlog.pending + c.round = c.backlog.pending) ∧
      (c.readEnd = none → c.isReading = false →
        0 < c.owing ∧ (∃ a, a.serves = true ∧ (c.step a).isSome = true) ∧
          ∀ more c', (∀ a ∈ more, a.serves = true) → c.run more = some c' →
            more.length ≤ c.workLeft ∧
              ((∀ a, a.serves = true → c'.step a = none) → c'.isReading = true)) := by
  obtain ⟨chunks, answers, opened, bodies, h⟩ := (credits_new config id).run hrun hlive
  have htaken := h.taken
  rw [Nat.zero_add, ← h.read] at htaken
  refine ⟨h.owing, htaken, h.limit ▸ h.bounded, fun a c' hs => ?_, fun c' hs => ?_,
    fun hreading hpause => ⟨?_, ?_, fun more c' hserve hmore => ?_⟩⟩
  · refine (Connection.leads_step hs).chunksRead.imp_right fun hcount => ⟨hcount.1, ?_⟩
    exact h.hasRoom_iff.1 (Connection.isReading_iff.1 hcount.2).2
  · obtain ⟨hphase, hready, rfl⟩ := Connection.of_step_release hs
    exact ⟨h.sending hphase, (h.release hphase hready).2.2⟩
  · have hfull : ¬c.backlog.pending < max config.maxPendingReplies 1 := fun hroom => by
      rw [Connection.isReading, hreading, h.hasRoom_iff.2 hroom] at hpause
      cases hpause
    rw [← h.owing]
    omega
  · by_contra hstuck
    have hrest : ∀ a, a.serves = true → c.step a = none := fun a ha =>
      Option.not_isSome_iff_eq_none.1 fun hsome => hstuck ⟨a, ha, hsome⟩
    exact Bool.noConfusion (hpause.symm.trans (h.isReading hreading hrest))
  · obtain ⟨hle, hreading', gone, answers', opened', bodies', h'⟩ := h.length_le hreading hserve hmore
    exact ⟨by omega, h'.isReading hreading'⟩

/-- A limit of two: a batch is under way and a pong is being sent, so the reader pauses. -/
theorem credit_conserved_in_a_pause :
    let config := { Config.standard with maxPendingReplies := 2 }
    let acts : List Act := [.receive [0, 0, 0, 2], .receive [0, 5], .takeTurn 0, .visit, .visit,
      .receive [0, 0, 0, 6], .receive [2, 7, 2, 1, 65, 0], .takeTurn 0, .visit, .collect, .beginSending]
    ∃ c, (Connection.new config ⟨3⟩).run acts = some c ∧ c.isReading = false ∧
      c.backlog.pending = 2 ∧ armed c.visitor.batches = 1 ∧ c.round = 1 ∧
      ∃ a, a.serves = true ∧ (c.step a).isSome = true := by
  intro config acts
  have hends : ((Connection.new config ⟨3⟩).run acts).any (fun c =>
      c.isSending && !c.pipeline.queue.closed && c.readEnd.isNone && !c.isReading &&
        c.owing == 2 && armed c.visitor.batches == 1 && c.round == 1) = true := by decide +kernel
  obtain ⟨c, hrun, hc⟩ := (Option.any_eq_true _ _).1 hends
  simp only [Bool.and_eq_true, Bool.not_eq_true', Option.isNone_iff_eq_none, beq_iff_eq] at hc
  obtain ⟨⟨⟨⟨⟨⟨hsending, hopen⟩, hreading⟩, hpause⟩, howing⟩, harmed⟩, hround⟩ := hc
  have hwriting : ∀ result, c.phase ≠ .done result := fun result hdone => by
    rw [Connection.isSending, hdone] at hsending
    cases hsending
  obtain ⟨hpending, -, -, -, -, hpauses⟩ := credit_conserved config ⟨3⟩ hrun ⟨hopen, hwriting⟩
  exact ⟨c, hrun, hpause, hpending.trans howing, harmed, hround, (hpauses hreading hpause).2.1⟩

end ChunkRouter.Router
