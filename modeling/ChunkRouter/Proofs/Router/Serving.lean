import ChunkRouter.Proofs.Frame.Paths
import ChunkRouter.Proofs.Router.Replies
import ChunkRouter.Router.Session

/-!
# Serving

`settle` has lanes and writer act in one of the orders in which they may act, as often as there is work
left, and that is often enough: `Serves.settle` says that they have nothing to do then. So a peer that sends
well-formed chunks has the replies to all of them on its stream once it is served, and a connection that it
hangs up on is done (`serve_answers_all`).

What a session does to its service is a run of the service (`run_of_session`); all that is known of runs
holds of sessions.
-/

namespace ChunkRouter.Router

open Connection (Act)
open ChunkRouter.Frame.Grammar (wire)
open Message (Reply)

/-! ## States that are reached -/

/-- One state is reached from another by acts that may happen. -/
def Reaches {σ α : Type} (step : σ → α → Option σ) (s s' : σ) : Prop :=
  ∃ acts : List α, acts.foldlM step s = some s'

section

variable {σ α : Type} {step : σ → α → Option σ} {s s' s'' : σ}

theorem Reaches.refl (s : σ) : Reaches step s s := ⟨[], rfl⟩

theorem Reaches.trans (h : Reaches step s s') (h' : Reaches step s' s'') : Reaches step s s'' := by
  obtain ⟨acts, hrun⟩ := h
  obtain ⟨acts', hrun'⟩ := h'
  refine ⟨acts ++ acts', ?_⟩
  rw [List.foldlM_append]
  exact Option.bind_eq_some_iff.2 ⟨s', hrun, hrun'⟩

theorem Reaches.of_step {a : α} (h : step s a = some s') : Reaches step s s' :=
  ⟨[a], Option.bind_eq_some_iff.2 ⟨s', h, rfl⟩⟩

end

/-! ## Settling -/

namespace Connection

section

variable {c : Connection} {a : Act}

/-- What comes next is up to lanes and writer. -/
theorem serves_of_nextAct? (h : c.nextAct? = some a) : a.serves = true := by
  unfold nextAct? at h
  repeat' split at h
  all_goals cases h
  all_goals rfl

/-- The acts of a settling: they are those that come next, until none does or the fuel is used up. -/
theorem settleLoop_run (fuel : Nat) (c : Connection) :
    ∃ more, (∀ a ∈ more, a.serves = true) ∧ c.run more = some (settleLoop fuel c) ∧
      (more.length = fuel ∨ (settleLoop fuel c).nextAct?.bind (settleLoop fuel c).step = none) := by
  induction fuel generalizing c with
  | zero => exact ⟨[], List.forall_mem_nil _, rfl, .inl rfl⟩
  | succ fuel ih =>
    unfold settleLoop
    cases hnext : c.nextAct?.bind c.step with
    | none => exact ⟨[], List.forall_mem_nil _, rfl, .inr hnext⟩
    | some c' =>
      obtain ⟨a, hact, hstep⟩ := Option.bind_eq_some_iff.1 hnext
      obtain ⟨more, hserve, hrun, hend⟩ := ih c'
      refine ⟨a :: more, List.forall_mem_cons.2 ⟨serves_of_nextAct? hact, hserve⟩,
        Option.bind_eq_some_iff.2 ⟨c', hstep, hrun⟩, hend.imp_left fun hlen => ?_⟩
      rw [List.length_cons, hlen]

theorem reaches_settle (c : Connection) : Reaches step c c.settle := by
  obtain ⟨more, -, hrun, -⟩ := settleLoop_run c.workLeft c
  exact ⟨more, hrun⟩

/-- Where nothing comes next, no task is under way and no turn is to come. -/
theorem lanes_at_rest (h : c.nextAct?.bind c.step = none) : c.visiting = none ∧ c.pool.turns = [] := by
  have hvisiting : c.visiting = none := by
    cases hv : c.visiting with
    | none => rfl
    | some v =>
      have hnext : c.nextAct? = some .visit := by
        rw [nextAct?, hv]
        rfl
      have hvisit : c.visit = none := by rwa [hnext] at h
      rw [← hv]
      exact Option.map_eq_none_iff.1 hvisit
  refine ⟨hvisiting, ?_⟩
  cases hturns : c.pool.turns with
  | nil => rfl
  | cons t turns =>
    have hnext : c.nextAct? = some (.takeTurn 0) := by
      rw [nextAct?, hvisiting, hturns]
      rfl
    have hturn : c.takeTurn 0 = none := by rwa [hnext] at h
    exact hturns ▸ turns_eq_nil hturn

/-- Where nothing comes next, the writer waits for replies of which there are none now, or is done. -/
theorem writer_at_rest (hsound : ∀ f ∈ c.writer.ready, f.unsent ≠ [])
    (h : c.nextAct?.bind c.step = none) :
    (∃ result, c.phase = .done result) ∨
      c.phase = .collecting ∧ c.visitor.sent = [] ∧ c.round = 0 ∧ c.noneReplies = false := by
  obtain ⟨hvisiting, hturns⟩ := lanes_at_rest h
  unfold nextAct? at h
  rw [hvisiting, hturns] at h
  cases hphase : c.phase with
  | done result => exact .inl ⟨result, rfl⟩
  | sending =>
    rw [hphase] at h
    cases hready : c.writer.ready with
    | nil =>
      rw [hready] at h
      have hrelease : c.step .release = none := h
      simp only [step, hphase, hready] at hrelease
      cases hrelease
    | cons front ready =>
      rw [hready] at h
      have hsend : c.step (.send front.unsent.length) = none := h
      have hcurrent : c.writer.current? = some front.unsent := by
        rw [Frame.Writer.current?, hready]
        rfl
      have hpos := List.length_pos_iff.2 (hsound front (hready ▸ List.mem_cons_self))
      simp only [step, hphase, Connection.send, hcurrent, Option.bind_some] at hsend
      rw [if_pos ⟨hpos, Nat.le_refl _⟩] at hsend
      cases hsend
  | collecting =>
    rw [hphase] at h
    cases hsent : c.visitor.sent with
    | cons r sent =>
      rw [hsent] at h
      have hcollect : c.step .collect = none := h
      simp only [step, hphase] at hcollect
      have hnil := List.getLast?_eq_none_iff.1 (Option.map_eq_none_iff.1 hcollect)
      rw [hsent] at hnil
      cases hnil
    | nil =>
      rw [hsent] at h
      refine .inr ⟨rfl, rfl, ?_⟩
      by_cases hround : 0 < c.round
      · have hbegin : c.step .beginSending = none := by simpa [hround] using h
        simp only [step, hphase, hsent, if_pos hround] at hbegin
        cases hbegin
      · refine ⟨by omega, Bool.eq_false_iff.2 fun hnone => ?_⟩
        have hfinish : c.step .finish = none := by simpa [hround, hnone] using h
        have hflushed : c.isFlushed = true := isFlushed_iff.2 ⟨hphase, by omega, hsent, hnone⟩
        rw [step, if_pos hflushed] at hfinish
        cases hfinish

/-- Where nothing comes next, lanes and writer have nothing to do. -/
theorem at_rest (hsound : ∀ f ∈ c.writer.ready, f.unsent ≠ [])
    (h : c.nextAct?.bind c.step = none) (ha : a.serves = true) : c.step a = none := by
  obtain ⟨hvisiting, hturns⟩ := lanes_at_rest h
  have hwriter := writer_at_rest hsound h
  cases a with
  | receive bytes | hangUp | readFails e | shutDown | writeFails e => cases ha
  | takeTurn i =>
    show c.takeTurn i = none
    rw [takeTurn, Lane.Pool.beginTurn, hturns]
    rfl
  | visit =>
    show c.visit = none
    rw [visit, hvisiting]
    rfl
  | collect | beginSending | send n | release | finish =>
    rcases hwriter with ⟨result, hdone⟩ | ⟨hphase, hsent, hround, hnone⟩
    · simp [step, isFlushed, hdone]
    · simp [step, isFlushed, collect, hphase, hsent, hround, hnone]

end

end Connection

/-! ## Serving a fair peer -/

/-- A connection to which `got` has arrived, that reads on, and in which lanes and writer have nothing to do. -/
structure AtRest (config : Config) (c : Connection) (got : Bytes) : Prop where
  isOpen : c.readEnd = none
  rests : ∀ a, a.serves = true → c.step a = none
  books : ∃ chunks answers opened collected, Serves config c got chunks answers opened collected

section

variable {config : Config} {c : Connection} {got left : Bytes} {chunks bodies : List Bytes}
  {answers : List (Nat × Reply)} {opened : List Opened} {collected : List Reply}

/-- **Lanes and writer come to rest in a settling.** -/
theorem Serves.settle (h : Serves config c got chunks answers opened collected)
    (hmax : 128 ≤ config.frame.maxChunkLen)
    (hchunks : ∀ chunk ∈ chunks, chunk.length ≤ config.frame.maxChunkLen) :
    (∀ a, a.serves = true → c.settle.step a = none) ∧ c.settle.readEnd = c.readEnd ∧
      ∃ answers' opened' collected', Serves config c.settle got chunks answers' opened' collected' := by
  obtain ⟨more, hserve, hrun, hend⟩ := Connection.settleLoop_run c.workLeft c
  obtain ⟨hle, hsame, answers', opened', collected', h'⟩ := h.length_le hmax hchunks hserve hrun
  refine ⟨fun a ha => ?_, hsame, answers', opened', collected', h'⟩
  refine Connection.at_rest h'.sends.balanced.sound.unsent_ne_nil (hend.elim (fun hlen => ?_) id) ha
  -- all the work was done: one act more would be too many
  refine Option.eq_none_iff_forall_ne_some.2 fun d hd => ?_
  obtain ⟨b, hb, hstep⟩ := Option.bind_eq_some_iff.1 hd
  obtain ⟨-, -, -, -, -, hless⟩ :=
    h'.serve (h'.fits hmax hchunks) (Connection.serves_of_nextAct? hb) hstep
  have hnone : (Connection.settleLoop c.workLeft c).workLeft = 0 := by omega
  omega

theorem Reads.space_pos (h : Reads c config.frame got chunks) : 0 < c.reader.space := by
  have hsound := (Frame.Reader.sound_new config.frame).run got
  have hhealthy := (Frame.Reader.sound_new config.frame).poisoned_run rfl got
  rw [h.run] at hsound hhealthy
  have hr : c.reader.poisoned = false := Bool.eq_false_iff.2 fun hp => hhealthy.1 hp rfl
  rw [Frame.Reader.space, hr]
  exact hsound.room hr

/-- A connection whose lanes and writer have nothing to do asks for more. -/
theorem AtRest.isReading (h : AtRest config c got) : c.isReading = true := by
  obtain ⟨chunks, answers, opened, collected, hbooks⟩ := h.books
  rcases hbooks.done_or_reading h.rests with ⟨result, hdone⟩ | hreading
  · exact absurd hdone ((hbooks.listening (.inl h.isOpen)).1 result)
  · exact hreading

/-- More arrives, and lanes and writer do what follows from it. -/
theorem AtRest.receive (h : AtRest config c got) (hmax : 128 ≤ config.frame.maxChunkLen)
    (hbodies : ∀ b ∈ bodies, 1 ≤ b.length ∧ b.length ≤ config.frame.maxChunkLen)
    (hsent : got ++ left = wire bodies) (hleft : left ≠ []) :
    let bytes := left.take c.reader.space
    bytes ≠ [] ∧ ∃ c', c.step (.receive bytes) = some c' ∧ AtRest config c'.settle (got ++ bytes) := by
  intro bytes
  obtain ⟨chunks, answers, opened, collected, hbooks⟩ := h.books
  have hreading := h.isReading
  have hne : bytes ≠ [] := by
    have hspace := Nat.ne_of_gt hbooks.reads.space_pos
    simpa [bytes, hspace] using hleft
  have hle : bytes.length ≤ c.reader.space := List.length_take_le _ _
  have hfront : got ++ bytes <+: wire bodies :=
    hsent ▸ (List.prefix_append_right_inj got).2 (List.take_prefix _ _)
  have hstep : c.step (.receive bytes) = some (c.receive bytes) := if_pos ⟨hreading, hne, hle⟩
  obtain ⟨hopen, chunks', hnext⟩ :=
    hbooks.receive (Frame.Reader.run_part hbodies hfront).1 h.isOpen hne hle
  have hpart := hnext.completed hbodies hfront
  obtain ⟨hrests, hsame, hlater⟩ :=
    hnext.settle hmax fun chunk hchunk => (hbodies chunk (hpart.subset hchunk)).2
  exact ⟨hne, c.receive bytes, hstep, hsame.trans hopen, hrests, chunks', hlater⟩

/-- All that a fair peer sends is received. -/
theorem AtRest.receiveLoop (hmax : 128 ≤ config.frame.maxChunkLen)
    (hbodies : ∀ b ∈ bodies, 1 ≤ b.length ∧ b.length ≤ config.frame.maxChunkLen) {fuel : Nat}
    (hfuel : left.length ≤ fuel) (h : AtRest config c got) (hsent : got ++ left = wire bodies) :
    AtRest config (Connection.receiveLoop fuel c left).1 (wire bodies) ∧
      (Connection.receiveLoop fuel c left).2 = [] := by
  induction fuel generalizing c got left with
  | zero =>
    have hnil : left = [] := List.length_eq_zero_iff.1 (Nat.le_zero.1 hfuel)
    rw [hnil, List.append_nil] at hsent
    exact ⟨hsent ▸ h, hnil⟩
  | succ fuel ih =>
    by_cases hleft : left = []
    · rw [hleft, List.append_nil] at hsent
      have hnone : c.step (.receive []) = none := if_neg fun hreceive => hreceive.2.1 rfl
      rw [hleft, Connection.receiveLoop, List.take_nil, hnone]
      exact ⟨hsent ▸ h, rfl⟩
    · obtain ⟨hne, c', hstep, hnext⟩ := h.receive hmax hbodies hsent hleft
      rw [Connection.receiveLoop, hstep]
      refine ih ?_ hnext ?_
      · have htaken := List.length_pos_iff.2 hne
        rw [List.length_take] at htaken
        rw [List.length_drop]
        omega
      · rw [List.append_assoc, List.take_append_drop, hsent]

/-- The lanes have no task and no turn, and the writer waits for a reply. -/
theorem AtRest.quiet (h : AtRest config c got) :
    c.visiting = none ∧ c.pool.turns = [] ∧ c.pool.queued = [] ∧ c.phase = .collecting ∧
      c.visitor.sent = [] ∧ c.round = 0 := by
  obtain ⟨chunks, answers, opened, collected, hbooks⟩ := h.books
  obtain ⟨hvisiting, hqueued⟩ := hbooks.attends.idle h.rests
  have hturns := turns_eq_nil (h.rests (.takeTurn 0) rfl)
  have hphase : c.phase = .collecting := by
    cases hphase : c.phase with
    | done result => exact absurd hphase ((hbooks.listening (.inl h.isOpen)).1 result)
    | sending => exact absurd hphase (hbooks.sends.rounds.not_sending h.rests)
    | collecting => rfl
  exact ⟨hvisiting, hturns, hqueued, hphase, nothing_collected hphase h.rests⟩

/-- What was sent to a connection at rest is answered, and the answers are on the stream. -/
theorem AtRest.answered (h : AtRest config c (wire bodies))
    (hbodies : ∀ b ∈ bodies, 1 ≤ b.length ∧ b.length ≤ config.frame.maxChunkLen) :
    ∃ answers, Serves config c (wire bodies) bodies answers [] (answers.map (·.2)) ∧
      (answers.map (·.1)).Perm (List.range bodies.length) ∧
      c.written = wire (answers.map fun a => a.2.encode) := by
  obtain ⟨chunks, answers, opened, collected, hbooks⟩ := h.books
  obtain ⟨-, rfl⟩ := hbooks.reads.checkEof hbodies
  obtain ⟨hvisiting, -, hqueued, hphase, hsent, hround⟩ := h.quiet
  obtain ⟨rfl, hlen⟩ := hbooks.attends.answered hvisiting hqueued
  have hreplies := hbooks.sends.replies
  rw [Connection.channel, hsent, List.reverse_nil, List.append_nil] at hreplies
  subst hreplies
  have hnumbers := hbooks.attends.accounts.numbers
  rw [hlen, List.map_nil, List.append_nil] at hnumbers
  refine ⟨answers, hbooks, hnumbers, ?_⟩
  have hunsent : c.writer.unsent = [] := by
    rw [Frame.Writer.unsent, hbooks.sends.resting hphase hround]
    rfl
  have hbytes : c.written ++ c.writer.unsent = wire ((answers.map (·.2)).map Reply.encode) :=
    hbooks.sends.balanced.bytes
  rwa [hunsent, List.append_nil, List.map_map] at hbytes

/-- The writer of a connection that is quiet finds that there is no more to come, and that is all. -/
theorem settle_of_flushed (hvisiting : c.visiting = none) (hturns : c.pool.turns = [])
    (hflushed : c.isFlushed = true) (hwork : 0 < c.workLeft) :
    c.settle = c.endWriting (.ok c.writer.chunksWritten) := by
  obtain ⟨hphase, hround, hsent, hnone⟩ := Connection.isFlushed_iff.1 hflushed
  have hnext : c.nextAct? = some .finish := by
    simp [Connection.nextAct?, hvisiting, hturns, hphase, hsent, hround, hnone]
  have hstep : c.step .finish = some (c.endWriting (.ok c.writer.chunksWritten)) := if_pos hflushed
  have hstuck : (c.endWriting (.ok c.writer.chunksWritten)).nextAct? = none := by
    simp [Connection.nextAct?, Connection.endWriting, hvisiting, hturns]
  obtain ⟨fuel, hfuel⟩ := Nat.exists_eq_add_one_of_ne_zero (Nat.ne_of_gt hwork)
  rw [Connection.settle, hfuel, Connection.settleLoop, hnext, Option.bind_some, hstep]
  cases fuel with
  | zero => rfl
  | succ fuel =>
    show Connection.settleLoop (fuel + 1) (c.endWriting (.ok c.writer.chunksWritten)) = _
    rw [Connection.settleLoop, hstuck]
    rfl

/-- The peer of a connection at rest hangs up. -/
theorem AtRest.after_hangUp (h : AtRest config c (wire bodies))
    (hbodies : ∀ b ∈ bodies, 1 ≤ b.length ∧ b.length ≤ config.frame.maxChunkLen) :
    c.after .hangUp = (c.endReading (.ok ())).endWriting (.ok bodies.length) := by
  obtain ⟨answers, hbooks, hnumbers, -⟩ := h.answered hbodies
  obtain ⟨hvisiting, hturns, hqueued, hphase, hsent, hround⟩ := h.quiet
  obtain ⟨hcheck, -⟩ := hbooks.reads.checkEof hbodies
  have hstep : c.step .hangUp = some (c.endReading (.ok ())) := by
    rw [Connection.step, if_pos h.isReading, hcheck]
    rfl
  have hnone : (c.endReading (.ok ())).noneReplies = true :=
    (noneReplies_iff _).2 ⟨rfl, hvisiting, hqueued⟩
  have hflushed : (c.endReading (.ok ())).isFlushed = true :=
    Connection.isFlushed_iff.2 ⟨hphase, hround, hsent, hnone⟩
  obtain ⟨hsends, hless⟩ := (hbooks.endReading h.isOpen).sends.finish hflushed
  have hcount := (hsends.done _ rfl).1
  have hlen := hnumbers.length_eq
  rw [List.length_map, List.length_range] at hlen
  rw [List.length_map, hlen] at hcount
  rw [Connection.after, hstep, Option.getD_some, ← hcount]
  exact settle_of_flushed hvisiting hturns hflushed (Nat.zero_lt_of_lt hless)

end

/-- **A peer that is served gets its replies.** It sends well-formed chunks, and all of them are received,
however small the room of the reader and the limit on pending replies; as soon as it is served, right answers
to all of them are on the stream, one for each chunk. Once it hangs up the connection is done, and nothing
else was written. -/
theorem serve_answers_all (config : Config) (hmax : 128 ≤ config.frame.maxChunkLen) (id : ConnectionId)
    (bodies : List Bytes)
    (hbodies : ∀ b ∈ bodies, 1 ≤ b.length ∧ b.length ≤ config.frame.maxChunkLen) :
    let served := (Connection.new config id).serve (wire bodies)
    let ended := served.1.after .hangUp
    served.2 = [] ∧
      (∃ answers, Correct bodies answers ∧ (answers.map (·.1)).Perm (List.range bodies.length) ∧
        served.1.written = wire (answers.map fun a => a.2.encode)) ∧
      ended.phase = .done (.ok bodies.length) ∧ ended.result? = some (.ok ()) ∧
      ended.written = served.1.written := by
  intro served ended
  have hnew : AtRest config (Connection.new config id).settle [] := by
    obtain ⟨hrests, hsame, hbooks⟩ := (serves_new config id).settle hmax (List.forall_mem_nil _)
    exact ⟨hsame, hrests, [], hbooks⟩
  obtain ⟨hserved, hall⟩ := hnew.receiveLoop hmax hbodies (Nat.le_refl _) (List.nil_append _)
  obtain ⟨answers, hbooks, hnumbers, hwritten⟩ := hserved.answered hbodies
  have hended : ended = (served.1.endReading (.ok ())).endWriting (.ok bodies.length) :=
    hserved.after_hangUp hbodies
  refine ⟨hall, ⟨answers, hbooks.attends.correct, hnumbers, hwritten⟩, ?_⟩
  rw [hended]
  exact ⟨rfl, rfl, rfl⟩

/-! ## Sessions -/

namespace Connection

theorem reaches_receiveLoop (fuel : Nat) (c : Connection) (wire : Bytes) :
    Reaches step c (receiveLoop fuel c wire).1 := by
  induction fuel generalizing c wire with
  | zero => exact .refl c
  | succ fuel ih =>
    cases hstep : c.step (.receive (wire.take c.reader.space)) with
    | none =>
      rw [receiveLoop, hstep]
      exact .refl c
    | some c' =>
      rw [receiveLoop, hstep]
      exact ((Reaches.of_step hstep).trans c'.reaches_settle).trans (ih c'.settle _)

theorem reaches_serve (c : Connection) (wire : Bytes) : Reaches step c (c.serve wire).1 :=
  c.reaches_settle.trans (reaches_receiveLoop _ _ _)

theorem reaches_after (c : Connection) (a : Act) : Reaches step c (c.after a) := by
  unfold after
  cases hstep : c.step a with
  | none => exact c.reaches_settle
  | some c' => exact (Reaches.of_step hstep).trans c'.reaches_settle

end Connection

namespace Service

/-- A service gets wherever one of its connections gets. -/
theorem reaches_of_connection {s : Service} {i : Nat} {c c' : Connection} (hc : s.connections[i]? = some c)
    (h : Reaches Connection.step c c') :
    Reaches step s { s with connections := s.connections.setIfInBounds i c' } := by
  obtain ⟨acts, hrun⟩ := h
  obtain ⟨hi, hget⟩ := Array.getElem?_eq_some_iff.1 hc
  induction acts generalizing s c with
  | nil =>
    cases hrun
    have hsame : s.connections.setIfInBounds i c' = s.connections := by
      rw [Array.setIfInBounds, dif_pos hi, ← hget, Array.set_getElem_self]
    rw [hsame]
    exact .refl s
  | cons a acts ih =>
    obtain ⟨next, hstep, hrest⟩ := Option.bind_eq_some_iff.1 hrun
    have hact : s.step (.connection i a) =
        some { s with connections := s.connections.setIfInBounds i next } := by
      rw [step, hc, Option.bind_some, hstep]
      rfl
    have hi' : i < (s.connections.setIfInBounds i next).size := by rwa [Array.size_setIfInBounds]
    have hget' := Array.getElem?_setIfInBounds_self_of_lt (a := next) hi
    have hlater := ih (s := { s with connections := s.connections.setIfInBounds i next }) hget' hrest hi'
      (Array.getElem?_eq_some_iff.1 hget').2
    rw [Array.setIfInBounds_setIfInBounds] at hlater
    exact (Reaches.of_step hact).trans hlater

/-- A service gets to where each of its connections gets, one after the other. -/
theorem reaches_of_map {f : Connection → Connection} (hf : ∀ c, Reaches Connection.step c (f c))
    (s : Service) : Reaches step s { s with connections := s.connections.map f } := by
  have hlist : ∀ (after before : List Connection) (s : Service),
      s.connections = (before ++ after).toArray →
        Reaches step s { s with connections := (before ++ after.map f).toArray } := by
    intro after
    induction after with
    | nil =>
      intro before s hs
      rw [List.map_nil, ← hs]
      exact .refl s
    | cons c after ih =>
      intro before s hs
      have hc : s.connections[before.length]? = some c := by simp [hs]
      have hset : s.connections.setIfInBounds before.length (f c) =
          ((before ++ [f c]) ++ after).toArray := by simp [hs]
      have hone := reaches_of_connection hc (hf c)
      rw [hset] at hone
      have hrest := ih (before ++ [f c]) { s with connections := ((before ++ [f c]) ++ after).toArray } rfl
      have heq : before ++ (c :: after).map f = (before ++ [f c]) ++ after.map f := by
        rw [List.map_cons, List.append_assoc, List.singleton_append]
      rw [heq]
      exact hone.trans hrest
  have hall := hlist s.connections.toList [] s rfl
  rwa [List.nil_append, ← Array.toList_map, Array.toArray_toList] at hall

end Service

namespace Session

/-- A peer is served: it is its connection that acts. -/
theorem reaches_exchange (s : Session) (i : Nat) : Reaches Service.step s.service (s.exchange i).service := by
  have hpeer : ∀ (p : Peer) (c : Connection), Reaches Connection.step c (p.exchange c).2 := by
    intro p c
    have hserve := c.reaches_serve p.post.underway
    unfold Peer.exchange
    simp only
    split
    · exact hserve.trans (Connection.reaches_after _ _)
    · exact hserve
  unfold exchange
  split
  · rename_i p c _ hc
    exact Service.reaches_of_connection hc (hpeer p c)
  · exact .refl _

theorem reaches_withClient (s : Session) (i : Nat) (f : Client → Client × Answer) :
    Reaches Service.step s.service (s.withClient i f).1.service := by
  unfold withClient
  split
  · exact .refl _
  · rename_i p _
    rcases f p.client with ⟨client, answer⟩
    exact reaches_exchange { s with peers := s.peers.setIfInBounds i { p with client := client } } i

theorem reaches_connect (s : Session) (limits : Option Frame.Limits) :
    Reaches Service.step s.service (s.connect limits).1.service := by
  cases hconnect : s.network.connect s.service.accepting with
  | error e =>
    simp only [connect, hconnect]
    exact .refl _
  | ok =>
    simp only [connect, hconnect]
    have haccepting : s.service.accepting = true := by
      unfold Network.connect at hconnect
      split at hconnect
      · cases hconnect
      · cases hconnect
      · assumption
    have hstep : s.service.step .accept = some s.service.accept := if_pos haccepting
    exact .of_step hstep

/-- The router is shut down. -/
theorem reaches_stop (s : Session) : Reaches Service.step s.service s.stop.service := by
  have hshut : Reaches Service.step s.service { s.service with accepting := false } :=
    Reaches.of_step (a := .shutDown) rfl
  exact hshut.trans (Service.reaches_of_map (fun c => c.reaches_after .shutDown) _)

theorem reaches_command (s : Session) (command : Command) :
    Reaches Service.step s.service (s.command command).1.service := by
  cases command with
  | connect limits => exact s.reaches_connect limits
  | send i _ | sendRaw i _ | finish i | drop i | receive i _ | receiveAll i =>
    simp only [Session.command, command.ok, Prod.map_fst, id_eq]
    exact s.reaches_withClient i _
  | stop => exact s.reaches_stop

theorem reaches_run (s : Session) (commands : List Command) :
    Reaches Service.step s.service (s.run commands).1.service := by
  induction commands generalizing s with
  | nil => exact .refl _
  | cons command commands ih =>
    have hfirst := s.reaches_command command
    unfold run
    rcases hcommand : s.command command with ⟨s', panic | answer⟩
    · rwa [hcommand] at hfirst
    · rw [hcommand] at hfirst
      exact hfirst.trans (ih s')

/-- **A session is a run of its service**, whatever its peers do and over whatever network. -/
theorem run_of_session (network : Network) (config : Config) (commands : List Command) :
    ∃ acts, (Service.new config).run acts =
      some ((Session.new network config).run commands).1.service :=
  reaches_run (.new network config) commands

/-- Requests are answered in order, and the stream is closed behind the last reply. -/
example :
    ((Session.new .loopback .standard).run
      [.connect none, .send 0 (.ping 7), .send 0 (.echo [104, 101, 108, 108, 111]), .send 0 (.ping 8),
        .receive 0 3, .finish 0, .receiveAll 0]).2 =
      .ok [.peer 0, .done, .done, .done,
        .received ⟨[.pong 7, .echo [104, 101, 108, 108, 111], .pong 8], [], .enough⟩, .done,
        .received ⟨[], [], .closed⟩] := by decide +kernel

/-- A batch is tallied, and a chunk that is no request is rejected; the connection goes on. -/
example :
    ((Session.new .loopback (Config.standard.withBatchLanes 3)).run
      [.connect none, .send 0 (.batch 11 [[1], [], [3], [4]]), .receive 0 1, .sendRaw 0 [0, 0, 0, 1, 9],
        .send 0 (.ping 1), .receive 0 2]).2 =
      .ok [.peer 0, .done, .received ⟨[], [.batchDone 11 3 1 (some "empty batch item")], .enough⟩, .done,
        .done, .received ⟨[.rejected
          "UnexpectedVariant \x7b type_name: \"Request\", allowed: Range \x7b min: 0, max: 2 \x7d, found: 9 \x7d",
          .pong 1], [], .enough⟩] := by decide +kernel

/-- An empty chunk is announced: this connection is closed, and others are not. -/
example :
    ((Session.new .loopback .standard).run
      [.connect none, .send 0 (.ping 3), .receive 0 1, .sendRaw 0 [0, 0, 0, 0], .receive 0 1,
        .connect none, .send 1 (.ping 4), .receive 1 1]).2 =
      .ok [.peer 0, .done, .received ⟨[.pong 3], [], .enough⟩, .done, .received ⟨[], [], .closed⟩,
        .peer 1, .done, .received ⟨[.pong 4], [], .enough⟩] := by decide +kernel

end Session

end ChunkRouter.Router
