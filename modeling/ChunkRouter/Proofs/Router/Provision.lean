import ChunkRouter.Proofs.Router.Credit
import ChunkRouter.Proofs.Router.Outgoing
import ChunkRouter.Proofs.Work.Capacity

/-!
# Memory for connections and clients

A connection and a client write, enqueue and open a queue without asking for memory. This is where they have
it: a writer opens blocks of the size of a fragment and no others, and the credit of a connection bounds the
chunks that wait in its queue, so that the slots of its queue are no more than what the limit on pending
replies takes. `connection_has_memory` and `client_has_memory` conclude that to ask for memory at every turn
would make no difference, as long as these few buffers are no larger than a buffer may be.
-/

namespace ChunkRouter.Router

open Connection (Act)
open Message (Reply Request)

namespace Connection

variable {c c' : Connection} {a : Act}

/-- A chunk goes into the ring, or nothing more gets into it. -/
def Feeds (c c' : Connection) : Prop :=
  (∃ x, c'.pipeline.queue.ring = c.pipeline.queue.ring.push x) ∨
    c'.pipeline.queue.ring.Within c.pipeline.queue.ring

theorem feeds_of_ring (h : c'.pipeline.queue.ring = c.pipeline.queue.ring) : c.Feeds c' :=
  .inr (h ▸ c'.pipeline.queue.ring.within_refl)

theorem feeds_endReading {result : Except ByteStream.RelayError Unit}
    (hopen : (c.endReading result).pipeline.queue.closed = false) : c.Feeds (c.endReading result) := by
  cases result with
  | ok u => exact feeds_of_ring rfl
  | error e =>
    have hclosed : c.pipeline.queue.close.1.closed = true := by rw [Work.Queue.close_eq]
    exact Bool.noConfusion (hclosed.symm.trans hopen)

theorem feeds_accept (c : Connection) (x : Inbound) (hopen : c.pipeline.queue.closed = false) :
    c.Feeds (c.accept x) := by
  have hring : (c.accept x).pipeline.queue.ring = c.pipeline.queue.ring.push x := by
    unfold accept Pipeline.enqueue
    rw [Work.Queue.enqueue_of_open hopen]
    dsimp only
    split <;> rfl
  exact .inl ⟨x, hring⟩

theorem feeds_takeTurn {i : Nat} (ht : c.takeTurn i = some c') : c.Feeds c' := by
  obtain ⟨⟨pool, lane, task⟩, -, rfl⟩ := Option.map_eq_some_iff.1 ht
  cases task with
  | none => exact feeds_of_ring rfl
  | some task =>
    cases task with
    | item task => exact feeds_of_ring rfl
    | drain =>
      have hbegin : c.pipeline.beginDrain.1.queue.ring.Within c.pipeline.queue.ring := by
        unfold Pipeline.beginDrain
        split
        · exact c.pipeline.queue.ring.within_refl
        · exact c.pipeline.queue.within_take
      refine .inr ?_
      dsimp only
      generalize c.pipeline.beginDrain = result at hbegin ⊢
      obtain ⟨p', _ | batch⟩ := result <;> exact hbegin

theorem feeds_visit (hv : c.visit = some c') : c.Feeds c' := by
  obtain ⟨v, -, rfl⟩ := Option.map_eq_some_iff.1 hv
  split
  · have hend : c.pipeline.endDrain.1.queue.ring = c.pipeline.queue.ring := by
      unfold Pipeline.endDrain
      rw [Work.Queue.settle_eq]
    refine feeds_of_ring ?_
    unfold endDrain
    generalize c.pipeline.endDrain = result at hend ⊢
    obtain ⟨p', _ | _⟩ := result <;> exact hend
  all_goals exact feeds_of_ring rfl

theorem feeds_step (hs : c.step a = some c') (hopen : c'.pipeline.queue.closed = false) : c.Feeds c' := by
  cases a with
  | receive bytes =>
    obtain ⟨-, -, -, rfl⟩ := of_step_receive hs
    obtain ⟨reader, ⟨e, heq, -⟩ | ⟨heq, -⟩ | ⟨chunk, heq, -⟩⟩ := c.receive_cases bytes
    · rw [heq] at hopen ⊢
      exact feeds_endReading (c := { c with reader := reader }) hopen
    · rw [heq]
      exact feeds_of_ring rfl
    · obtain ⟨pipeline, pool, haccept, hclosed⟩ := accept_eq { c with reader := reader } (.ofChunk chunk)
      rw [heq] at hopen ⊢
      refine feeds_accept { c with reader := reader } (.ofChunk chunk) ?_
      rw [haccept] at hopen
      exact hclosed.symm.trans hopen
  | hangUp =>
    obtain ⟨-, rfl⟩ := of_step_hangUp hs
    exact feeds_endReading hopen
  | readFails e =>
    obtain ⟨-, rfl⟩ := of_step_readFails hs
    exact feeds_endReading hopen
  | shutDown =>
    obtain ⟨-, rfl⟩ := of_step_shutDown hs
    exact feeds_endReading hopen
  | takeTurn i => exact feeds_takeTurn hs
  | visit => exact feeds_visit hs
  | collect =>
    obtain ⟨-, hcollect⟩ := of_step_collect hs
    obtain ⟨r, -, rfl⟩ := Option.map_eq_some_iff.1 hcollect
    dsimp only
    split <;> exact feeds_of_ring rfl
  | beginSending =>
    obtain ⟨-, -, rfl⟩ := of_step_beginSending hs
    exact feeds_of_ring rfl
  | send n =>
    obtain ⟨-, hsend⟩ := of_step_send hs
    obtain ⟨front, -, htaken⟩ := Option.bind_eq_some_iff.1 hsend
    simp only [Option.ite_none_right_eq_some, Option.some.injEq] at htaken
    rw [← htaken.2]
    exact feeds_of_ring rfl
  | release =>
    obtain ⟨-, -, rfl⟩ := of_step_release hs
    exact feeds_of_ring rfl
  | writeFails e =>
    obtain ⟨-, rfl⟩ := of_step_writeFails hs
    exact feeds_of_ring rfl
  | finish =>
    obtain ⟨-, rfl⟩ := of_step_finish hs
    exact feeds_of_ring rfl

end Connection

/-! ## Connections -/

/-- The queue has the slots that so many chunks take as may wait in it at most. -/
def Supplied (config : Config) (c : Connection) : Prop :=
  ∃ peak ≤ max config.maxPendingReplies 1, c.pipeline.queue.Sized config.queue peak

section

variable {config : Config} {c c' : Connection} {gone : Nat} {chunks bodies : List Bytes}
  {answers : List (Nat × Reply)} {opened : List Opened}

/-- Every chunk that waits is owed a reply. -/
theorem Credits.len_le (h : Credits config c gone chunks answers opened bodies) :
    c.pipeline.queue.len ≤ max config.maxPendingReplies 1 := by
  have howing := h.owing
  have hbounded := h.bounded
  rw [h.limit] at hbounded
  rw [h.attends.tended.listed.len_eq]
  unfold Connection.owing at howing
  omega

theorem Supplied.step (h : Supplied config c) {a : Act} (hs : c.step a = some c')
    (hopen : c'.pipeline.queue.closed = false) (hlen : c'.pipeline.queue.len ≤ max config.maxPendingReplies 1) :
    Supplied config c' := by
  obtain ⟨peak, hpeak, hsized⟩ := h
  refine ⟨max peak c'.pipeline.queue.len, Nat.max_le.2 ⟨hpeak, hlen⟩, ?_⟩
  obtain ⟨x, hpush⟩ | hwithin := Connection.feeds_step hs hopen
  · exact hsized.push hpush
  · exact hsized.within hwithin

theorem Supplied.run (h : Supplied config c) (hcredits : Credits config c gone chunks answers opened bodies)
    {acts : List Act} (hrun : c.run acts = some c') (hlive : c'.Live) : Supplied config c' := by
  induction acts generalizing c gone chunks answers opened bodies with
  | nil =>
    cases hrun
    exact h
  | cons a acts ih =>
    obtain ⟨next, hstep, hrest⟩ := Option.bind_eq_some_iff.1 hrun
    have hnext : next.Live := hlive.of_run hrest
    obtain ⟨chunks', answers', opened', bodies', hcredits'⟩ := hcredits.step hstep hnext
    exact ih (h.step hstep hnext.isOpen hcredits'.len_le) hcredits' hrest

end

/-- **A connection has its memory.** Take any run of a connection whose writer is not done and whose pipeline
is open, where a fragment is no larger than a buffer may be, and neither are the slots that the limit on
pending replies takes and another bucket of them. There was memory for the slots that its queue starts with;
there is memory for one more chunk in the queue; and there is memory to stage any reply. -/
theorem connection_has_memory (slot : Nat) (hslot : 0 < slot) (config : Config) (id : ConnectionId)
    (hframe : config.frame.fragmentSize ≤ Memory.bufferLimit)
    (hslots : slot * (config.queue.slotsFor (max config.maxPendingReplies 1) + config.queue.bucketSize) ≤
      Memory.bufferLimit)
    {acts : List Act} {c : Connection} (hrun : (Connection.new config id).run acts = some c)
    (hlive : c.Live) :
    Work.Queue.tryNew slot config.queue true = .ok (Connection.new config id).pipeline.queue ∧
      c.pipeline.queue.reserveSlot slot = .ok () ∧
      ∀ r : Reply, c.writer.tryWrite r.encode = .ok (c.writer.write r.encode) := by
  obtain ⟨chunks, answers, opened, bodies, hcredits⟩ := (credits_new config id).run hrun hlive
  have hnew : Supplied config (.new config id) :=
    ⟨0, Nat.zero_le _, Work.Queue.sized_new config.queue true⟩
  obtain ⟨peak, hpeak, hsized⟩ := hnew.run (credits_new config id) hrun hlive
  have hmono : config.queue.slotsFor peak ≤ config.queue.slotsFor (max config.maxPendingReplies 1) :=
    Nat.add_le_add_left (Nat.mul_le_mul_left _ (Work.Settings.bucketsFor_mono hpeak)) _
  refine ⟨?_, ?_, fun r => Frame.Writer.tryWrite_eq (hcredits.rounds.limits ▸ hframe) r.encode⟩
  · have hinitial : config.queue.initialCapacity ≤
        config.queue.slotsFor (max config.maxPendingReplies 1) + config.queue.bucketSize :=
      Nat.le_add_right_of_le (Nat.le_add_right _ _)
    have hmemory := Memory.reserve_mono hinitial (Memory.reserve_eq_ok_iff.2 hslots)
    rw [Work.Queue.tryNew, hmemory]
    rfl
  · have hsize : c.pipeline.queue.capacity + c.pipeline.queue.ring.bucket ≤
        config.queue.slotsFor (max config.maxPendingReplies 1) + config.queue.bucketSize := by
      rw [hsized.capacity_eq, hsized.bucket_eq]
      exact Nat.add_le_add_right hmono _
    have hfits := Nat.le_trans (Nat.mul_le_mul_left slot hsize) hslots
    unfold Work.Queue.reserveSlot
    split
    · rfl
    · refine Memory.extend_eq_ok_iff.2 ⟨?_, hfits⟩
      exact Nat.le_trans (Memory.le_of_mul_le hslot hfits) (by decide)

/-- A router of the standard configuration has it with slots of any size up to a tebibyte. -/
example :
    0xffffffffff * (Config.standard.queue.slotsFor (max Config.standard.maxPendingReplies 1) +
      Config.standard.queue.bucketSize) ≤ Memory.bufferLimit ∧
      Config.standard.frame.fragmentSize ≤ Memory.bufferLimit := by
  decide

/-! ## Clients -/

namespace Client

variable {c : Client}

theorem sound_flush (h : c.writer.Sound) :
    c.flush.1.writer.Sound ∧ c.flush.1.writer.limits = c.writer.limits := by
  obtain ⟨asked, hflush⟩ := ByteStream.Outlet.flushLoop_flushes (o := ⟨c.stream, c.writer⟩) h 0
  exact ⟨hflush.sound, hflush.limits⟩

theorem sound_send (h : c.writer.Sound) (request : Request) :
    (c.send request).1.writer.Sound ∧ (c.send request).1.writer.limits = c.writer.limits := by
  obtain ⟨hwritten, hlimits, -⟩ := h.call (.write request.encode)
  unfold Client.send
  simp only [Frame.Writer.call] at hwritten hlimits
  generalize c.writer.write request.encode = written at hwritten hlimits ⊢
  obtain ⟨w, e | u⟩ := written
  · exact ⟨hwritten, hlimits⟩
  obtain ⟨hcompleted, hlimits', -⟩ := hwritten.call .complete
  simp only [Frame.Writer.call] at hcompleted hlimits'
  dsimp only
  generalize w.complete = completed at hcompleted hlimits' ⊢
  obtain ⟨w', e | n⟩ := completed
  · exact ⟨hcompleted, hlimits'.trans hlimits⟩
  · obtain ⟨hsound, hlimits''⟩ := sound_flush (c := { c with writer := w' }) hcompleted
    exact ⟨hsound, hlimits''.trans (hlimits'.trans hlimits)⟩

/-- The limits of a writer are for ever. -/
theorem sound_act (h : c.writer.Sound) (a : Act) :
    (c.act a).writer.Sound ∧ (c.act a).writer.limits = c.writer.limits := by
  cases a with
  | send request => exact sound_send h request
  | sendRaw bytes =>
    have hsame : (c.sendRaw bytes).1.writer = c.writer := by
      unfold Client.sendRaw
      split
      · rfl
      · split
        rfl
    show (c.sendRaw bytes).1.writer.Sound ∧ (c.sendRaw bytes).1.writer.limits = _
    rw [hsame]
    exact ⟨h, rfl⟩
  | finish => exact ⟨h, rfl⟩
  | receive =>
    show c.receive.1.writer.Sound ∧ c.receive.1.writer.limits = _
    rw [c.silent_receive.writer]
    exact ⟨h, rfl⟩

theorem sound_after (h : c.writer.Sound) (acts : List Act) :
    (c.after acts).writer.Sound ∧ (c.after acts).writer.limits = c.writer.limits := by
  induction acts generalizing c with
  | nil => exact ⟨h, rfl⟩
  | cons a acts ih =>
    obtain ⟨hsound, hlimits⟩ := sound_act h a
    obtain ⟨hsound', hlimits'⟩ := ih hsound
    exact ⟨hsound', hlimits'.trans hlimits⟩

/-- **A client has its memory**, if a fragment is no larger than a buffer may be: whatever was done with it,
there is memory to send any request. -/
theorem client_has_memory (limits : Frame.Limits) (stream : ByteStream.Script)
    (hframe : limits.fragmentSize ≤ Memory.bufferLimit) (acts : List Act) (request : Request) :
    let c := (new stream limits).after acts
    c.trySend request = .ok (c.send request) := by
  intro c
  have hlimits : c.writer.limits = limits :=
    (sound_after (c := new stream limits) (Frame.Writer.sound_new limits) acts).2
  rw [trySend, Frame.Writer.reserve_eq_ok (hlimits ▸ hframe)]
  rfl

end Client

end ChunkRouter.Router
