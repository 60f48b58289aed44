import ChunkRouter.Proofs.Router.Replies

/-!
# Replies that are owed

Where the completed chunks of a connection are until their replies are released: they wait, or are
batches under way, or their replies are in the channel or in the round that is being sent. An act of the
lanes moves chunks on from one such place to the next. A pipeline that was closed and a writer that is done
stay so, whatever the act.
-/

namespace ChunkRouter.Pipeline

/-! ## Pipelines that stay open -/

variable {α : Type}

theorem closed_beginDrain (p : Pipeline α) : p.beginDrain.1.queue.closed = p.queue.closed := by
  unfold beginDrain
  split
  · rfl
  · rcases Work.Queue.take_cases p.queue with ⟨htake, -⟩ | ⟨ring, batch, htake, -⟩ <;> rw [htake]

theorem closed_endDrain (p : Pipeline α) : p.endDrain.1.queue.closed = p.queue.closed := by
  unfold endDrain
  rw [Work.Queue.settle_eq]

theorem closed_enqueue (p : Pipeline α) (x : α) :
    (p.enqueue x).1.queue.closed = p.queue.closed := by
  unfold enqueue
  cases hopen : p.queue.closed
  · rw [Work.Queue.enqueue_of_open hopen]
    exact hopen
  · rw [Work.Queue.enqueue_of_closed hopen]
    exact hopen

end ChunkRouter.Pipeline

namespace ChunkRouter.Router

open ChunkRouter.ByteStream (RelayError)
open Connection (Act)
open Join (Outcome Tally)
open Message (Reply)

/-! ## What a visitor owes -/

/-- The replies a visitor is to give for batches, and those it gave that nobody took. -/
def Visitor.owed (v : Visitor) : Nat := armed v.batches + v.sent.length

section

variable {v : Visitor} {n : Nat} {b : Batch} {join : Join Tally String}
  {fired : Option (Outcome Tally String)}

theorem owed_reply (h : v.listening = true) (r : Reply) : (v.reply r).owed = v.owed + 1 := by
  have hsent : v.reply r = { v with sent := r :: v.sent } := if_pos h
  rw [hsent]
  rfl

theorem owed_openBatch (v : Visitor) (id : UInt64) : (v.openBatch id).1.owed = v.owed + 1 := by
  show armed (v.openBatch id).1.batches + v.sent.length = armed v.batches + v.sent.length + 1
  rw [armed_openBatch]
  omega

theorem owed_registerItem (v : Visitor) (n : Nat) : (v.registerItem n).owed = v.owed :=
  congrArg (· + v.sent.length) (armed_registerItem v n)

/-- A batch that fires is replied for. -/
theorem owed_settleBatch (h : v.listening = true) (hb : v.batches[n]? = some b) (id : UInt64)
    (harmed : b.join.armed.toNat = join.armed.toNat + fired.toList.length) :
    (v.settleBatch n id join fired).owed = v.owed := by
  have hcount := armed_set hb ⟨id, join⟩
  simp only [Join.hasFired, Bool.not_not] at hcount
  cases fired with
  | none =>
    rw [harmed] at hcount
    exact congrArg (· + v.sent.length) (Nat.add_right_cancel hcount)
  | some o =>
    -- The batch is owed for no longer, but its reply is.
    have hone : (some o).toList.length = 1 := rfl
    refine (owed_reply (v := { v with batches := v.batches.setIfInBounds n ⟨id, join⟩ }) h _).trans ?_
    show armed (v.batches.setIfInBounds n ⟨id, join⟩) + v.sent.length + 1 = armed v.batches + _
    omega

/-- An item of a batch is handled. -/
theorem owed_runItem (h : v.listening = true) (task : ItemTask) : (v.runItem task).owed = v.owed := by
  unfold Visitor.runItem
  split
  · rfl
  · rename_i b hb
    split
    · rfl
    · rename_i join fired hcomplete
      exact owed_settleBatch h hb b.id
        (Join.armed_call Join.tally (.complete (Visitor.handleItem task.item)) hcomplete)

/-- The gate of a batch is opened. -/
theorem owed_openGate (h : v.listening = true) (n : Nat) : (v.openGate n).owed = v.owed := by
  unfold Visitor.openGate
  split
  · rfl
  · rename_i b hb
    exact owed_settleBatch h hb b.id (Join.armed_call Join.tally .unblock rfl)

end

/-! ## What a connection owes -/

namespace Connection

/-- Completed chunks whose replies are not released: those that wait or are to be visited, batches whose
joins have not fired, replies in the channel, and replies of the round that the writer is at. -/
def owing (c : Connection) : Nat :=
  c.pipeline.queue.pending.length + c.handed.length + armed c.visitor.batches + c.channel.length + c.round

end Connection

section

variable {c c' : Connection} {chunks : List Bytes} {answers : List (Nat × Reply)}
  {opened : List Opened}

theorem owing_eq (c : Connection) :
    c.owing = c.pipeline.queue.pending.length + c.handed.length + c.visitor.owed + c.round := by
  rw [Connection.owing, Connection.channel, List.length_reverse, Visitor.owed]
  omega

/-- A chunk is completed. -/
theorem Attends.owing_accept (h : Attends c chunks answers opened) (x : Inbound) :
    (c.accept x).owing = c.owing + 1 := by
  obtain ⟨p', henqueue, -, hpending, -⟩ := h.tended.accept x
  have hlength := congrArg List.length hpending
  rw [List.length_append, List.length_singleton] at hlength
  have haccept : (c.accept x).owing =
      p'.queue.pending.length + c.handed.length + c.visitor.owed + c.round := by
    rw [owing_eq]
    unfold Connection.accept
    rw [henqueue]
    cases c.pipeline.queue.processing <;> rfl
  rw [haccept, owing_eq]
  omega

/-- What a lane does in its turn moves units on, and neither makes nor loses one. -/
theorem Attends.owing_takeTurn (h : Attends c chunks answers opened)
    (hlistening : c.visitor.listening = true) {i : Nat} (ht : c.takeTurn i = some c') :
    c'.owing = c.owing := by
  obtain ⟨result, hb, hc'⟩ := Option.map_eq_some_iff.1 ht
  obtain ⟨pool, lane, task, rfl, -⟩ := h.tended.sane.beginTurn hb
  rw [owing_eq, owing_eq]
  cases task with
  | item task =>
    have hrun : { c with visitor := c.visitor.runItem task, pool := pool.endTurn lane } = c' := hc'
    subst hrun
    show _ + _ + (c.visitor.runItem task).owed + _ = _
    rw [owed_runItem hlistening]
    rfl
  | drain =>
    obtain ⟨hnone, ⟨p', hbegin, -, hpending, -⟩ | ⟨p', batch, hbegin, -, hpending, -⟩⟩ :=
      h.tended.beginDrain hb
    · simp only [hbegin] at hc'
      subst hc'
      show p'.queue.pending.length + _ + _ + _ = _
      rw [hpending]
      rfl
    · simp only [hbegin] at hc'
      subst hc'
      have hvisiting : c.visiting = none :=
        Option.isNone_iff_eq_none.1 (Option.isSome_eq_false_iff.1 hnone)
      have hhanded : c.handed = [] := by rw [Connection.handed, hvisiting]; rfl
      -- The batch goes from the queue into the hands of the drain task.
      show p'.queue.pending.length + batch.length + c.visitor.owed + c.round = _
      rw [hpending, hhanded, List.length_append, List.length_nil]
      omega

/-- So does what the drain task does. -/
theorem Attends.owing_visit (h : Attends c chunks answers opened)
    (hlistening : c.visitor.listening = true) (hv : c.visit = some c') : c'.owing = c.owing := by
  obtain ⟨⟨spreading, rest⟩, hvisiting, hc'⟩ := Option.map_eq_some_iff.1 hv
  have hhanded : c.handed = rest := by rw [Connection.handed, hvisiting]; rfl
  rw [owing_eq, owing_eq, hhanded]
  subst hc'
  cases spreading with
  | none =>
    cases rest with
    | nil =>
      obtain ⟨htended, -⟩ := h.of_visiting hvisiting
      obtain ⟨p', again, hend, hlane, hpending, -⟩ := htended.endDrain
      rw [endDrain_eq hend hlane, ← hpending]
      rfl
    | cons x rest =>
      -- The chunk is off the batch, and its unit with the visitor.
      have hmoves : ∀ v : Visitor, v.owed = c.visitor.owed + 1 →
          c.pipeline.queue.pending.length + rest.length + v.owed + c.round =
            c.pipeline.queue.pending.length + (x :: rest).length + c.visitor.owed + c.round := by
        intro v hv
        rw [hv, List.length_cons]
        omega
      cases x with
      | request request =>
        cases request with
        | batch id items => exact hmoves _ (owed_openBatch c.visitor id)
        | ping nonce | echo body => exact hmoves _ (owed_reply hlistening _)
      | malformed reason => exact hmoves _ (owed_reply hlistening _)
  | some s =>
    obtain ⟨number, n, items⟩ := s
    cases items with
    | nil =>
      show _ + rest.length + (c.visitor.openGate number).owed + _ = _
      rw [owed_openGate hlistening]
    | cons item items =>
      show _ + rest.length + (c.visitor.registerItem number).owed + _ = _
      rw [owed_registerItem]

end

/-! ## What acts leave alone -/

namespace Connection

variable {c c' : Connection} {a : Act}

/-- Lanes leave reader, writer and credits alone, and close nothing. -/
structure Lanes (c c' : Connection) : Prop where
  others : c' = { c with
    pipeline := c'.pipeline, visitor := c'.visitor, pool := c'.pool, visiting := c'.visiting }
  closed : c'.pipeline.queue.closed = c.pipeline.queue.closed

theorem lanes_takeTurn {i : Nat} (ht : c.takeTurn i = some c') : Lanes c c' := by
  obtain ⟨⟨pool, lane, task⟩, -, rfl⟩ := Option.map_eq_some_iff.1 ht
  cases task with
  | none => exact ⟨rfl, rfl⟩
  | some task =>
    cases task with
    | item task => exact ⟨rfl, rfl⟩
    | drain =>
      have hclosed := c.pipeline.closed_beginDrain
      dsimp only
      generalize c.pipeline.beginDrain = result at hclosed ⊢
      obtain ⟨p', _ | batch⟩ := result <;> exact ⟨rfl, hclosed⟩

theorem lanes_visit (hv : c.visit = some c') : Lanes c c' := by
  obtain ⟨v, -, rfl⟩ := Option.map_eq_some_iff.1 hv
  split
  · have hclosed := c.pipeline.closed_endDrain
    unfold endDrain
    generalize c.pipeline.endDrain = result at hclosed ⊢
    obtain ⟨p', _ | _⟩ := result <;> exact ⟨rfl, hclosed⟩
  all_goals exact ⟨rfl, rfl⟩

theorem accept_eq (c : Connection) (x : Inbound) :
    ∃ pipeline pool, c.accept x =
        { c with backlog := c.backlog.add, pipeline := pipeline, pool := pool } ∧
      pipeline.queue.closed = c.pipeline.queue.closed := by
  have hclosed := c.pipeline.closed_enqueue x
  unfold accept
  generalize c.pipeline.enqueue x = result at hclosed ⊢
  obtain ⟨p', admission⟩ := result
  dsimp only
  split <;> exact ⟨_, _, rfl, hclosed⟩

/-- What no act undoes, and how many chunks one completes. -/
structure Leads (c c' : Connection) : Prop where
  closed : c.pipeline.queue.closed = true → c'.pipeline.queue.closed = true
  done : ∀ result, c.phase = .done result → c'.phase = .done result
  chunksRead : c'.reader.chunksRead = c.reader.chunksRead ∨
    c'.reader.chunksRead = c.reader.chunksRead + 1 ∧ c.isReading = true

theorem leads_endReading (c : Connection) (result : Except RelayError Unit) :
    Leads c (c.endReading result) := by
  cases result with
  | ok u => exact ⟨id, fun _ => id, .inl rfl⟩
  | error e =>
    refine ⟨fun _ => ?_, fun _ => id, .inl rfl⟩
    show c.pipeline.queue.close.1.closed = true
    rw [Work.Queue.close_eq]

theorem Lanes.leads (h : Lanes c c') : Leads c c' where
  closed := h.closed.trans
  done := by
    rw [h.others]
    exact fun _ => id
  chunksRead := by
    rw [h.others]
    exact .inl rfl

theorem leads_step (hs : c.step a = some c') : Leads c c' := by
  cases a with
  | receive bytes =>
    obtain ⟨hreading, -, -, rfl⟩ := of_step_receive hs
    obtain ⟨reader, ⟨e, heq, hcount⟩ | ⟨heq, hcount⟩ | ⟨chunk, heq, hcount⟩⟩ := c.receive_cases bytes
    · have hleads := leads_endReading { c with reader := reader } (.error e)
      rw [heq]
      exact ⟨hleads.closed, hleads.done, .inl hcount⟩
    · rw [heq]
      exact ⟨id, fun _ => id, .inl hcount⟩
    · obtain ⟨pipeline, pool, haccept, hclosed⟩ := accept_eq { c with reader := reader } (.ofChunk chunk)
      rw [heq, haccept]
      exact ⟨hclosed.trans, fun _ => id, .inr ⟨hcount, hreading⟩⟩
  | hangUp =>
    obtain ⟨-, rfl⟩ := of_step_hangUp hs
    exact leads_endReading c _
  | readFails e =>
    obtain ⟨-, rfl⟩ := of_step_readFails hs
    exact leads_endReading c _
  | shutDown =>
    obtain ⟨-, rfl⟩ := of_step_shutDown hs
    exact leads_endReading c _
  | takeTurn i => exact (lanes_takeTurn hs).leads
  | visit => exact (lanes_visit hs).leads
  | collect =>
    obtain ⟨hphase, hcollect⟩ := of_step_collect hs
    obtain ⟨r, -, rfl⟩ := Option.map_eq_some_iff.1 hcollect
    dsimp only
    split <;> exact ⟨id, fun _ hdone => (nomatch hphase.symm.trans hdone), .inl rfl⟩
  | beginSending =>
    obtain ⟨hphase, -, rfl⟩ := of_step_beginSending hs
    exact ⟨id, fun _ hdone => (nomatch hphase.symm.trans hdone), .inl rfl⟩
  | send n =>
    obtain ⟨-, hsend⟩ := of_step_send hs
    obtain ⟨front, -, htaken⟩ := Option.bind_eq_some_iff.1 hsend
    simp only [Option.ite_none_right_eq_some, Option.some.injEq] at htaken
    rw [← htaken.2]
    exact ⟨id, fun _ => id, .inl rfl⟩
  | release =>
    obtain ⟨hphase, -, rfl⟩ := of_step_release hs
    exact ⟨id, fun _ hdone => (nomatch hphase.symm.trans hdone), .inl rfl⟩
  | writeFails e =>
    obtain ⟨hbusy, rfl⟩ := of_step_writeFails hs
    refine ⟨id, fun _ hdone => ?_, .inl rfl⟩
    simp [isSending, isFlushed, hdone] at hbusy
  | finish =>
    obtain ⟨hflushed, rfl⟩ := of_step_finish hs
    refine ⟨id, fun _ hdone => ?_, .inl rfl⟩
    simp [isFlushed, hdone] at hflushed

/-- The writer is not done, and the pipeline takes chunks. -/
structure Live (c : Connection) : Prop where
  isOpen : c.pipeline.queue.closed = false
  writing : ∀ result, c.phase ≠ .done result

/-- A connection whose writer is at work and whose pipeline is open has always been so. -/
theorem Live.of_step (h : c'.Live) (hs : c.step a = some c') : c.Live where
  isOpen := Bool.of_not_eq_true fun hclosed =>
    Bool.noConfusion (h.isOpen.symm.trans ((leads_step hs).closed hclosed))
  writing := fun result hdone => h.writing result ((leads_step hs).done result hdone)

theorem Live.of_run {acts : List Act} (h : c'.Live) (hrun : c.run acts = some c') : c.Live := by
  induction acts generalizing c with
  | nil =>
    cases hrun
    exact h
  | cons a acts ih =>
    obtain ⟨next, hstep, hrest⟩ := Option.bind_eq_some_iff.1 hrun
    exact (ih hrest).of_step hstep

end Connection

end ChunkRouter.Router
