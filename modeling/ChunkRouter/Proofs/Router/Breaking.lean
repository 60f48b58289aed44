import ChunkRouter.Proofs.ByteStream.ReadingOut
import ChunkRouter.Proofs.Router.Replies

/-!
# Broken streams

A bad length prefix, or an end inside a chunk, breaks a stream: the chunks that wait are given up, and
nothing more is read. What a drain task has taken out of the pipeline is still answered. Lanes and writer
see nothing of the break but that no chunk waits, so to them the connection is like one whose stream ended
well behind the chunks that were taken, and what is known of such a connection holds of it.
-/

namespace ChunkRouter

open ChunkRouter.ByteStream (Inlet RelayError)
open ChunkRouter.Frame.Grammar (Parse Tail parse wire)

/-! ## Pipelines in which nothing waits -/

namespace Pipeline

variable {α : Type} {p : Pipeline α}

/-- A drain task finds nothing to visit, whether it was cancelled or not. -/
theorem beginDrain_of_nil (h : p.queue.Lists []) :
    ∃ p', p.beginDrain = (p', none) ∧ p'.lane = p.lane ∧ p'.queue.Lists [] := by
  unfold beginDrain
  split
  · exact ⟨p, rfl, rfl, h⟩
  · have hempty : p.queue.isEmpty = true := h.isEmpty_eq
    rcases p.queue.take_cases with ⟨htake, -⟩ | ⟨ring, batch, -, -, -, hsome⟩
    · rw [htake]
      exact ⟨_, rfl, rfl, h⟩
    · exact absurd (hempty.symm.trans hsome) Bool.true_eq_false.mp

/-- A drain task that is done is not dispatched again. -/
theorem endDrain_of_nil (h : p.queue.Lists []) :
    ∃ p', p.endDrain = (p', false) ∧ p'.lane = p.lane ∧ p'.queue.Lists [] := by
  have hempty : p.queue.isEmpty = true := h.isEmpty_eq
  unfold endDrain
  rw [Work.Queue.settle_eq, hempty]
  exact ⟨_, rfl, rfl, h⟩

end Pipeline

namespace Router

open Connection (Act Spreading Task)
open Message (Reply)

/-! ## Breaks -/

/-- The stream of `c` broke with `e`. To lanes and writer, `c` is like `d`, whose stream ended well: no
chunk waits in either pipeline, so it does not show which of them is closed. -/
structure Broken (e : RelayError) (c d : Connection) : Prop where
  others : d = { c with
    reader := d.reader, readEnd := some (.ok ()), backlog := d.backlog, pipeline := d.pipeline }
  readEnd : c.readEnd = some (.error e)
  lane : d.pipeline.lane = c.pipeline.lane
  dropped : c.pipeline.queue.Lists []
  drained : d.pipeline.queue.Lists []

section

variable {e : RelayError} {c d c' : Connection} {a : Act} {more : List Act}

theorem Broken.exists_eq (h : Broken e c d) : ∃ reader backlog pipeline, d = { c with
    reader := reader, readEnd := some (.ok ()), backlog := backlog, pipeline := pipeline } :=
  ⟨_, _, _, h.others⟩

/-- A lane takes its turn; a drain task finds nothing in either pipeline. -/
theorem Broken.takeTurn (h : Broken e c d) (i : Nat) :
    Option.Rel (Broken e) (c.takeTurn i) (d.takeTurn i) := by
  obtain ⟨reader, backlog, pipeline, rfl⟩ := h.exists_eq
  unfold Connection.takeTurn
  dsimp only
  cases c.pool.beginTurn i with
  | none => exact .none
  | some turn =>
    obtain ⟨pool, lane, _ | task | _⟩ := turn
    · exact .some ⟨rfl, h.readEnd, h.lane, h.dropped, h.drained⟩
    · obtain ⟨p, hp, hplane, hdropped⟩ := Pipeline.beginDrain_of_nil h.dropped
      obtain ⟨q, hq, hqlane, hdrained⟩ := Pipeline.beginDrain_of_nil h.drained
      simp only [Option.map_some, hp, hq]
      exact .some ⟨rfl, h.readEnd, hqlane.trans (h.lane.trans hplane.symm), hdropped, hdrained⟩
    · exact .some ⟨rfl, h.readEnd, h.lane, h.dropped, h.drained⟩

theorem Broken.endDrain (h : Broken e c d) : Broken e c.endDrain d.endDrain := by
  obtain ⟨reader, backlog, pipeline, rfl⟩ := h.exists_eq
  obtain ⟨p, hp, hplane, hdropped⟩ := Pipeline.endDrain_of_nil h.dropped
  obtain ⟨q, hq, hqlane, hdrained⟩ := Pipeline.endDrain_of_nil h.drained
  rw [endDrain_eq hp hplane, endDrain_eq hq hqlane]
  refine ⟨?_, h.readEnd, hqlane.trans (h.lane.trans hplane.symm), hdropped, hdrained⟩
  dsimp only
  rw [h.lane]

/-- The drain task goes on, to the end of its batch and no further. -/
theorem Broken.visit (h : Broken e c d) : Option.Rel (Broken e) c.visit d.visit := by
  obtain ⟨reader, backlog, pipeline, rfl⟩ := h.exists_eq
  have hend := h.endDrain
  unfold Connection.visit
  dsimp only
  rcases hvisiting : c.visiting with _ | ⟨spreading, rest⟩
  · exact .none
  rw [Option.map_some, Option.map_some]
  refine .some ?_
  rcases spreading with _ | ⟨number, n, _ | ⟨item, items⟩⟩
  · rcases rest with _ | ⟨(⟨_ | _ | _⟩ | reason), rest⟩
    · rw [hvisiting] at hend
      exact hend
    all_goals exact ⟨rfl, h.readEnd, h.lane, h.dropped, h.drained⟩
  all_goals exact ⟨rfl, h.readEnd, h.lane, h.dropped, h.drained⟩

theorem Broken.collect (h : Broken e c d) : Option.Rel (Broken e) c.collect d.collect := by
  obtain ⟨reader, backlog, pipeline, rfl⟩ := h.exists_eq
  unfold Connection.collect
  dsimp only
  cases c.visitor.sent.getLast? with
  | none => exact .none
  | some r =>
    rw [Option.map_some, Option.map_some]
    rcases Connection.stageReply c.writer r with ⟨writer, e' | _⟩
    all_goals exact .some ⟨rfl, h.readEnd, h.lane, h.dropped, h.drained⟩

theorem Broken.send (h : Broken e c d) (n : Nat) : Option.Rel (Broken e) (c.send n) (d.send n) := by
  obtain ⟨reader, backlog, pipeline, rfl⟩ := h.exists_eq
  unfold Connection.send
  dsimp only
  cases c.writer.current? with
  | none => exact .none
  | some front =>
    rw [Option.bind_some, Option.bind_some]
    split
    · exact .some ⟨rfl, h.readEnd, h.lane, h.dropped, h.drained⟩
    · exact .none

theorem Broken.isFlushed_eq (h : Broken e c d) : d.isFlushed = c.isFlushed := by
  have hnone : d.noneReplies = c.noneReplies := by
    rw [h.others, Connection.noneReplies, Connection.noneReplies, h.readEnd]
    rfl
  rw [Connection.isFlushed, Connection.isFlushed, hnone, h.others]

/-- **Lanes and writer go on as if the stream had ended well.** -/
theorem Broken.step (h : Broken e c d) (ha : a.serves = true) :
    Option.Rel (Broken e) (c.step a) (d.step a) := by
  have hphase : d.phase = c.phase := by rw [h.others]
  have hsent : d.visitor.sent = c.visitor.sent := by rw [h.others]
  have hround : d.round = c.round := by rw [h.others]
  have hready : d.writer.ready = c.writer.ready := by rw [h.others]
  cases a with
  | receive bytes | hangUp | readFails e | shutDown | writeFails e => cases ha
  | takeTurn i => exact h.takeTurn i
  | visit => exact h.visit
  | collect =>
    have hcollect := h.collect
    simp only [Connection.step, hphase]
    cases c.phase with
    | collecting => exact hcollect
    | sending | done result => exact .none
  | send n =>
    have hsend := h.send n
    simp only [Connection.step, hphase]
    cases c.phase with
    | sending => exact hsend
    | collecting | done result => exact .none
  | beginSending =>
    simp only [Connection.step, hphase, hsent, hround]
    split
    · split
      · exact .some ⟨by rw [h.others], h.readEnd, h.lane, h.dropped, h.drained⟩
      · exact .none
    · exact .none
  | release =>
    simp only [Connection.step, hphase, hready, hround]
    split
    · exact .some ⟨by rw [h.others], h.readEnd, h.lane, h.dropped, h.drained⟩
    · exact .none
  | finish =>
    simp only [Connection.step, h.isFlushed_eq]
    split
    · exact .some ⟨by rw [h.others]; rfl, h.readEnd, h.lane, h.dropped, h.drained⟩
    · exact .none

theorem Broken.step_eq_none (h : Broken e c d) (ha : a.serves = true) (hrest : c.step a = none) :
    d.step a = none := by
  have hstep := h.step ha
  rw [hrest] at hstep
  generalize d.step a = next at hstep ⊢
  cases hstep
  rfl

theorem Broken.of_step (h : Broken e c d) (ha : a.serves = true) (hs : c.step a = some c') :
    ∃ d', d.step a = some d' ∧ Broken e c' d' := by
  have hstep := h.step ha
  rw [hs] at hstep
  generalize d.step a = next at hstep ⊢
  obtain ⟨hnext⟩ := hstep
  exact ⟨_, rfl, hnext⟩

theorem Broken.of_run (h : Broken e c d) (hserve : ∀ a ∈ more, a.serves = true)
    (hrun : c.run more = some c') : ∃ d', d.run more = some d' ∧ Broken e c' d' := by
  induction more generalizing c d with
  | nil =>
    cases hrun
    exact ⟨d, rfl, h⟩
  | cons a more ih =>
    obtain ⟨next, hstep, hrest⟩ := Option.bind_eq_some_iff.1 hrun
    obtain ⟨next', hstep', hnext⟩ := h.of_step (hserve a List.mem_cons_self) hstep
    obtain ⟨d', hrest', hend⟩ := ih hnext (fun b hb => hserve b (List.mem_cons_of_mem _ hb)) hrest
    exact ⟨d', Option.bind_eq_some_iff.2 ⟨next', hstep', hrest'⟩, hend⟩

theorem Broken.workLeft_eq (h : Broken e c d) : d.workLeft = c.workLeft := by
  have hdropped : c.pipeline.queue.pending = [] ∧ c.pipeline.queue.len = 0 :=
    ⟨h.dropped.pending_eq, h.dropped.len_eq⟩
  have hdrained : d.pipeline.queue.pending = [] ∧ d.pipeline.queue.len = 0 :=
    ⟨h.drained.pending_eq, h.drained.len_eq⟩
  unfold Connection.workLeft
  rw [hdropped.1, hdropped.2, hdrained.1, hdrained.2, h.others]
  rfl

end

/-! ## What is left of a connection -/

section

variable {config : Config} {c c' : Connection} {got : Bytes} {chunks : List Bytes}
  {answers : List (Nat × Reply)} {opened : List Opened} {collected : List Reply} {e : RelayError}
  {v : Visitor} {tasks : List Task} {spreading : Option Spreading} {handed waiting : List Inbound}

/-- The chunks that wait are given up; those that were taken make up a front of all. -/
theorem Accounts.cut
    (h : Accounts chunks answers opened v.batches tasks spreading (handed ++ waiting)) :
    let kept := chunks.take (answers.length + opened.length + handed.length)
    kept.length = answers.length + opened.length + handed.length ∧
      Accounts kept answers opened v.batches tasks spreading handed := by
  intro kept
  have hle := h.le
  have hwaiting := h.waiting
  have hcount := congrArg List.length hwaiting
  rw [List.length_map, List.length_drop, List.length_append] at hcount
  have hlen : kept.length = answers.length + opened.length + handed.length := by
    rw [List.length_take]
    omega
  have hget : ∀ {n chunk}, n < answers.length + opened.length → chunks[n]? = some chunk →
      kept[n]? = some chunk := fun hn hchunk => by
    rw [List.getElem?_take_of_lt (by omega)]
    exact hchunk
  refine ⟨hlen, by omega, ?_, h.numbers, fun a ha => ?_, h.inOrder, h.distinct, h.underway,
    fun o ho => ?_, h.task, h.spread⟩
  · rw [List.drop_take, List.map_take, hwaiting, Nat.add_sub_cancel_left, List.take_left']
    rfl
  · obtain ⟨chunk, hchunk, hright⟩ := h.right a ha
    exact ⟨chunk, hget (h.lt_of_mem ha) hchunk, hright⟩
  · obtain ⟨chunk, hchunk, hdecode⟩ := h.batch o ho
    have hnumber := h.numbers.mem_iff.1 (List.mem_append_right _ (List.mem_map_of_mem ho))
    exact ⟨chunk, hget (List.mem_range.1 hnumber) hchunk, hdecode⟩

/-- The chunks that wait are taken out of a pipeline. -/
theorem Tended.emptied {p : Pipeline Inbound} {pool : Lane.Pool Task} {visiting : Bool}
    (h : Tended p pool visiting) :
    p.queue.close.1.Lists [] ∧
      Tended { p with queue := { p.queue with ring := p.queue.close.1.ring } } pool visiting := by
  obtain ⟨-, hlists, -⟩ := h.listed.close fun hclosed => nomatch h.isOpen.symm.trans hclosed
  have hempty : Work.Queue.Lists { p.queue with ring := p.queue.close.1.ring } [] := hlists
  exact ⟨hlists, h.queue hempty h.isOpen h.started rfl visiting h.sane h.drains h.drainLane
    fun hne => absurd rfl hne⟩

/-- What `c` would be if nothing waited and its stream had ended well behind `kept`. -/
def Connection.endedBehind (c : Connection) (limits : Frame.Limits) (kept : List Bytes)
    (collected : List Reply) : Connection :=
  { c with
    reader := ((Frame.Reader.new limits).run (wire kept)).reader
    readEnd := some (.ok ())
    backlog := { c.backlog with pending := kept.length + c.round - collected.length }
    pipeline := { c.pipeline with
      queue := { c.pipeline.queue with ring := c.pipeline.queue.close.1.ring } } }

/-- The stream breaks. The chunks that a drain task has taken are kept, and what is known of a
connection whose stream ended behind them is known of this one. -/
theorem Serves.broken (h : Serves config c got chunks answers opened collected)
    (hchunks : ∀ b ∈ chunks, 1 ≤ b.length ∧ b.length ≤ config.frame.maxChunkLen)
    (hend : c.readEnd = none) (reader : Frame.Reader) (e : RelayError) :
    ∃ d kept, kept <+: chunks ∧ Broken e ({ c with reader := reader }.endReading (.error e)) d ∧
      Serves config d (wire kept) kept answers opened collected := by
  obtain ⟨hnot, hlistening⟩ := h.listening (.inl hend)
  obtain ⟨kept, hfront, hlen, haccounts⟩ : ∃ kept, kept <+: chunks ∧
      kept.length = answers.length + opened.length + c.handed.length ∧
      Accounts kept answers opened c.visitor.batches c.pool.queued c.spreading? c.handed :=
    ⟨_, List.take_prefix _ _, h.attends.accounts.cut⟩
  obtain ⟨hnone, hall, -⟩ := Frame.Reader.run_wire fun b hb => hchunks b (hfront.subset hb)
  obtain ⟨hlists, htended⟩ := h.attends.tended.emptied
  have hreads : (Frame.Reader.new config.frame).run (wire kept) =
      ⟨((Frame.Reader.new config.frame).run (wire kept)).reader, kept, none⟩ := by
    rcases hrun : (Frame.Reader.new config.frame).run (wire kept) with ⟨reader, chunks, error⟩
    rw [hrun] at hall hnone
    cases hall
    cases hnone
    rfl
  refine ⟨c.endedBehind config.frame kept collected, kept, hfront, ⟨rfl, rfl, rfl, hlists, hlists⟩,
    ⟨hreads, fun result hresult => (Option.some.inj hresult).symm⟩, ⟨htended, ?_⟩,
    ⟨h.sends.replies, h.sends.balanced, h.sends.staged, h.sends.limits, h.sends.resting,
      fun result hdone => absurd hdone (hnot result), fun _ => hlistening⟩, ?_, h.limit⟩
  · have hpending : (c.endedBehind config.frame kept collected).pipeline.queue.pending = [] :=
      Work.Queue.Lists.pending_eq hlists
    rw [hpending, List.append_nil]
    exact haccounts
  · -- No more was collected than answered, and what was answered is kept.
    have hreplies := congrArg List.length h.sends.replies
    rw [List.length_map, List.length_append] at hreplies
    show kept.length + c.round - collected.length + collected.length = kept.length + c.round
    omega

end

/-! ## Runs -/

/-- Whether the stream itself fails. -/
def Connection.Act.fails : Act → Bool
  | .readFails _ | .writeFails _ => true
  | _ => false

/-- How reading stands after `acts`, in which bytes arrived that end in `tail`. -/
inductive EndOfReading (tail : Tail) (acts : List Act) : Option (Except RelayError Unit) → Prop
  | yetToCome (hok : tail.error? = none) (hup : .hangUp ∉ acts) : EndOfReading tail acts none
  | shutDown (hok : tail.error? = none) (hup : .hangUp ∉ acts) (hdown : .shutDown ∈ acts) :
    EndOfReading tail acts (some (.ok ()))
  | reached (h : .hangUp ∈ acts ∨ tail.error? ≠ none) : EndOfReading tail acts (some tail.ending)

/-- What is known of a connection after `acts`: all of it, or as much as of one whose stream ended well. -/
inductive Known (config : Config) (c : Connection) (acts : List Act) : Prop
  | whole {chunks : List Bytes} {answers : List (Nat × Reply)} {opened : List Opened}
      {collected : List Reply}
      (h : Serves config c (Connection.received acts) chunks answers opened collected)
  | broken {e : RelayError} {d : Connection} {kept : List Bytes} {answers : List (Nat × Reply)}
      {opened : List Opened} {collected : List Reply}
      (hfront : kept <+: (parse config.frame.maxChunkLen (Connection.received acts)).bodies)
      (hbroken : Broken e c d) (h : Serves config d (wire kept) kept answers opened collected)

/-- A connection after `acts`. -/
structure Stands (config : Config) (c : Connection) (acts : List Act) : Prop where
  known : Known config c acts
  reading : EndOfReading (parse config.frame.maxChunkLen (Connection.received acts)).tail acts c.readEnd

section

variable {config : Config} {c c' : Connection} {got : Bytes} {chunks : List Bytes} {tail : Tail}
  {acts : List Act} {a : Act} {readEnd : Option (Except RelayError Unit)}

theorem received_concat (acts : List Act) (a : Act) :
    Connection.received (acts ++ [a]) = Connection.received acts ++ a.received := by
  simp [Connection.received]

theorem hangUp_not_mem_concat (h : .hangUp ∉ acts) (hne : a ≠ .hangUp) : .hangUp ∉ acts ++ [a] := by
  intro hmem
  rcases List.mem_append.1 hmem with hmem | hmem
  · exact h hmem
  · exact hne (List.mem_singleton.1 hmem).symm

/-- Lanes and writer leave reading alone. -/
theorem EndOfReading.serve (h : EndOfReading tail acts readEnd) (ha : a.serves = true) :
    EndOfReading tail (acts ++ [a]) readEnd := by
  have hne : a ≠ .hangUp := fun heq => nomatch heq ▸ ha
  cases h with
  | yetToCome hok hup => exact .yetToCome hok (hangUp_not_mem_concat hup hne)
  | shutDown hok hup hdown =>
    exact .shutDown hok (hangUp_not_mem_concat hup hne) (List.mem_append_left _ hdown)
  | reached h => exact .reached (h.imp_left (List.mem_append_left _))

theorem readEnd_endReading (c : Connection) (result : Except RelayError Unit) :
    (c.endReading result).readEnd = some result := by
  cases result <;> rfl

/-- Reading ends, well or not. -/
theorem Serves.ended {answers : List (Nat × Reply)} {opened : List Opened} {collected : List Reply}
    (h : Serves config c (Connection.received acts) chunks answers opened collected)
    (hend : c.readEnd = none) (result : Except RelayError Unit) :
    Known config (c.endReading result) acts := by
  obtain ⟨hparsed, -⟩ := h.reads.parsed
  cases result with
  | ok => exact .whole (h.endReading hend)
  | error e =>
    obtain ⟨d, kept, hfront, hbroken, hd⟩ := h.broken
      (fun b hb => Frame.Grammar.admissible_of_mem_bodies (hparsed ▸ hb)) hend c.reader e
    exact .broken (hparsed ▸ hfront) hbroken hd

theorem stands_new (config : Config) (id : ConnectionId) : Stands config (.new config id) [] where
  known := .whole (serves_new config id)
  reading := .yetToCome (by rw [Connection.received, List.flatMap_nil, parse]; rfl) List.not_mem_nil

/-- While reading goes on everything is known. -/
theorem Stands.serves (h : Stands config c acts) (hend : c.readEnd = none) :
    .hangUp ∉ acts ∧ ∃ chunks answers opened collected,
      Serves config c (Connection.received acts) chunks answers opened collected := by
  obtain ⟨hknown, hreading⟩ := h
  rw [hend] at hreading
  cases hreading with
  | yetToCome hok hup =>
    cases hknown with
    | whole h => exact ⟨hup, _, _, _, _, h⟩
    | broken hfront hbroken h => exact nomatch hend.symm.trans hbroken.readEnd

/-- An act of lanes or writer. -/
theorem Stands.serve (h : Stands config c acts) (hmax : 128 ≤ config.frame.maxChunkLen)
    (ha : a.serves = true) (hs : c.step a = some c') : Stands config c' (acts ++ [a]) := by
  have hreceived : Connection.received (acts ++ [a]) = Connection.received acts := by
    rw [received_concat, received_of_serves ha, List.append_nil]
  suffices hnext : Known config c' (acts ++ [a]) ∧ c'.readEnd = c.readEnd by
    refine ⟨hnext.1, ?_⟩
    rw [hreceived, hnext.2]
    exact h.reading.serve ha
  cases h.known with
  | whole h =>
    have hfits := h.fits hmax fun chunk hchunk =>
      (Frame.Grammar.admissible_of_mem_bodies (h.reads.parsed.1 ▸ hchunk)).2
    obtain ⟨answers', opened', collected', hnext, hsame, -⟩ := h.serve hfits ha hs
    exact ⟨.whole (hreceived.symm ▸ hnext), hsame⟩
  | broken hfront hbroken h =>
    have hfits := h.fits hmax fun chunk hchunk =>
      (Frame.Grammar.admissible_of_mem_bodies (hfront.subset hchunk)).2
    obtain ⟨d', hs', hbroken'⟩ := hbroken.of_step ha hs
    obtain ⟨answers', opened', collected', hnext, -⟩ := h.serve hfits ha hs'
    exact ⟨.broken (hreceived.symm ▸ hfront) hbroken' hnext,
      hbroken'.readEnd.trans hbroken.readEnd.symm⟩

/-- Bytes arrive, and break the stream perhaps. -/
theorem Stands.receive (h : Stands config c acts) {bytes : Bytes}
    (hs : c.step (.receive bytes) = some c') : Stands config c' (acts ++ [.receive bytes]) := by
  obtain ⟨hreading, hne, hle, rfl⟩ := Connection.of_step_receive hs
  have hend := (Connection.isReading_iff.1 hreading).1
  obtain ⟨hup, chunks, answers, opened, collected, h⟩ := h.serves hend
  have hreceived : Connection.received (acts ++ [.receive bytes]) = Connection.received acts ++ bytes :=
    received_concat acts _
  cases herror : ((Frame.Reader.new config.frame).run (Connection.received acts ++ bytes)).error? with
  | none =>
    obtain ⟨hend', chunks', hnext⟩ := h.receive herror hend hne hle
    rw [← hreceived] at hnext
    refine ⟨.whole hnext, ?_⟩
    rw [hend']
    exact .yetToCome hnext.reads.parsed.2.1 (hangUp_not_mem_concat hup nofun)
  | some e =>
    obtain ⟨reader, ⟨hreads, -⟩ | ⟨chunk, hreads, -⟩ | ⟨e', hrun, heq⟩⟩ := h.reads.receive hne hle
    · rw [hreads.run] at herror
      cases herror
    · rw [hreads.run] at herror
      cases herror
    · have hagrees := Frame.Reader.run_agrees config.frame.maxChunkLen
        (Connection.received acts ++ bytes) _ (Frame.Reader.holds_new config.frame) rfl
      rw [hrun, ← hreceived] at hagrees
      have hbodies : chunks = _ := hagrees.chunks
      have htail : some e' = _ := hagrees.error
      obtain ⟨d, kept, hfront, hbroken, hd⟩ := h.broken
        (fun b hb => Frame.Grammar.admissible_of_mem_bodies (hbodies ▸ hb)) hend reader (.framing e')
      rw [heq]
      refine ⟨.broken (hbodies ▸ hfront) hbroken hd, ?_⟩
      rw [readEnd_endReading, ← Frame.Grammar.Tail.ending_of_error htail.symm]
      exact .reached (.inr (htail ▸ Option.some_ne_none e'))

/-- The peer hangs up, inside a chunk perhaps. -/
theorem Stands.hangUp (h : Stands config c acts) (hs : c.step .hangUp = some c') :
    Stands config c' (acts ++ [.hangUp]) := by
  obtain ⟨hreading, rfl⟩ := Connection.of_step_hangUp hs
  have hend := (Connection.isReading_iff.1 hreading).1
  obtain ⟨-, chunks, answers, opened, collected, h⟩ := h.serves hend
  have hreceived : Connection.received (acts ++ [.hangUp]) = Connection.received acts :=
    (received_concat acts _).trans (List.append_nil _)
  obtain ⟨-, hok, hholds⟩ := h.reads.parsed
  rw [hholds.checkEof hok]
  refine ⟨(hreceived.symm ▸ h).ended hend _, ?_⟩
  rw [readEnd_endReading, hreceived]
  exact .reached (.inl (List.mem_append_right _ (List.mem_singleton_self _)))

/-- The router is shut down. -/
theorem Stands.shutDown (h : Stands config c acts) (hs : c.step .shutDown = some c') :
    Stands config c' (acts ++ [.shutDown]) := by
  obtain ⟨hend, rfl⟩ := Connection.of_step_shutDown hs
  obtain ⟨hup, chunks, answers, opened, collected, h⟩ := h.serves hend
  have hreceived : Connection.received (acts ++ [.shutDown]) = Connection.received acts :=
    (received_concat acts _).trans (List.append_nil _)
  refine ⟨(hreceived.symm ▸ h).ended hend _, ?_⟩
  rw [readEnd_endReading, hreceived]
  exact .shutDown h.reads.parsed.2.1 (hangUp_not_mem_concat hup nofun)
    (List.mem_append_right _ (List.mem_singleton_self _))

theorem Stands.step (h : Stands config c acts) (hmax : 128 ≤ config.frame.maxChunkLen)
    (hsound : a.fails = false) (hs : c.step a = some c') : Stands config c' (acts ++ [a]) := by
  cases a with
  | receive bytes => exact h.receive hs
  | hangUp => exact h.hangUp hs
  | shutDown => exact h.shutDown hs
  | readFails e | writeFails e => cases hsound
  | takeTurn i | visit | collect | beginSending | send n | release | finish =>
    exact h.serve hmax rfl hs

/-- Every run on a stream that does not fail by itself is accounted for. -/
theorem stands_run (config : Config) (hmax : 128 ≤ config.frame.maxChunkLen) (id : ConnectionId)
    (hsound : ∀ a ∈ acts, a.fails = false) (hrun : (Connection.new config id).run acts = some c) :
    Stands config c acts := by
  induction acts using List.reverseRecOn generalizing c with
  | nil =>
    cases hrun
    exact stands_new config id
  | append_singleton acts a ih =>
    rw [Connection.run, List.foldlM_append] at hrun
    obtain ⟨before, hbefore, hs⟩ := Option.bind_eq_some_iff.1 hrun
    have hlast : before.step a = some c := by simpa using hs
    exact (ih (fun b hb => hsound b (List.mem_append_left _ hb)) hbefore).step hmax
      (hsound a (List.mem_append_right _ (List.mem_singleton_self a))) hlast

/-- A connection whose stream broke is done when there is nothing to do for lanes and writer. -/
theorem Broken.at_rest {e : RelayError} {d : Connection} {kept : List Bytes}
    {answers : List (Nat × Reply)} {opened : List Opened} {collected : List Reply}
    (h : Broken e c d) (hd : Serves config d (wire kept) kept answers opened collected)
    (hrest : ∀ a, a.serves = true → c.step a = none) : c.result? = some (.error e) := by
  have hended : d.readEnd = some (.ok ()) := by rw [h.others]
  have hphase : d.phase = c.phase := by rw [h.others]
  rcases hd.done_or_reading fun a ha => h.step_eq_none ha (hrest a ha) with ⟨result, hdone⟩ | hreading
  · rw [Connection.result?, h.readEnd, ← hphase, hdone]
  · exact nomatch hended.symm.trans (Connection.isReading_iff.1 hreading).1

/-- A connection whose stream broke says so when all replies are sent, and not before. -/
theorem Broken.written_of_result {e : RelayError} {d : Connection} {kept : List Bytes}
    {answers : List (Nat × Reply)} {opened : List Opened} {collected : List Reply}
    (h : Broken e c d) (hd : Serves config d (wire kept) kept answers opened collected)
    {result : Except RelayError Unit} (hresult : c.result? = some result) :
    result = .error e ∧ c.written = wire (answers.map fun a => a.2.encode) ∧
      (answers.map (·.1)).Perm (List.range kept.length) := by
  have hphase : d.phase = c.phase := by rw [h.others]
  have hwritten : d.written = c.written := by rw [h.others]; rfl
  rw [Connection.result?, h.readEnd, ← hphase] at hresult
  cases hdone : d.phase with
  | collecting | sending =>
    rw [hdone] at hresult
    cases hresult
  | done writing =>
    rw [hdone] at hresult
    obtain ⟨-, -, hall, hnumbers⟩ := hd.written_of_done hdone
    exact ⟨(Option.some.inj hresult).symm, hwritten ▸ hall, hnumbers⟩

end

/-- **A broken stream answers a prefix.** Whatever is done in a service, and in whatever order, with a
peer that takes what it is sent: reading ends because the router is shut down, the peer hangs up or a
length prefix is bad, and never because of what a chunk holds. If the bytes that arrived end in a bad
prefix, or the peer hung up inside a chunk, there is a front of the completed chunks such that what is
written from then on is a front of right answers to these. Lanes and writer act `workLeft` times at most
and then the connection ends with the error of the stream; when it does, all those answers are written,
one for each chunk of the front. -/
theorem broken_stream_answers_a_prefix (config : Config) (hmax : 128 ≤ config.frame.maxChunkLen)
    {acts : List Service.Act} {s : Service} (hrun : (Service.new config).run acts = some s) {i : Nat}
    {c : Connection} (hc : s.connections[i]? = some c)
    (hsound : ∀ a ∈ Service.actsOf i acts, a.fails = false) :
    let own := Service.actsOf i acts
    let p := parse config.frame.maxChunkLen (Connection.received own)
    (c.readEnd = none ∨ (.shutDown ∈ own ∧ c.readEnd = some (.ok ())) ∨
      ((.hangUp ∈ own ∨ p.tail.error? ≠ none) ∧ c.readEnd = some p.tail.ending)) ∧
    ∀ e, (.hangUp ∈ own ∨ p.tail.error? ≠ none) → p.tail.ending = .error e →
      c.readEnd = some (.error e) ∧
      ∃ kept, kept <+: p.bodies ∧
        ∀ more c', (∀ a ∈ more, a.serves = true) → c.run more = some c' →
          more.length ≤ c.workLeft ∧
          (∃ answers, Correct kept answers ∧ c'.written <+: wire (answers.map fun a => a.2.encode) ∧
            ∀ result, c'.result? = some result → result = .error e ∧
              c'.written = wire (answers.map fun a => a.2.encode) ∧
              (answers.map (·.1)).Perm (List.range kept.length)) ∧
          ((∀ a, a.serves = true → c'.step a = none) → c'.result? = some (.error e)) := by
  intro own p
  obtain ⟨id, hown⟩ := (Service.follows_run hrun).runs i c hc
  obtain ⟨hknown, hreading⟩ := stands_run config hmax id hsound hown
  refine ⟨?_, fun e hbreak hending => ?_⟩
  · generalize c.readEnd = readEnd at hreading
    cases hreading with
    | yetToCome hok hup => exact .inl rfl
    | shutDown hok hup hdown => exact .inr (.inl ⟨hdown, rfl⟩)
    | reached h => exact .inr (.inr ⟨h, rfl⟩)
  have hend : c.readEnd = some (.error e) := by
    rw [← hending]
    generalize c.readEnd = readEnd at hreading
    cases hreading with
    | yetToCome hok hup => exact (hbreak.elim hup fun hbad => hbad hok).elim
    | shutDown hok hup hdown => exact (hbreak.elim hup fun hbad => hbad hok).elim
    | reached h => rfl
  refine ⟨hend, ?_⟩
  cases hknown with
  | whole h => exact nomatch h.reads.ended _ hend
  | broken hfront hbroken h =>
    rename_i e' d kept answers opened collected
    cases Except.error.inj (Option.some.inj (hbroken.readEnd.symm.trans hend))
    refine ⟨kept, hfront, fun more c' hserve hmore => ?_⟩
    obtain ⟨d', hmore', hbroken'⟩ := hbroken.of_run hserve hmore
    obtain ⟨hle, -, answers', opened', collected', h'⟩ := h.length_le hmax
      (fun chunk hchunk => (Frame.Grammar.admissible_of_mem_bodies (hfront.subset hchunk)).2) hserve
      hmore'
    rw [hbroken.workLeft_eq] at hle
    have hwritten : d'.written = c'.written := by rw [hbroken'.others]; rfl
    exact ⟨by omega, ⟨answers', h'.attends.correct, hwritten ▸ h'.written,
      fun result hresult => hbroken'.written_of_result h' hresult⟩, hbroken'.at_rest h'⟩

/-- The stream breaks behind two chunks. The first, a batch, is with the drain task and is answered; the
second still waits and is given up. -/
theorem broken_stream_answers_a_prefix_of_two :
    let acts : List Act := [.receive [0, 0, 0, 6], .receive [2, 7, 2, 1, 65, 0], .takeTurn 0,
      .receive [0, 0, 0, 2], .receive [0, 5], .receive [0, 0, 0, 0], .visit, .visit, .visit, .visit,
      .visit, .takeTurn 0, .takeTurn 0, .collect, .beginSending, .send 26, .release, .finish]
    ∃ s c, (Service.new .standard).run (.accept :: acts.map (.connection 0)) = some s ∧
      s.connections[0]? = some c ∧ c.result? = some (.error (.framing .empty)) ∧
      c.written.length = 26 ∧
      ∃ kept answers, kept <+: [[2, 7, 2, 1, 65, 0], [0, 5]] ∧ Correct kept answers ∧
        c.written = wire (answers.map fun a => a.2.encode) ∧
        (answers.map (·.1)).Perm (List.range kept.length) := by
  intro acts
  have hends : (((Service.new .standard).run (.accept :: acts.map (.connection 0))).bind fun s =>
      s.connections[0]?.bind fun c => if c.written.length = 26 then c.result? else none).isSome = true := by
    decide +kernel
  obtain ⟨r, hr⟩ := Option.isSome_iff_exists.1 hends
  obtain ⟨s, hrun, hr⟩ := Option.bind_eq_some_iff.1 hr
  obtain ⟨c, hc, hr⟩ := Option.bind_eq_some_iff.1 hr
  obtain ⟨hlength, hresult⟩ := Option.ite_none_right_eq_some.1 hr
  have hacts : Service.actsOf 0 (.accept :: acts.map (.connection 0)) = acts := by rfl
  have hparse : parse Config.standard.frame.maxChunkLen (Connection.received acts) =
      ⟨[[2, 7, 2, 1, 65, 0], [0, 5]], .bad .empty []⟩ := by
    have hreceived : Connection.received acts = Frame.Grammar.frame [2, 7, 2, 1, 65, 0] ++
        (Frame.Grammar.frame [0, 5] ++ [0, 0, 0, 0]) := by decide
    rw [hreceived, Frame.Grammar.parse_frame_append _ (by decide) (by decide) (by decide),
      Frame.Grammar.parse_frame_append _ (by decide) (by decide) (by decide), parse]
    rfl
  obtain ⟨-, hbroken⟩ :=
    broken_stream_answers_a_prefix .standard (by decide) hrun hc (by rw [hacts]; decide)
  rw [hacts, hparse] at hbroken
  obtain ⟨-, kept, hfront, hwritten⟩ := hbroken (.framing .empty) (.inr (by decide)) rfl
  obtain ⟨-, ⟨answers, hcorrect, -, hall⟩, -⟩ := hwritten [] c (fun _ h => absurd h List.not_mem_nil) rfl
  obtain ⟨rfl, hwire, hnumbers⟩ := hall r hresult
  exact ⟨s, c, hrun, hc, hresult, hlength, kept, answers, hfront, hcorrect, hwire, hnumbers⟩

end Router

end ChunkRouter
