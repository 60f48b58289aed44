import Mathlib.Data.List.Induction
import ChunkRouter.Proofs.Router.Conversing
import ChunkRouter.Router.Service

/-!
# One reply per chunk

In a service, connections act in any order, and so do the parts of each. A connection still goes its own
way, so what the books say of one with a fair peer holds in every service: the stream gets the right
replies, one to each chunk, and the writer is done with nothing left out. Lanes and writer come to
rest, and then either all is sent or the peer's turn has come.
-/

namespace ChunkRouter.Router

open Connection (Act)
open ChunkRouter.Frame.Grammar (parse wire)
open Message (Reply)

/-! ## Rest -/

section

variable {config : Config} {c c' : Connection} {got : Bytes} {chunks : List Bytes}
  {answers : List (Nat × Reply)} {opened : List Opened} {collected : List Reply}

/-- Lanes with nothing to do have answered every chunk. -/
theorem Attends.answered (h : Attends c chunks answers opened) (hvisiting : c.visiting = none)
    (hqueued : c.pool.queued = []) : opened = [] ∧ answers.length = chunks.length := by
  have hhanded : c.handed = [] := by rw [Connection.handed, hvisiting]; rfl
  have hspreading : c.spreading? = none := by rw [Connection.spreading?, hvisiting]; rfl
  have haccounts := h.accounts
  have hdrains := h.tended.drains
  rw [hhanded, hspreading, hqueued] at haccounts
  rw [hvisiting, hqueued] at hdrains
  have hopened : opened = [] := by
    refine List.eq_nil_iff_forall_not_mem.2 fun o ho => ?_
    rcases (haccounts.underway o ho).busy with hne | hshut
    · exact hne rfl
    · exact Bool.false_ne_true hshut
  have hpending : c.pipeline.queue.pending = [] := by
    by_cases hnil : c.pipeline.queue.pending = []
    · exact hnil
    · rw [h.tended.attended hnil] at hdrains
      cases hdrains
  have hwaiting := congrArg List.length haccounts.waiting
  have hle := haccounts.le
  subst hopened
  rw [hpending, List.length_map, List.length_drop] at hwaiting
  simp only [List.append_nil, List.length_nil, Nat.add_zero] at hwaiting hle
  exact ⟨rfl, by omega⟩

/-- Where no lane can take its turn, none has one. -/
theorem turns_eq_nil (h : c.takeTurn 0 = none) : c.pool.turns = [] := by
  have hnone : c.pool.turns[0]? = none := Option.map_eq_none_iff.1 (Option.map_eq_none_iff.1 h)
  exact List.eq_nil_of_length_eq_zero (Nat.le_zero.1 (List.getElem?_eq_none_iff.1 hnone))

/-- Lanes that cannot act have nothing to do. -/
theorem Attends.idle (h : Attends c chunks answers opened)
    (hrest : ∀ a, a.serves = true → c.step a = none) : c.visiting = none ∧ c.pool.queued = [] := by
  have hvisiting : c.visiting = none := by
    have hvisit : c.visit = none := hrest .visit rfl
    exact Option.map_eq_none_iff.1 hvisit
  refine ⟨hvisiting, List.eq_nil_iff_forall_not_mem.2 fun task htask => ?_⟩
  obtain ⟨t, ht, -⟩ := h.tended.sane.mem_of_queued htask
  rw [hvisiting] at ht
  rw [turns_eq_nil (hrest (.takeTurn 0) rfl)] at ht
  cases ht

/-- A writer that cannot act is not in the middle of a round: it would send, or release. -/
theorem Rounds.not_sending {limits : Frame.Limits} {bodies : List Bytes}
    (h : Rounds c limits bodies) (hrest : ∀ a, a.serves = true → c.step a = none) :
    c.phase ≠ .sending := by
  intro hphase
  cases hready : c.writer.ready with
  | nil =>
    have hrelease := hrest .release rfl
    simp only [Connection.step, hphase, hready] at hrelease
    cases hrelease
  | cons front ready =>
    have hsend := hrest (.send front.unsent.length) rfl
    have hne := h.balanced.sound.unsent_ne_nil front (by
      show front ∈ c.writer.ready
      rw [hready]
      exact List.mem_cons_self)
    have hpos : 0 < front.unsent.length := List.length_pos_iff.2 hne
    have hcurrent : c.writer.current? = some front.unsent := by
      rw [Frame.Writer.current?, hready]
      rfl
    simp only [Connection.step, hphase, Connection.send, hcurrent, Option.bind_some] at hsend
    rw [if_pos ⟨hpos, Nat.le_refl _⟩] at hsend
    cases hsend

/-- A writer that waits for replies and cannot act has found none. -/
theorem nothing_collected (hphase : c.phase = .collecting)
    (hrest : ∀ a, a.serves = true → c.step a = none) : c.visitor.sent = [] ∧ c.round = 0 := by
  have hsent : c.visitor.sent = [] := by
    have hcollect := hrest .collect rfl
    simp only [Connection.step, hphase] at hcollect
    exact List.getLast?_eq_none_iff.1 (Option.map_eq_none_iff.1 hcollect)
  refine ⟨hsent, ?_⟩
  have hbegin := hrest .beginSending rfl
  simp only [Connection.step, hphase, hsent] at hbegin
  split at hbegin
  · cases hbegin
  · omega

/-- Where every reply was sent there is room for another chunk. -/
theorem Serves.hasRoom (h : Serves config c got chunks answers opened collected)
    (hanswered : answers.length = chunks.length) (hsent : c.visitor.sent = []) (hround : c.round = 0) :
    c.backlog.hasRoom = true := by
  have howed := h.owed
  have hlimit := h.limit
  have hreplies := congrArg List.length h.sends.replies
  rw [Connection.channel, hsent, List.length_map, List.length_append] at hreplies
  simp only [List.reverse_nil, List.length_nil] at hreplies
  have hpending : c.backlog.pending < c.backlog.limit := by omega
  rw [Backlog.hasRoom, decide_eq_true hpending, Bool.or_true]

/-- **A connection whose lanes and writer have nothing to do is done, or waits for its peer.** -/
theorem Serves.done_or_reading (h : Serves config c got chunks answers opened collected)
    (hrest : ∀ a, a.serves = true → c.step a = none) :
    (∃ result, c.phase = .done result) ∨ c.isReading = true := by
  obtain ⟨hvisiting, hqueued⟩ := h.attends.idle hrest
  obtain ⟨-, hanswered⟩ := h.attends.answered hvisiting hqueued
  cases hphase : c.phase with
  | done result => exact .inl ⟨result, rfl⟩
  | sending => exact absurd hphase (h.sends.rounds.not_sending hrest)
  | collecting =>
    obtain ⟨hsent, hround⟩ := nothing_collected hphase hrest
    have hopen : c.readEnd.isNone = true := by
      have hfinish := hrest .finish rfl
      simp only [Connection.step] at hfinish
      split at hfinish
      · cases hfinish
      · rename_i hflushed
        refine Bool.of_not_eq_false fun hended => hflushed ?_
        have hsome : c.readEnd.isSome = true := by rw [← Option.not_isNone, hended]; rfl
        have hnone := (noneReplies_iff c).2 ⟨hsome, hvisiting, hqueued⟩
        exact Connection.isFlushed_iff.2 ⟨hphase, hround, hsent, hnone⟩
    refine .inr ?_
    rw [Connection.isReading, hopen, h.hasRoom hanswered hsent hround]
    rfl

/-- Lanes and writer come to rest: they act at most as often as there is work left. -/
theorem Serves.length_le (h : Serves config c got chunks answers opened collected)
    (hmax : 128 ≤ config.frame.maxChunkLen)
    (hchunks : ∀ chunk ∈ chunks, chunk.length ≤ config.frame.maxChunkLen) {more : List Act}
    (hserve : ∀ a ∈ more, a.serves = true) (hrun : c.run more = some c') :
    more.length + c'.workLeft ≤ c.workLeft ∧ c'.readEnd = c.readEnd ∧
      ∃ answers' opened' collected', Serves config c' got chunks answers' opened' collected' := by
  refine length_le_of_advances (P := fun c =>
    ∃ answers opened collected, Serves config c got chunks answers opened collected)
    (fun c a c' hc ha hstep => ?_) ⟨answers, opened, collected, h⟩ hserve hrun
  obtain ⟨answers, opened, collected, hc⟩ := hc
  obtain ⟨answers', opened', collected', hnext, hadvances⟩ := hc.serve (hc.fits hmax hchunks) ha hstep
  exact ⟨⟨answers', opened', collected', hnext⟩, hadvances⟩

end

/-! ## Services -/

/-- What the `i`th connection of a service does. -/
def Service.actsOf (i : Nat) (acts : List Service.Act) : List Connection.Act :=
  acts.filterMap fun
    | .connection j a => if j = i then some a else none
    | _ => none

/-- A service after `acts`: each of its connections went its own way, whatever the others did. -/
structure Service.Follows (config : Config) (acts : List Service.Act) (s : Service) : Prop where
  configured : s.config = config
  early : ∀ i, s.connections.size ≤ i → actsOf i acts = []
  runs : ∀ i c, s.connections[i]? = some c →
    ∃ id, (Connection.new config id).run (actsOf i acts) = some c

namespace Service

variable {config : Config} {acts : List Service.Act} {s s' : Service} {i j : Nat}

theorem actsOf_concat (i : Nat) (acts : List Service.Act) (a : Service.Act) :
    actsOf i (acts ++ [a]) = actsOf i acts ++ actsOf i [a] := List.filterMap_append

theorem actsOf_connection_self (i : Nat) (a : Connection.Act) : actsOf i [.connection i a] = [a] := by
  simp [actsOf]

theorem actsOf_connection_of_ne (hne : j ≠ i) (a : Connection.Act) :
    actsOf i [.connection j a] = [] := by
  simp [actsOf, hne]

theorem follows_new (config : Config) : Follows config [] (.new config) where
  configured := rfl
  early := fun _ _ => rfl
  runs := fun _ _ hc => nomatch hc

/-- A peer is connected. -/
theorem Follows.accept (h : Follows config acts s) : Follows config (acts ++ [.accept]) s.accept where
  configured := h.configured
  early := by
    intro i hi
    have hsize : s.accept.connections.size = s.connections.size + 1 := Array.size_push _
    rw [actsOf_concat, h.early i (by omega)]
    rfl
  runs := by
    intro i c hc
    have hacts : actsOf i (acts ++ [.accept]) = actsOf i acts :=
      (actsOf_concat i acts .accept).trans (List.append_nil _)
    rw [hacts]
    change (s.connections.push _)[i]? = some c at hc
    rw [Array.getElem?_push] at hc
    split at hc
    · rename_i hi
      cases hc
      rw [h.early i (Nat.le_of_eq hi.symm), ← h.configured]
      exact ⟨s.nextId, rfl⟩
    · exact h.runs i c hc

/-- A connection acts. -/
theorem Follows.connection (h : Follows config acts s) {a : Connection.Act} {c c' : Connection}
    (hc : s.connections[j]? = some c) (hstep : c.step a = some c') :
    Follows config (acts ++ [.connection j a])
      { s with connections := s.connections.setIfInBounds j c' } where
  configured := h.configured
  early := by
    intro i hi
    have hj := (Array.getElem?_eq_some_iff.1 hc).1
    change (s.connections.setIfInBounds j c').size ≤ i at hi
    rw [Array.size_setIfInBounds] at hi
    rw [actsOf_concat, h.early i hi, actsOf_connection_of_ne (by omega)]
    rfl
  runs := by
    intro i d hd
    have hj := (Array.getElem?_eq_some_iff.1 hc).1
    change (s.connections.setIfInBounds j c')[i]? = some d at hd
    by_cases hi : j = i
    · subst hi
      rw [Array.getElem?_setIfInBounds_self_of_lt hj] at hd
      cases hd
      obtain ⟨id, hrun⟩ := h.runs j c hc
      refine ⟨id, ?_⟩
      unfold Connection.run at hrun ⊢
      rw [actsOf_concat, actsOf_connection_self, List.foldlM_append, hrun]
      simpa using hstep
    · rw [Array.getElem?_setIfInBounds_ne hi] at hd
      rw [actsOf_concat, actsOf_connection_of_ne hi, List.append_nil]
      exact h.runs i d hd

theorem Follows.step (h : Follows config acts s) {a : Service.Act} (hs : s.step a = some s') :
    Follows config (acts ++ [a]) s' := by
  cases a with
  | accept =>
    simp only [Service.step] at hs
    split at hs
    · cases hs
      exact h.accept
    · cases hs
  | connection j a =>
    obtain ⟨c', hc', rfl⟩ := Option.map_eq_some_iff.1 hs
    obtain ⟨c, hc, hstep⟩ := Option.bind_eq_some_iff.1 hc'
    exact h.connection hc hstep
  | shutDown =>
    cases hs
    have hacts : ∀ i, actsOf i (acts ++ [.shutDown]) = actsOf i acts := fun i =>
      (actsOf_concat i acts .shutDown).trans (List.append_nil _)
    exact ⟨h.configured, fun i hi => (hacts i).trans (h.early i hi), fun i c hc =>
      (hacts i).symm ▸ h.runs i c hc⟩

theorem follows_run (hrun : (Service.new config).run acts = some s) : Follows config acts s := by
  induction acts using List.reverseRecOn generalizing s with
  | nil =>
    cases hrun
    exact follows_new config
  | append_singleton acts a ih =>
    rw [Service.run, List.foldlM_append] at hrun
    obtain ⟨before, hbefore, hs⟩ := Option.bind_eq_some_iff.1 hrun
    exact (ih hbefore).step (by simpa using hs)

end Service

/-! ## Replies -/

/-- `answers`, each with the number of its chunk, are right: no chunk is answered twice, every answer is
the one its chunk calls for, and no chunk is answered before an earlier one that is no batch. -/
structure Correct (chunks : List Bytes) (answers : List (Nat × Reply)) : Prop where
  once : (answers.map (·.1)).Nodup
  right : ∀ a ∈ answers, ∃ chunk, chunks[a.1]? = some chunk ∧ Answers chunk a.2
  inOrder : ∀ before a after, answers = before ++ a :: after →
    ∀ m chunk, m < a.1 → chunks[m]? = some chunk → ¬IsBatch chunk → m ∈ before.map (·.1)

section

variable {config : Config} {c : Connection} {got : Bytes} {chunks : List Bytes}
  {answers : List (Nat × Reply)} {opened : List Opened} {collected : List Reply}

theorem Attends.correct (h : Attends c chunks answers opened) : Correct chunks answers where
  once := (List.nodup_append.1 (h.accounts.numbers.nodup_iff.2 List.nodup_range)).1
  right := h.accounts.right
  inOrder := fun _ _ _ hsplit _ _ hm hget hnot =>
    h.accounts.answered_before (v := c.visitor) hsplit hm hget hnot

/-- What the stream took is the front of the replies' chunks. -/
theorem Serves.written (h : Serves config c got chunks answers opened collected) :
    c.written <+: wire (answers.map fun a => a.2.encode) := by
  have hbytes : c.written ++ c.writer.unsent = wire (collected.map Reply.encode) :=
    h.sends.balanced.bytes
  have hreplies : (answers.map fun a => a.2.encode) =
      collected.map Reply.encode ++ c.channel.map Reply.encode := by
    rw [← List.map_append, ← h.sends.replies, List.map_map]
    rfl
  rw [hreplies, Frame.Grammar.wire_append, ← hbytes, List.append_assoc]
  exact List.prefix_append _ _

/-- A writer that is done has sent the replies to all chunks. -/
theorem Serves.written_of_done (h : Serves config c got chunks answers opened collected)
    {result : Except ByteStream.RelayError Nat} (hdone : c.phase = .done result) :
    c.readEnd = some (.ok ()) ∧ result = .ok chunks.length ∧
      c.written = wire (answers.map fun a => a.2.encode) ∧
      (answers.map (·.1)).Perm (List.range chunks.length) := by
  obtain ⟨hresult, hready, hsent, hnone⟩ := h.sends.done result hdone
  obtain ⟨hended, hvisiting, hqueued⟩ := (noneReplies_iff c).1 hnone
  obtain ⟨hopened, hlen⟩ := h.attends.answered hvisiting hqueued
  have hcollected : answers.map (·.2) = collected := by
    have hreplies := h.sends.replies
    rw [Connection.channel, hsent] at hreplies
    exact hreplies.trans (List.append_nil _)
  have hbytes : c.written ++ c.writer.unsent = wire (collected.map Reply.encode) :=
    h.sends.balanced.bytes
  have hunsent : c.writer.unsent = [] := by rw [Frame.Writer.unsent, hready]; rfl
  have hnumbers := h.attends.accounts.numbers
  rw [hopened, hlen] at hnumbers
  rw [hunsent, ← hcollected, List.append_nil, List.map_map] at hbytes
  refine ⟨?_, ?_, hbytes, ?_⟩
  · obtain ⟨ending, hending⟩ := Option.isSome_iff_exists.1 hended
    rw [hending, h.reads.ended ending hending]
  · rw [hresult, ← hcollected, List.length_map, hlen]
  · simpa using hnumbers

end

/-- **Every chunk gets one right reply.** Whatever is done in a service, and in whatever order: if the
peer of a connection sends well-formed chunks, then hangs up or the router is shut down, and reads
what it is sent, then what was written at any time is the front of right answers to the completed
chunks, and once the writer is done it is all of them, one for each chunk. With nothing more from the
peer, lanes and writer act `workLeft` times at most; at rest the writer is done, unless the reader asks
for more. -/
theorem one_reply_per_chunk (config : Config) (hmax : 128 ≤ config.frame.maxChunkLen)
    {acts : List Service.Act} {s : Service} (hrun : (Service.new config).run acts = some s) {i : Nat}
    {c : Connection} (hc : s.connections[i]? = some c) (bodies : List Bytes)
    (hbodies : ∀ b ∈ bodies, 1 ≤ b.length ∧ b.length ≤ config.frame.maxChunkLen)
    (hpeer : Connection.Fair (wire bodies) [] (Service.actsOf i acts)) :
    let got := Connection.received (Service.actsOf i acts)
    let chunks := (parse config.frame.maxChunkLen got).bodies
    chunks <+: bodies ∧ (.hangUp ∈ Service.actsOf i acts → chunks = bodies) ∧
      (∀ result, c.readEnd = some result → result = .ok ()) ∧
      (∃ answers, Correct chunks answers ∧ c.written <+: wire (answers.map fun a => a.2.encode) ∧
        ∀ result, c.phase = .done result → c.readEnd = some (.ok ()) ∧ result = .ok chunks.length ∧
          c.written = wire (answers.map fun a => a.2.encode) ∧
          (answers.map (·.1)).Perm (List.range chunks.length)) ∧
      ∀ more c', (∀ a ∈ more, a.serves = true) → c.run more = some c' →
        more.length ≤ c.workLeft ∧
          ((∀ a, a.serves = true → c'.step a = none) →
            (∃ result, c'.phase = .done result) ∨ (c.readEnd = none ∧ c'.isReading = true)) := by
  intro got chunks
  obtain ⟨id, hown⟩ := (Service.follows_run hrun).runs i c hc
  have hgot : got <+: wire bodies := arrived_of_fair List.nil_prefix hpeer
  obtain ⟨chunks', answers, opened, collected, h⟩ :=
    (serves_new config id).run hmax hbodies List.nil_prefix hpeer hown
  have hsame : chunks' = chunks := by
    have hchunks := Frame.Reader.chunks_run config.frame got
    have hreads := h.reads.run
    rw [List.nil_append] at hreads
    rw [hreads] at hchunks
    exact hchunks
  subst hsame
  have hpart : chunks <+: bodies := h.completed hbodies hgot
  refine ⟨hpart, fun hend => ?_, h.reads.ended,
    ⟨answers, h.attends.correct, h.written, fun result hdone => h.written_of_done hdone⟩,
    fun more c' hserve hmore => ?_⟩
  · have hall : got = wire bodies := arrived_of_hangUp List.nil_prefix hpeer hend
    have hwire : ((Frame.Reader.new config.frame).run (wire bodies)).chunks = bodies :=
      (Frame.Reader.run_wire hbodies).2.1
    rw [← hall, Frame.Reader.chunks_run] at hwire
    exact hwire
  · have hfits : ∀ chunk ∈ chunks, chunk.length ≤ config.frame.maxChunkLen := fun chunk hchunk =>
      (hbodies chunk (hpart.subset hchunk)).2
    obtain ⟨hle, hreadEnd, answers', opened', collected', h'⟩ := h.length_le hmax hfits hserve hmore
    refine ⟨by omega, fun hrest => ?_⟩
    rcases h'.done_or_reading hrest with hdone | hreading
    · exact .inl hdone
    · have hopen := Option.isNone_iff_eq_none.1 (Bool.and_eq_true_iff.1 hreading).1
      exact .inr ⟨hreadEnd ▸ hopen, hreading⟩

/-- A batch of two items, of which one is empty, and a ping behind it, which is answered first. -/
theorem one_reply_per_chunk_behind_a_batch :
    let bodies : List Bytes := [[2, 7, 2, 1, 65, 0], [0, 5]]
    let acts : List Act := [.receive [0, 0, 0, 6], .receive [2, 7, 2, 1, 65, 0],
      .receive [0, 0, 0, 2], .receive [0, 5], .hangUp, .takeTurn 0, .visit, .visit, .visit, .visit,
      .visit, .visit, .takeTurn 0, .takeTurn 0, .collect, .collect, .beginSending, .send 6, .send 20,
      .send 6, .release, .finish]
    ∃ s c, (Service.new .standard).run (.accept :: acts.map (.connection 0)) = some s ∧
      s.connections[0]? = some c ∧ c.phase = .done (.ok 2) ∧
      ∃ answers, Correct bodies answers ∧ c.written = wire (answers.map fun a => a.2.encode) ∧
        (answers.map (·.1)).Perm [0, 1] := by
  intro bodies acts
  have hends : (((Service.new .standard).run (.accept :: acts.map (.connection 0))).bind fun s =>
      s.connections[0]?.bind fun c => c.result?).isSome = true := by decide +kernel
  obtain ⟨r, hr⟩ := Option.isSome_iff_exists.1 hends
  obtain ⟨s, hrun, hr⟩ := Option.bind_eq_some_iff.1 hr
  obtain ⟨c, hc, hr⟩ := Option.bind_eq_some_iff.1 hr
  have hphase : ∃ result, c.phase = .done result := by
    unfold Connection.result? at hr
    split at hr
    · exact ⟨_, by assumption⟩
    · exact ⟨_, by assumption⟩
    · cases hr
  obtain ⟨result, hdone⟩ := hphase
  have hacts : Service.actsOf 0 (.accept :: acts.map (.connection 0)) = acts := by rfl
  obtain ⟨-, hall, -, ⟨answers, hcorrect, -, hwritten⟩, -⟩ :=
    one_reply_per_chunk .standard (by decide) hrun hc bodies (by decide) (by rw [hacts]; decide)
  have hangs : Act.hangUp ∈ acts := by simp [acts]
  rw [hall (hacts ▸ hangs)] at hcorrect hwritten
  obtain ⟨-, hresult, hwire, hnumbers⟩ := hwritten result hdone
  exact ⟨s, c, hrun, hc, hresult ▸ hdone, answers, hcorrect, hwire, hnumbers⟩

end ChunkRouter.Router
