import ChunkRouter.Proofs.Lane.Turns
import ChunkRouter.Proofs.Router.Accounts
import ChunkRouter.Proofs.Work.Conservation

/-!
# Attending to chunks

The lanes of a connection: whenever chunks wait, one drain task is on its way to them or at work, on the
lane of the pipeline. With the accounts of the chunks this is kept by every act of the reader and the
lanes, in whatever order they come; each act of the lanes uses work up.
-/

namespace ChunkRouter.Router

open Connection (Act Spreading Task Visiting inboundsWork inboundWork replyTo? replyWork visitingWork)
open Lane (Token)
open Message (Reply Request)

/-! ## Drain tasks -/

/-- The pipeline and the lanes of a connection; `visiting` tells that a drain task is in its turn. -/
structure Tended (p : Pipeline Inbound) (pool : Lane.Pool Task) (visiting : Bool) : Prop where
  isOpen : p.queue.closed = false
  started : p.queue.started = true
  uncancelled : p.cancelled = false
  bulk : 0 < p.queue.bulkSize
  listed : p.queue.Lists p.queue.pending
  sane : pool.Sane (if visiting then [p.lane] else [])
  drains : pool.queued.count .drain + visiting.toNat = p.queue.processing.toNat
  drainLane : ∀ t, Task.drain ∈ (pool.lane t).tasks → t = p.lane
  attended : p.queue.pending ≠ [] → p.queue.processing = true

/-- Acts for the turns and tasks of a pool. -/
def poolWork (pool : Lane.Pool Task) : Nat := pool.turns.length + 3 * pool.queued.length

theorem inboundsWork_append (xs ys : List Inbound) :
    inboundsWork (xs ++ ys) = inboundsWork xs + inboundsWork ys := by
  rw [inboundsWork, List.map_append, total_append]
  rfl

theorem tended_new (lane : Token) (settings : Work.Settings) :
    Tended (.new lane settings true) .empty false where
  isOpen := rfl
  started := rfl
  uncancelled := rfl
  bulk := settings.bulkSize_pos
  listed := by
    have hlists := Work.Queue.lists_new (α := Inbound) settings true
    rw [← hlists.pending_eq] at hlists
    exact hlists
  sane := Lane.Pool.sane_empty
  drains := rfl
  drainLane := fun _ h => nomatch h
  attended := fun h => absurd (Work.Queue.lists_new settings true).pending_eq h

section

variable {p : Pipeline Inbound} {pool : Lane.Pool Task} {visiting : Bool} {i : Nat} {t : Token}

/-- The queue changes, and with it the number of drain tasks. -/
theorem Tended.queue (h : Tended p pool visiting) {q : Work.Queue Inbound} {items : List Inbound}
    (hlists : q.Lists items) (hopen : q.closed = false) (hstarted : q.started = true)
    (hbulk : q.bulkSize = p.queue.bulkSize) (visiting' : Bool) {pool' : Lane.Pool Task}
    (hsane : pool'.Sane (if visiting' then [p.lane] else []))
    (hdrains : pool'.queued.count .drain + visiting'.toNat = q.processing.toNat)
    (hlane : ∀ t, Task.drain ∈ (pool'.lane t).tasks → t = p.lane)
    (hattended : items ≠ [] → q.processing = true) :
    Tended { p with queue := q } pool' visiting' where
  isOpen := hopen
  started := hstarted
  uncancelled := h.uncancelled
  bulk := hbulk ▸ h.bulk
  listed := hlists.pending_eq.symm ▸ hlists
  sane := hsane
  drains := hdrains
  drainLane := hlane
  attended := fun hne => hattended (hlists.pending_eq ▸ hne)

/-- The same items wait, for another drain task or for none. -/
theorem Tended.lanes (h : Tended p pool visiting) (processing visiting' : Bool)
    {pool' : Lane.Pool Task} (hsane : pool'.Sane (if visiting' then [p.lane] else []))
    (hdrains : pool'.queued.count .drain + visiting'.toNat = processing.toNat)
    (hlane : ∀ t, Task.drain ∈ (pool'.lane t).tasks → t = p.lane)
    (hattended : p.queue.pending ≠ [] → processing = true) :
    Tended { p with queue := { p.queue with processing := processing } } pool' visiting' :=
  h.queue (q := { p.queue with processing := processing }) h.listed h.isOpen h.started rfl visiting' hsane
    hdrains hlane hattended

theorem drain_mem_dispatch {lane u : Token} {task : Task}
    (h : Task.drain ∈ ((pool.dispatch lane task).lane u).tasks) :
    Task.drain ∈ (pool.lane u).tasks ∨ (u = lane ∧ task = .drain) := by
  rw [Lane.Pool.lane_dispatch] at h
  by_cases hu : u = lane
  · rw [if_pos hu] at h
    rcases List.mem_append.1 h with h | h
    · exact .inl (hu ▸ h)
    · exact .inr ⟨hu, (List.mem_singleton.1 h).symm⟩
  · rw [if_neg hu] at h
    exact .inl h

theorem count_dispatch (h : pool.Distinct) (lane : Token) (task : Task) :
    (pool.dispatch lane task).queued.count .drain =
      pool.queued.count .drain + if task = .drain then 1 else 0 := by
  rw [(Lane.Pool.queued_dispatch h lane task).count_eq, List.count_cons]
  congr 1
  by_cases htask : task = .drain
  · rw [if_pos htask, if_pos (beq_iff_eq.2 htask)]
  · rw [if_neg htask, if_neg fun heq => htask (beq_iff_eq.1 heq)]

/-- A chunk is accepted; a drain task is dispatched unless one is there. -/
theorem Tended.accept (h : Tended p pool visiting) (x : Inbound) :
    ∃ p', p.enqueue x = (p', .accepted (!p.queue.processing)) ∧
      Tended p' (if p.queue.processing then pool else pool.dispatch p.lane .drain) visiting ∧
      p'.queue.pending = p.queue.pending ++ [x] ∧ p'.lane = p.lane := by
  have hlists := h.listed.enqueue h.isOpen x
  have henqueue := Work.Queue.enqueue_of_open h.isOpen x
  rw [h.started, Bool.true_and, Bool.or_true] at henqueue
  rw [henqueue] at hlists
  have hstep : p.enqueue x = ({ p with queue := (p.queue.enqueue x).1 }, (p.queue.enqueue x).2) := rfl
  rw [henqueue] at hstep
  refine ⟨_, hstep, ?_, hlists.pending_eq, rfl⟩
  have hdrains := h.drains
  cases hp : p.queue.processing
  · rw [hp] at hdrains
    refine h.queue hlists h.isOpen rfl rfl visiting (h.sane.dispatch _ _) ?_ (fun u hu => ?_) fun _ => rfl
    · have hzero : pool.queued.count .drain + visiting.toNat = 0 := hdrains
      show (pool.dispatch p.lane .drain).queued.count .drain + visiting.toNat = 1
      rw [count_dispatch h.sane.distinct, if_pos rfl]
      omega
    · exact (drain_mem_dispatch hu).elim (h.drainLane u) And.left
  · rw [hp] at hdrains
    exact h.queue hlists h.isOpen rfl rfl visiting h.sane hdrains h.drainLane fun _ => rfl

/-- The turn of an item task comes and goes. -/
theorem Tended.itemTurn (h : Tended p pool visiting) {pool' : Lane.Pool Task} {task : ItemTask}
    (hb : pool.beginTurn i = some (pool', t, some (.item task))) :
    Tended p (pool'.endTurn t) visiting ∧
      pool.queued.Perm (.item task :: (pool'.endTurn t).queued) ∧
      poolWork (pool'.endTurn t) < poolWork pool := by
  obtain ⟨p₁, t₁, task₁, hresult, hsane, hqueued, htasks, hlen⟩ := h.sane.beginTurn hb
  cases hresult
  obtain ⟨hsane', hqueued', htasks', hlen'⟩ := hsane.endTurn
  have hperm := hqueued.trans (hqueued'.symm.cons _)
  refine ⟨h.lanes _ visiting hsane' ?_ (fun u hu => ?_) h.attended, hperm, ?_⟩
  · rw [← h.drains, hperm.count_eq]
    rfl
  · refine h.drainLane u ?_
    rw [htasks' u] at hu
    rw [htasks u]
    split
    · exact List.mem_cons_of_mem _ hu
    · exact hu
  · have hcount := hperm.length_eq
    rw [List.length_cons] at hcount
    unfold poolWork
    omega

/-- The turn of a drain task comes: it is the only one, and none is in its turn. -/
theorem Tended.drainTurn (h : Tended p pool visiting) {pool' : Lane.Pool Task}
    (hb : pool.beginTurn i = some (pool', t, some .drain)) :
    t = p.lane ∧ visiting = false ∧ p.queue.processing = true ∧ pool'.Sane [p.lane] ∧
      pool.queued.Perm (.drain :: pool'.queued) ∧ pool'.queued.count .drain = 0 ∧
      (∀ u, Task.drain ∉ (pool'.lane u).tasks) ∧ poolWork pool' + 4 = poolWork pool := by
  obtain ⟨p₁, t₁, task₁, hresult, hsane, hqueued, htasks, hlen⟩ := h.sane.beginTurn hb
  cases hresult
  have hcount := hqueued.count_eq .drain
  rw [List.count_cons_self] at hcount
  have hdrains := h.drains
  have hone := Bool.toNat_le p.queue.processing
  have hlane : t = p.lane := by
    refine h.drainLane t ?_
    rw [htasks t, if_pos rfl]
    exact List.mem_cons_self
  have hvisiting : visiting = false := Bool.toNat_eq_zero.1 (by omega)
  subst hvisiting hlane
  have hnone : pool'.queued.count .drain = 0 := by omega
  refine ⟨rfl, rfl, Bool.toNat_eq_one.1 (by omega), hsane, hqueued, hnone, fun u hu => ?_, ?_⟩
  · exact List.count_eq_zero.1 hnone (Lane.Pool.mem_queued hu)
  · have hlength := hqueued.length_eq
    rw [List.length_cons] at hlength
    unfold poolWork
    omega

/-- The drain task finds nothing to visit, or takes a batch of chunks. -/
theorem Tended.beginDrain (h : Tended p pool visiting) {pool' : Lane.Pool Task}
    (hb : pool.beginTurn i = some (pool', t, some .drain)) :
    visiting = false ∧
      ((∃ p', p.beginDrain = (p', none) ∧ Tended p' (pool'.endTurn t) false ∧
          p'.queue.pending = p.queue.pending ∧ p'.queue.len = p.queue.len ∧
          (∀ n, (itemsOf n (pool'.endTurn t).queued).Perm (itemsOf n pool.queued)) ∧
          poolWork (pool'.endTurn t) < poolWork pool) ∨
        ∃ p' batch, p.beginDrain = (p', some batch) ∧ Tended p' pool' true ∧
          p.queue.pending = batch ++ p'.queue.pending ∧ p'.queue.len < p.queue.len ∧
          (∀ n, (itemsOf n pool'.queued).Perm (itemsOf n pool.queued)) ∧
          poolWork pool' + 4 = poolWork pool) := by
  obtain ⟨rfl, rfl, hprocessing, hsane, hqueued, hnone, hlanes, hwork⟩ := h.drainTurn hb
  have hitems : ∀ n, (itemsOf n pool'.queued).Perm (itemsOf n pool.queued) := fun n => by
    rw [← itemsOf_cons_drain n pool'.queued]
    exact itemsOf_perm n hqueued.symm
  have hbegin : p.beginDrain = ({ p with queue := p.queue.take.1 }, p.queue.take.2) := by
    rw [Pipeline.beginDrain, h.uncancelled]
    rfl
  refine ⟨rfl, ?_⟩
  rcases Work.Queue.take_cases p.queue with ⟨htake, hwhy⟩ | ⟨ring, batch, htake, hopen, hstarted, -⟩
  · have hempty : p.queue.isEmpty = true :=
      (hwhy.resolve_left (by simp [h.isOpen])).resolve_left (by simp [h.started])
    rw [htake] at hbegin
    obtain ⟨hsane', hqueued', htasks, hlen⟩ := hsane.endTurn
    have htended : Tended { p with queue := { p.queue with processing := false } }
        (pool'.endTurn p.lane) false := by
      refine h.lanes false false hsane' ?_ (fun u hu => ?_) fun hne => absurd ?_ hne
      · rw [hqueued'.count_eq, hnone]
        rfl
      · rw [htasks u] at hu
        exact absurd hu (hlanes u)
      · exact List.isEmpty_iff.1 (h.listed.isEmpty_eq.symm.trans hempty)
    refine .inl ⟨_, hbegin, htended, rfl, rfl, fun n => (itemsOf_perm n hqueued').trans (hitems n), ?_⟩
    have hlength := hqueued'.length_eq
    unfold poolWork at hwork ⊢
    omega
  · rw [htake] at hbegin
    obtain ⟨rest, hpending, hlists, hne, hbatch⟩ := h.listed.take htake
    refine .inr ⟨_, batch, hbegin, h.queue hlists hopen hstarted rfl true hsane ?_
      (fun u hu => absurd hu (hlanes u)) fun _ => hprocessing, ?_, ?_, hitems, hwork⟩
    · rw [hnone]
      show _ = p.queue.processing.toNat
      rw [hprocessing]
      rfl
    · exact hpending.trans (congrArg (batch ++ ·) hlists.pending_eq.symm)
    · have hpos : 0 < p.queue.pending.length := List.length_pos_iff.2 hne
      have hbulk := h.bulk
      have hlength := congrArg List.length hpending
      rw [List.length_append] at hlength
      rw [h.listed.len_eq]
      refine Nat.lt_of_le_of_lt (Nat.le_of_eq hlists.len_eq) ?_
      omega

/-- The task of an item is dispatched. -/
theorem Tended.dispatch (h : Tended p pool visiting) (lane : Token) (task : ItemTask) :
    Tended p (pool.dispatch lane (.item task)) visiting ∧
      poolWork (pool.dispatch lane (.item task)) ≤ poolWork pool + 4 := by
  refine ⟨h.lanes _ visiting (h.sane.dispatch _ _) ?_ (fun u hu => ?_) h.attended, ?_⟩
  · rw [count_dispatch h.sane.distinct, if_neg fun heq => nomatch heq]
    exact h.drains
  · exact (drain_mem_dispatch hu).elim (h.drainLane u) fun hdrain => nomatch hdrain.2
  · have hlength := (Lane.Pool.queued_dispatch h.sane.distinct lane (.item task)).length_eq
    rw [List.length_cons] at hlength
    have hturns := Lane.Pool.length_turns_dispatch pool lane (.item task)
    have hone : (if (pool.lane lane).scheduled then 0 else 1) ≤ 1 := by split <;> omega
    unfold poolWork
    omega

/-- A drain task is done; another one is dispatched if chunks wait. -/
theorem Tended.endDrain (h : Tended p pool true) :
    ∃ p' again, p.endDrain = (p', again) ∧ p'.lane = p.lane ∧
      p'.queue.pending = p.queue.pending ∧ p'.queue.len = p.queue.len ∧
      Tended p' ((if again then pool.dispatch p.lane .drain else pool).endTurn p.lane) false ∧
      (∀ n, (itemsOf n ((if again then pool.dispatch p.lane .drain else pool).endTurn p.lane).queued).Perm
        (itemsOf n pool.queued)) ∧
      poolWork ((if again then pool.dispatch p.lane .drain else pool).endTurn p.lane) ≤
        poolWork pool + 4 := by
  have htrue : true.toNat = 1 := rfl
  have hdrains := h.drains
  have hone := Bool.toNat_le p.queue.processing
  have hprocessing : p.queue.processing = true := Bool.toNat_eq_one.1 (by omega)
  have hnone : pool.queued.count .drain = 0 := by omega
  have hend : p.endDrain =
      ({ p with queue := { p.queue with processing := !p.queue.isEmpty } }, !p.queue.isEmpty) := by
    rw [Pipeline.endDrain, Work.Queue.settle_eq]
    simp only [hprocessing, h.isOpen, Bool.not_false, Bool.and_true, Bool.true_and]
  refine ⟨_, _, hend, rfl, rfl, rfl, ?_⟩
  cases hempty : p.queue.isEmpty
  · have hsane := h.sane.dispatch p.lane .drain
    have hcount := count_dispatch h.sane.distinct p.lane .drain
    have hdispatch := Lane.Pool.queued_dispatch h.sane.distinct p.lane .drain
    have hscheduled : (pool.lane p.lane).scheduled = true :=
      (h.sane.scheduled p.lane).2 List.mem_cons_self
    have hturns := Lane.Pool.length_turns_dispatch pool p.lane .drain
    rw [if_pos hscheduled] at hturns
    obtain ⟨hsane', hqueued, htasks, hlen⟩ := Lane.Pool.Sane.endTurn hsane
    refine ⟨h.lanes _ false hsane' ?_ (fun u hu => ?_) fun _ => rfl, fun n => ?_, ?_⟩
    · show ((pool.dispatch p.lane .drain).endTurn p.lane).queued.count .drain + false.toNat = 1
      rw [hqueued.count_eq, hcount, hnone]
      rfl
    · have hmem : Task.drain ∈ (((pool.dispatch p.lane .drain).endTurn p.lane).lane u).tasks := hu
      rw [htasks u] at hmem
      exact (drain_mem_dispatch hmem).elim (h.drainLane u) And.left
    · rw [← itemsOf_cons_drain n pool.queued]
      exact itemsOf_perm n (hqueued.trans hdispatch)
    · have hlength := (hqueued.trans hdispatch).length_eq
      rw [List.length_cons] at hlength
      show poolWork ((pool.dispatch p.lane .drain).endTurn p.lane) ≤ _
      unfold poolWork
      omega
  · obtain ⟨hsane', hqueued, htasks, hlen⟩ := Lane.Pool.Sane.endTurn h.sane
    refine ⟨h.lanes _ false hsane' ?_ (fun u hu => ?_) fun hne => absurd ?_ hne,
      fun n => itemsOf_perm n hqueued, ?_⟩
    · show (pool.endTurn p.lane).queued.count .drain + false.toNat = 0
      rw [hqueued.count_eq, hnone]
      rfl
    · have hmem : Task.drain ∈ ((pool.endTurn p.lane).lane u).tasks := hu
      rw [htasks u] at hmem
      exact h.drainLane u hmem
    · exact List.isEmpty_iff.1 (h.listed.isEmpty_eq.symm.trans hempty)
    · have hlength := hqueued.length_eq
      show poolWork (pool.endTurn p.lane) ≤ _
      unfold poolWork
      omega

end

/-! ## Acts of the lanes -/

/-- The chunks that the drain task took and did not visit yet. -/
def Connection.handed (c : Connection) : List Inbound := (c.visiting.map (·.rest)).getD []

def Connection.spreading? (c : Connection) : Option Spreading := c.visiting.bind (·.spreading)

/-- A connection whose lanes attend to `chunks`. -/
structure Attends (c : Connection) (chunks : List Bytes) (answers : List (Nat × Reply))
    (opened : List Opened) : Prop where
  tended : Tended c.pipeline c.pool c.visiting.isSome
  accounts : Accounts chunks answers opened c.visitor.batches c.pool.queued c.spreading?
    (c.handed ++ c.pipeline.queue.pending)

/-- Acts of the lanes that are still to come, and of the writer for what the lanes make of them. -/
def Connection.attention (c : Connection) : Nat :=
  inboundsWork c.pipeline.queue.pending + 4 * c.pipeline.queue.len +
    (c.visiting.map visitingWork).getD 0 + poolWork c.pool + 120 * armed c.visitor.batches +
    total (c.visitor.sent.map replyWork)

/-- An act of the lanes happened: work was used up, and nothing but the lanes has changed. -/
structure Served (c c' : Connection) (answers answers' : List (Nat × Reply)) : Prop where
  others : c' = { c with
    pipeline := c'.pipeline, visitor := c'.visitor, pool := c'.pool, visiting := c'.visiting }
  replied : Replied c.visitor c'.visitor answers answers'
  attention : c'.attention < c.attention

section

variable {c c' : Connection} {chunks : List Bytes} {answers : List (Nat × Reply)}
  {opened : List Opened}

theorem Replied.refl (v : Visitor) (answers : List (Nat × Reply)) : Replied v v answers answers :=
  ⟨rfl, [], (List.append_nil answers).symm, rfl⟩

theorem attends_new (config : Config) (id : ConnectionId) : Attends (.new config id) [] [] [] where
  tended := tended_new _ _
  accounts := by
    have hpending : (Connection.new config id).pipeline.queue.pending = [] :=
      (Work.Queue.lists_new config.queue true).pending_eq
    rw [hpending]
    exact accounts_nil

/-- A chunk arrives. -/
theorem Attends.accept (h : Attends c chunks answers opened) (chunk : Bytes) :
    ∃ pipeline pool, c.accept (.ofChunk chunk) =
        { c with backlog := c.backlog.add, pipeline := pipeline, pool := pool } ∧
      Attends (c.accept (.ofChunk chunk)) (chunks ++ [chunk]) answers opened := by
  obtain ⟨p', henqueue, htended, hpending, hlane⟩ := h.tended.accept (.ofChunk chunk)
  have haccounts := h.accounts.arrive chunk
  rw [List.append_assoc, ← hpending] at haccounts
  have haccept : c.accept (.ofChunk chunk) =
      { c with
        backlog := c.backlog.add
        pipeline := p'
        pool := if c.pipeline.queue.processing then c.pool
          else c.pool.dispatch c.pipeline.lane .drain } := by
    unfold Connection.accept
    rw [henqueue]
    cases c.pipeline.queue.processing
    · rw [← hlane]
      rfl
    · rfl
  rw [haccept]
  refine ⟨_, _, rfl, htended, haccounts.requeue _ fun n => ?_⟩
  show (itemsOf n (if c.pipeline.queue.processing then c.pool
    else c.pool.dispatch c.pipeline.lane .drain).queued).Perm _
  split
  · exact List.Perm.refl _
  · rw [← itemsOf_cons_drain n c.pool.queued]
    exact itemsOf_perm n (Lane.Pool.queued_dispatch h.tended.sane.distinct _ _)

/-- A lane takes its turn. -/
theorem Attends.takeTurn (h : Attends c chunks answers opened) (hlistening : c.visitor.listening = true)
    {i : Nat} (ht : c.takeTurn i = some c') :
    ∃ answers' opened', Attends c' chunks answers' opened' ∧ Served c c' answers answers' := by
  obtain ⟨result, hb, hc'⟩ := Option.map_eq_some_iff.1 ht
  obtain ⟨pool, lane, task, rfl, -, hqueued, -⟩ := h.tended.sane.beginTurn hb
  cases task with
  | item task =>
    have hrun : { c with visitor := c.visitor.runItem task, pool := pool.endTurn lane } = c' := hc'
    subst hrun
    obtain ⟨htended, hperm, hwork⟩ := h.tended.itemTurn hb
    obtain ⟨o, ho, hnumber⟩ := List.mem_map.1
      (h.accounts.task task (hqueued.mem_iff.2 List.mem_cons_self))
    obtain ⟨number, item⟩ := task
    have hsame : o.number = number := hnumber
    subst hsame
    have haccounts := h.accounts.requeue (.item ⟨o.number, item⟩ :: (pool.endTurn lane).queued)
      fun n => itemsOf_perm n hperm.symm
    obtain ⟨answers', opened', haccounts', hreplied, hpaid⟩ := haccounts.handled ho hlistening
      (o.apart_item item _ _) (haccounts.underway o ho).runItem
    refine ⟨answers', opened', ⟨htended, haccounts'⟩, rfl, hreplied, ?_⟩
    unfold Connection.attention
    dsimp only
    omega
  | drain =>
    obtain ⟨hnone, ⟨p', hbegin, htended, hpending, hlen, hitems, hwork⟩ |
      ⟨p', batch, hbegin, htended, hpending, hlen, hitems, hwork⟩⟩ := h.tended.beginDrain hb
    · simp only [hbegin] at hc'
      subst hc'
      have haccounts := h.accounts.requeue _ hitems
      rw [← hpending] at haccounts
      refine ⟨answers, opened, ⟨hnone ▸ htended, haccounts⟩, rfl, Replied.refl _ _, ?_⟩
      unfold Connection.attention
      dsimp only
      rw [hpending, hlen]
      omega
    · simp only [hbegin] at hc'
      subst hc'
      have hvisiting : c.visiting = none :=
        Option.isNone_iff_eq_none.1 (Option.isSome_eq_false_iff.1 hnone)
      have hhanded : c.handed = [] := by rw [Connection.handed, hvisiting]; rfl
      have hspreading : c.spreading? = none := by rw [Connection.spreading?, hvisiting]; rfl
      have haccounts := h.accounts.requeue _ hitems
      rw [hhanded, hspreading, List.nil_append, hpending] at haccounts
      refine ⟨answers, opened, ⟨htended, haccounts⟩, rfl, Replied.refl _ _, ?_⟩
      have hbatch : visitingWork ⟨none, batch⟩ = 5 + inboundsWork batch := rfl
      unfold Connection.attention
      dsimp only
      rw [hpending, hvisiting, inboundsWork_append, Option.map_some, Option.map_none,
        Option.getD_some, Option.getD_none, hbatch]
      omega

theorem endDrain_eq {p' : Pipeline Inbound} {again : Bool} (hend : c.pipeline.endDrain = (p', again))
    (hlane : p'.lane = c.pipeline.lane) :
    c.endDrain = { c with
      pipeline := p'
      visiting := none
      pool := (if again then c.pool.dispatch c.pipeline.lane .drain else c.pool).endTurn
        c.pipeline.lane } := by
  unfold Connection.endDrain
  rw [hend, ← hlane]
  cases again <;> rfl

/-- What is known of a connection in the middle of a batch of chunks. -/
theorem Attends.of_visiting (h : Attends c chunks answers opened) {spreading : Option Spreading}
    {rest : List Inbound} (hvisiting : c.visiting = some ⟨spreading, rest⟩) :
    Tended c.pipeline c.pool true ∧
      Accounts chunks answers opened c.visitor.batches c.pool.queued spreading
        (rest ++ c.pipeline.queue.pending) ∧
      c.attention = inboundsWork c.pipeline.queue.pending + 4 * c.pipeline.queue.len +
        visitingWork ⟨spreading, rest⟩ + poolWork c.pool + 120 * armed c.visitor.batches +
        total (c.visitor.sent.map replyWork) := by
  have hhanded : c.handed = rest := by rw [Connection.handed, hvisiting]; rfl
  have hspreading : c.spreading? = spreading := by rw [Connection.spreading?, hvisiting]; rfl
  have htended := h.tended
  have haccounts := h.accounts
  rw [hvisiting] at htended
  rw [hhanded, hspreading] at haccounts
  refine ⟨htended, haccounts, ?_⟩
  rw [Connection.attention, hvisiting]
  rfl

/-- All chunks of the batch are visited. -/
theorem Attends.endDrain (h : Attends c chunks answers opened) (hvisiting : c.visiting = some ⟨none, []⟩) :
    Attends c.endDrain chunks answers opened ∧ Served c c.endDrain answers answers := by
  obtain ⟨htended, haccounts, hattention⟩ := h.of_visiting hvisiting
  obtain ⟨p', again, hend, hlane, hpending, hlen, htended', hitems, hwork⟩ := htended.endDrain
  have haccounts' := haccounts.requeue _ hitems
  rw [← hpending] at haccounts'
  rw [endDrain_eq hend hlane]
  refine ⟨⟨htended', haccounts'⟩, rfl, Replied.refl _ _, ?_⟩
  rw [hattention, ← hpending, ← hlen]
  simp only [Connection.attention, visitingWork, inboundsWork, List.map_nil, total, Option.map_none,
    Option.getD_none]
  omega

/-- The next chunk is answered at once. -/
theorem Attends.answer (h : Attends c chunks answers opened) (hlistening : c.visitor.listening = true)
    {x : Inbound} {rest : List Inbound} {r : Reply} (hvisiting : c.visiting = some ⟨none, x :: rest⟩)
    (hreply : replyTo? x = some r) :
    ∃ answers', Attends { c with visitor := c.visitor.reply r, visiting := some ⟨none, rest⟩ } chunks
        answers' opened ∧
      Served c { c with visitor := c.visitor.reply r, visiting := some ⟨none, rest⟩ } answers
        answers' := by
  obtain ⟨htended, haccounts, hattention⟩ := h.of_visiting hvisiting
  obtain ⟨answers', haccounts', hreplied⟩ := haccounts.reply hlistening hreply
  have hsent : c.visitor.reply r = { c.visitor with sent := r :: c.visitor.sent } := if_pos hlistening
  rw [hsent] at hreplied ⊢
  refine ⟨answers', ⟨htended, haccounts'⟩, rfl, hreplied, ?_⟩
  have hwork : inboundWork x = 2 + replyWork r := by
    cases x with
    | request request =>
      cases request with
      | batch id items => cases hreply
      | ping nonce | echo body =>
        cases hreply
        rfl
    | malformed reason =>
      cases hreply
      rfl
  rw [hattention]
  simp only [Connection.attention, visitingWork, inboundsWork, List.map_cons, total, Option.map_some,
    Option.map_none, Option.getD_some, Option.getD_none]
  omega

/-- The next chunk is a batch, and is opened. -/
theorem Attends.openBatch (h : Attends c chunks answers opened) {id : UInt64} {items : List Bytes}
    {rest : List Inbound} (hvisiting : c.visiting = some ⟨none, .request (.batch id items) :: rest⟩) :
    let c' := { c with
      visitor := (c.visitor.openBatch id).1
      visiting := some ⟨some ⟨c.visitor.batches.size, 0, items⟩, rest⟩ }
    ∃ opened', Attends c' chunks answers opened' ∧ Served c c' answers answers := by
  obtain ⟨htended, haccounts, hattention⟩ := h.of_visiting hvisiting
  obtain ⟨opened', haccounts', harmed⟩ := haccounts.openBatch
  refine ⟨opened', ⟨htended, haccounts'⟩, rfl, ⟨rfl, [], (List.append_nil _).symm, rfl⟩, ?_⟩
  have hsent : (c.visitor.openBatch id).1.sent = c.visitor.sent := rfl
  rw [hattention]
  simp only [Connection.attention, visitingWork, inboundsWork, List.map_cons, total,
    inboundWork, harmed, hsent, Option.map_some, Option.map_none, Option.getD_some, Option.getD_none]
  omega

/-- The next item of a batch is dispatched. -/
theorem Attends.dispatchItem (h : Attends c chunks answers opened) {number n : Nat} {item : Bytes}
    {items : List Bytes} {rest : List Inbound}
    (hvisiting : c.visiting = some ⟨some ⟨number, n, item :: items⟩, rest⟩) :
    let c' := { c with
      visitor := c.visitor.registerItem number
      pool := c.pool.dispatch (c.visitor.laneOfItem n) (.item ⟨number, item⟩)
      visiting := some ⟨some ⟨number, n + 1, items⟩, rest⟩ }
    Attends c' chunks answers opened ∧ Served c c' answers answers := by
  obtain ⟨htended, haccounts, hattention⟩ := h.of_visiting hvisiting
  obtain ⟨haccounts', harmed⟩ := haccounts.registerItem
  obtain ⟨htended', hwork⟩ := htended.dispatch (c.visitor.laneOfItem n) ⟨number, item⟩
  refine ⟨⟨htended', haccounts'.requeue _ fun k => itemsOf_perm k
    (Lane.Pool.queued_dispatch htended.sane.distinct _ _)⟩, rfl,
    ⟨rfl, [], (List.append_nil _).symm, rfl⟩, ?_⟩
  have hsent : (c.visitor.registerItem number).sent = c.visitor.sent := rfl
  rw [hattention]
  simp only [Connection.attention, visitingWork, inboundsWork, List.length_cons, harmed, hsent,
    Option.map_some, Option.getD_some]
  omega

/-- All items of a batch are dispatched. -/
theorem Attends.openGate (h : Attends c chunks answers opened) (hlistening : c.visitor.listening = true)
    {number n : Nat} {rest : List Inbound} (hvisiting : c.visiting = some ⟨some ⟨number, n, []⟩, rest⟩) :
    let c' := { c with visitor := c.visitor.openGate number, visiting := some ⟨none, rest⟩ }
    ∃ answers' opened', Attends c' chunks answers' opened' ∧ Served c c' answers answers' := by
  obtain ⟨htended, haccounts, hattention⟩ := h.of_visiting hvisiting
  obtain ⟨o, ho, hnumber⟩ := List.mem_map.1 (haccounts.spread _ rfl)
  have hsame : o.number = number := hnumber
  subst hsame
  obtain ⟨answers', opened', haccounts', hreplied, hpaid⟩ := haccounts.handled ho hlistening
    (o.apart_gate n _) (haccounts.underway o ho).openGate
  refine ⟨answers', opened', ⟨htended, haccounts'⟩, rfl, hreplied, ?_⟩
  rw [hattention]
  simp only [Connection.attention, visitingWork, inboundsWork, Option.map_some, Option.map_none,
    Option.getD_some, Option.getD_none]
  omega

/-- The drain task goes on. -/
theorem Attends.visit (h : Attends c chunks answers opened) (hlistening : c.visitor.listening = true)
    (hv : c.visit = some c') :
    ∃ answers' opened', Attends c' chunks answers' opened' ∧ Served c c' answers answers' := by
  obtain ⟨⟨spreading, rest⟩, hvisiting, hc'⟩ := Option.map_eq_some_iff.1 hv
  subst hc'
  cases spreading with
  | none =>
    cases rest with
    | nil => exact ⟨answers, opened, h.endDrain hvisiting⟩
    | cons x rest =>
      cases hreply : replyTo? x with
      | none =>
        cases x with
        | request request =>
          cases request with
          | batch id items =>
            obtain ⟨opened', hnext⟩ := h.openBatch hvisiting
            exact ⟨answers, opened', hnext⟩
          | ping nonce | echo body => cases hreply
        | malformed reason => cases hreply
      | some r =>
        obtain ⟨answers', hnext⟩ := h.answer hlistening hvisiting hreply
        refine ⟨answers', opened, ?_⟩
        cases x with
        | request request =>
          cases request with
          | batch id items => cases hreply
          | ping nonce | echo body =>
            cases hreply
            exact hnext
        | malformed reason =>
          cases hreply
          exact hnext
  | some s =>
    obtain ⟨number, n, items⟩ := s
    cases items with
    | nil => exact h.openGate hlistening hvisiting
    | cons item items => exact ⟨answers, opened, h.dispatchItem hvisiting⟩

end

end ChunkRouter.Router
