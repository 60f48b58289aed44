import ChunkRouter.Proofs.Lane.Turns
import ChunkRouter.Proofs.Router.FanOut
import ChunkRouter.Proofs.Router.Receiving
import ChunkRouter.Proofs.Router.Sending
import ChunkRouter.Router.Service

/-!
# Lanes and their names

The lanes of all connections are told apart by name. `Lane.Token.owner` and `Lane.Token.batch?` read out of a
name whose lane it is, and which: the digits of an id end where the name ends, or at a slash. A connection
stays on the lanes that bear its name, and ids are given out in a circle of `2 ^ 64`, so that connections
share no lane as long as the circle is not closed between them.
-/

namespace ChunkRouter

/-! ## Reading names -/

namespace Lane.Token

/-- The id in the name of a lane. -/
def owner (t : Token) : Nat := Nat.ofDigitChars 10 ((t.name.toList.drop 5).takeWhile Char.isDigit) 0

/-- The number in the name of a batch lane. The name of a request lane ends behind the id. -/
def batch? (t : Token) : Option Nat :=
  match (t.name.toList.drop 5).dropWhile Char.isDigit with
  | [] => none
  | suffix => some (Nat.ofDigitChars 10 (suffix.drop 7) 0)

end Lane.Token

namespace Router

namespace ConnectionId

/-- The lane that a connection's chunks are visited on. -/
def requestLane (id : ConnectionId) : Lane.Token := ⟨id.name⟩

/-- The lanes of a connection that is to have so many batch lanes; it has one at least. -/
def lanes (id : ConnectionId) (batchLanes : Nat) : List Lane.Token :=
  id.requestLane :: (List.range (max batchLanes 1)).map (Visitor.batchLane id)

variable {id : ConnectionId} {t : Lane.Token} {m : Nat}

theorem toList_name (id : ConnectionId) :
    id.name.toList = "conn-".toList ++ Nat.toDigits 10 id.value.toNat := by
  have hvalue : toString id.value = id.value.toNat.repr := rfl
  rw [name, hvalue, String.toList_append, Nat.toList_repr]

theorem toList_batchLane (id : ConnectionId) (k : Nat) :
    (Visitor.batchLane id k).name.toList =
      "conn-".toList ++ (Nat.toDigits 10 id.value.toNat ++ ("/batch-".toList ++ Nat.toDigits 10 k)) := by
  rw [Visitor.batchLane, String.toList_append, String.toList_append, toList_name,
    Nat.toString_eq_repr, Nat.toList_repr, List.append_assoc, List.append_assoc]

/-- The digits of the id end with the name, or where it goes on with something that is no digit. -/
theorem read_name {rest : List Char}
    (hname : t.name.toList = "conn-".toList ++ (Nat.toDigits 10 id.value.toNat ++ rest))
    (hrest : rest.takeWhile Char.isDigit = []) :
    t.owner = id.value.toNat ∧
      t.batch? = if rest = [] then none else some (Nat.ofDigitChars 10 (rest.drop 7) 0) := by
  have hdigits : ∀ c ∈ Nat.toDigits 10 id.value.toNat, c.isDigit = true := fun c =>
    Nat.isDigit_of_mem_toDigits (by decide) (by decide)
  have hdrop : t.name.toList.drop 5 = Nat.toDigits 10 id.value.toNat ++ rest := by
    rw [hname]
    exact List.drop_left' rfl
  have hback : rest.dropWhile Char.isDigit = rest := by
    have happend := List.takeWhile_append_dropWhile (p := Char.isDigit) (l := rest)
    rwa [hrest] at happend
  constructor
  · rw [Lane.Token.owner, hdrop, List.takeWhile_append_of_pos hdigits, hrest, List.append_nil,
      Nat.ofDigitChars_ten_toDigits]
  · rw [Lane.Token.batch?, hdrop, List.dropWhile_append_of_pos hdigits, hback]
    cases rest <;> rfl

theorem read_requestLane (id : ConnectionId) :
    id.requestLane.owner = id.value.toNat ∧ id.requestLane.batch? = none := by
  have hname : id.requestLane.name.toList =
      "conn-".toList ++ (Nat.toDigits 10 id.value.toNat ++ []) := by
    rw [List.append_nil]
    exact toList_name id
  exact read_name hname rfl

theorem read_batchLane (id : ConnectionId) (k : Nat) :
    (Visitor.batchLane id k).owner = id.value.toNat ∧ (Visitor.batchLane id k).batch? = some k := by
  obtain ⟨howner, hbatch⟩ := read_name (toList_batchLane id k) rfl
  refine ⟨howner, hbatch.trans ?_⟩
  rw [if_neg (by simp)]
  exact congrArg some Nat.ofDigitChars_ten_toDigits

/-! ## The lanes of a connection -/

theorem owner_of_mem_lanes (h : t ∈ id.lanes m) : t.owner = id.value.toNat := by
  rcases List.mem_cons.1 h with rfl | h
  · exact (read_requestLane id).1
  · obtain ⟨k, -, rfl⟩ := List.mem_map.1 h
    exact (read_batchLane id k).1

/-- Different connections have no lane in common. -/
theorem disjoint_lanes {a b : ConnectionId} (hne : a ≠ b) (m m' : Nat) :
    (a.lanes m).Disjoint (b.lanes m') := by
  intro t ha hb
  have hvalue : a.value.toNat = b.value.toNat := (owner_of_mem_lanes ha).symm.trans (owner_of_mem_lanes hb)
  exact hne (congrArg mk (UInt64.toNat_inj.1 hvalue))

/-- A connection's lanes are as many as their names. -/
theorem nodup_lanes (id : ConnectionId) (m : Nat) : (id.lanes m).Nodup := by
  have hread : (id.lanes m).map Lane.Token.batch? = none :: (List.range (max m 1)).map some := by
    rw [lanes, List.map_cons, List.map_map, (read_requestLane id).2]
    refine congrArg _ (List.map_congr_left fun k _ => ?_)
    rw [Function.comp_apply, (read_batchLane id k).2]
  refine List.Nodup.of_map Lane.Token.batch? ?_
  rw [hread, List.nodup_cons]
  exact ⟨by simp, List.nodup_range.map fun _ _ => Option.some.inj⟩

theorem batchLane_mem_lanes {k : Nat} (hk : k < max m 1) : Visitor.batchLane id k ∈ id.lanes m :=
  List.mem_cons_of_mem _ (List.mem_map_of_mem (List.mem_range.2 hk))

/-! ## Ids -/

theorem after_zero (id : ConnectionId) : id.after 0 = id :=
  congrArg mk (UInt64.add_zero id.value)

theorem after_succ (id : ConnectionId) (n : Nat) : id.after (n + 1) = id.next.after n := by
  have hsucc : (n + 1).toUInt64 = 1 + n.toUInt64 := by
    rw [Nat.add_comm]
    exact UInt64.ofNat_add 1 n
  exact congrArg mk ((congrArg (id.value + ·) hsucc).trans (UInt64.add_assoc _ _ _).symm)

theorem next_after (id : ConnectionId) (n : Nat) : (id.after n).next = id.after (n + 1) := by
  induction n generalizing id with
  | zero => rw [after_succ, after_zero, after_zero]
  | succ n ih => rw [after_succ, ih, after_succ id (n + 1)]

/-- Ids are given out one after another. -/
theorem eq_after_of_take {start a : ConnectionId} {count i : Nat} (h : (start.take count)[i]? = some a) :
    a = start.after i := by
  induction count generalizing start i with
  | zero => cases h
  | succ count ih =>
    cases i with
    | zero => exact (Option.some.inj h).symm.trans (after_zero start).symm
    | succ i =>
      rw [after_succ]
      exact ih h

/-- An id comes again only when the circle is closed. -/
theorem after_ne {start : ConnectionId} {i j : Nat} (hne : i ≠ j) (hij : i < j + UInt64.size)
    (hji : j < i + UInt64.size) : start.after i ≠ start.after j := by
  intro heq
  have hvalue : start.value + i.toUInt64 = start.value + j.toUInt64 := congrArg value heq
  have hmod : i % UInt64.size = j % UInt64.size :=
    congrArg UInt64.toNat ((UInt64.add_right_inj start.value).1 hvalue)
  unfold UInt64.size at hij hji hmod
  omega

end ConnectionId

end Router

/-! ## Staying on lanes -/

namespace Lane.Pool

variable {τ : Type} {p : Pool τ} {ts : List Token} {t : Token}

/-- No lane but `ts` is known, and no other has a turn. -/
structure StaysOn (p : Pool τ) (ts : List Token) : Prop where
  known : p.lanes.map (·.1) ⊆ ts
  turns : p.turns ⊆ ts

theorem staysOn_empty (ts : List Token) : (empty : Pool τ).StaysOn ts :=
  ⟨List.nil_subset _, List.nil_subset _⟩

theorem StaysOn.setLane (h : p.StaysOn ts) (ht : t ∈ ts) (l : State τ) : (p.setLane t l).StaysOn ts := by
  rcases setLane_cases p t l with ⟨-, heq⟩ | ⟨-, heq⟩
  · rw [heq]
    exact ⟨(names_replaced p.lanes t l).symm ▸ h.known, h.turns⟩
  · rw [heq]
    refine ⟨?_, h.turns⟩
    rw [List.map_append]
    exact List.append_subset.2 ⟨h.known, List.cons_subset.2 ⟨ht, List.nil_subset _⟩⟩

theorem StaysOn.addTurn (h : p.StaysOn ts) (ht : t ∈ ts) : (p.addTurn t).StaysOn ts :=
  ⟨h.known, List.append_subset.2 ⟨h.turns, List.cons_subset.2 ⟨ht, List.nil_subset _⟩⟩⟩

theorem StaysOn.dispatch (h : p.StaysOn ts) (ht : t ∈ ts) (task : τ) : (p.dispatch t task).StaysOn ts := by
  rcases dispatch_cases p t task with ⟨-, heq⟩ | ⟨-, heq⟩
  · rw [heq]
    exact h.setLane ht _
  · rw [heq]
    exact (h.setLane ht _).addTurn ht

theorem StaysOn.endTurn (h : p.StaysOn ts) (ht : t ∈ ts) : (p.endTurn t).StaysOn ts := by
  unfold Pool.endTurn
  split
  · exact h.setLane ht _
  · exact h.addTurn ht

/-- The turn that is taken is on one of the lanes as well. -/
theorem StaysOn.beginTurn (h : p.StaysOn ts) {i : Nat} {p' : Pool τ} {task : Option τ}
    (hb : p.beginTurn i = some (p', t, task)) : p'.StaysOn ts ∧ t ∈ ts := by
  obtain ⟨u, hu, hresult⟩ := beginTurn_cases hb
  have hmem : u ∈ ts := h.turns (List.mem_of_getElem? hu)
  have hrest : StaysOn { p with turns := p.turns.eraseIdx i } ts :=
    ⟨h.known, fun v hv => h.turns (List.mem_of_mem_eraseIdx hv)⟩
  rcases hresult with ⟨-, heq⟩ | ⟨task', tasks, -, heq⟩
  · cases heq
    exact ⟨hrest.setLane hmem _, hmem⟩
  · cases heq
    exact ⟨hrest.setLane hmem _, hmem⟩

end Lane.Pool

namespace Router

open Connection (Act)

namespace Visitor

/-- The visitor of `id` with so many batch lanes. -/
def BelongsTo (v : Visitor) (id : ConnectionId) (m : Nat) : Prop :=
  v.connection = id ∧ v.batchLanes = max m 1

variable {v : Visitor} {id : ConnectionId} {m : Nat}

theorem BelongsTo.reply (h : v.BelongsTo id m) (r : Message.Reply) : (v.reply r).BelongsTo id m := by
  unfold Visitor.reply
  split <;> exact h

theorem BelongsTo.foldl_reply (h : v.BelongsTo id m) (rs : List Message.Reply) :
    (rs.foldl Visitor.reply v).BelongsTo id m := by
  induction rs generalizing v with
  | nil => exact h
  | cons r rs ih => exact ih (h.reply r)

theorem BelongsTo.settleBatch (h : v.BelongsTo id m) (batch : Nat) (n : UInt64)
    (join : Join Join.Tally String) (fired : Option (Join.Outcome Join.Tally String)) :
    (v.settleBatch batch n join fired).BelongsTo id m := by
  obtain ⟨hconnection, hlanes, -⟩ := FanOut.settleBatch_frame v batch n join fired
  exact ⟨hconnection.trans h.1, hlanes.trans h.2⟩

theorem BelongsTo.runItem (h : v.BelongsTo id m) (task : ItemTask) : (v.runItem task).BelongsTo id m := by
  unfold Visitor.runItem
  split
  · exact h
  · split
    · exact h
    · exact h.settleBatch _ _ _ _

theorem BelongsTo.openGate (h : v.BelongsTo id m) (batch : Nat) : (v.openGate batch).BelongsTo id m := by
  unfold Visitor.openGate
  split
  · exact h
  · exact h.settleBatch _ _ _ _

theorem BelongsTo.laneOfItem_mem (h : v.BelongsTo id m) (n : Nat) : v.laneOfItem n ∈ id.lanes m := by
  obtain ⟨hconnection, hlanes⟩ := h
  rw [laneOfItem, hconnection, hlanes]
  exact ConnectionId.batchLane_mem_lanes (Nat.mod_lt _ (by omega))

end Visitor

namespace Connection

/-- The connection `id` is on its own lanes. -/
structure AtHome (c : Connection) (id : ConnectionId) (m : Nat) : Prop where
  lane : c.pipeline.lane = id.requestLane
  visitor : c.visitor.BelongsTo id m
  pool : c.pool.StaysOn (id.lanes m)

variable {c c' : Connection} {id : ConnectionId} {m : Nat}

theorem atHome_new (config : Config) (id : ConnectionId) : (new config id).AtHome id config.batchLanes where
  lane := rfl
  visitor := ⟨rfl, rfl⟩
  pool := Lane.Pool.staysOn_empty _

theorem AtHome.lane_mem (h : c.AtHome id m) : c.pipeline.lane ∈ id.lanes m :=
  h.lane ▸ List.mem_cons_self

theorem AtHome.dispatchDrain (h : c.AtHome id m) : c.dispatchDrain.AtHome id m :=
  ⟨h.lane, h.visitor, h.pool.dispatch h.lane_mem _⟩

theorem AtHome.endReading (h : c.AtHome id m) (result : Except ByteStream.RelayError Unit) :
    (c.endReading result).AtHome id m := by
  cases result with
  | ok _ => exact ⟨h.lane, h.visitor, h.pool⟩
  | error _ => exact ⟨h.lane, h.visitor, h.pool⟩

theorem AtHome.accept (h : c.AtHome id m) (x : Inbound) : (c.accept x).AtHome id m := by
  have hlane : (c.pipeline.enqueue x).1.lane = id.requestLane := h.lane
  unfold Connection.accept
  generalize c.pipeline.enqueue x = result at hlane ⊢
  obtain ⟨pipeline, admission⟩ := result
  have h' : AtHome { c with backlog := c.backlog.add, pipeline := pipeline } id m :=
    ⟨hlane, h.visitor, h.pool⟩
  dsimp only
  split
  · exact h'.dispatchDrain
  · exact h'

theorem AtHome.receive (h : c.AtHome id m) (bytes : Bytes) : (c.receive bytes).AtHome id m := by
  obtain ⟨reader, hcases⟩ := c.receive_cases bytes
  have h' : AtHome { c with reader := reader } id m := ⟨h.lane, h.visitor, h.pool⟩
  rcases hcases with ⟨e, heq, -⟩ | ⟨heq, -⟩ | ⟨chunk, heq, -⟩
  · rw [heq]
    exact h'.endReading _
  · rw [heq]
    exact h'
  · rw [heq]
    exact h'.accept _

theorem AtHome.takeTurn (h : c.AtHome id m) {i : Nat} (ht : c.takeTurn i = some c') :
    c'.AtHome id m := by
  obtain ⟨⟨pool, lane, task⟩, hbegin, rfl⟩ := Option.map_eq_some_iff.1 ht
  obtain ⟨hpool, hlane⟩ := h.pool.beginTurn hbegin
  cases task with
  | none => exact ⟨h.lane, h.visitor, hpool⟩
  | some task =>
    cases task with
    | item task => exact ⟨h.lane, h.visitor.runItem task, hpool.endTurn hlane⟩
    | drain =>
      have hpipeline : c.pipeline.beginDrain.1.lane = id.requestLane := by
        unfold Pipeline.beginDrain
        split <;> exact h.lane
      dsimp only
      generalize c.pipeline.beginDrain = result at hpipeline ⊢
      obtain ⟨pipeline, _ | batch⟩ := result
      · exact ⟨hpipeline, h.visitor, hpool.endTurn hlane⟩
      · exact ⟨hpipeline, h.visitor, hpool⟩

theorem AtHome.endDrain (h : c.AtHome id m) : c.endDrain.AtHome id m := by
  have hlane : c.pipeline.endDrain.1.lane = id.requestLane := h.lane
  unfold Connection.endDrain
  generalize c.pipeline.endDrain = result at hlane ⊢
  obtain ⟨pipeline, again⟩ := result
  have h' : AtHome { c with pipeline := pipeline, visiting := none } id m := ⟨hlane, h.visitor, h.pool⟩
  have hagain : AtHome
      (if again then Connection.dispatchDrain { c with pipeline := pipeline, visiting := none }
      else { c with pipeline := pipeline, visiting := none }) id m := by
    split
    · exact h'.dispatchDrain
    · exact h'
  exact ⟨hagain.lane, hagain.visitor, hagain.pool.endTurn hagain.lane_mem⟩

theorem AtHome.visit (h : c.AtHome id m) (hv : c.visit = some c') : c'.AtHome id m := by
  obtain ⟨v, -, rfl⟩ := Option.map_eq_some_iff.1 hv
  split
  · exact h.endDrain
  · exact ⟨h.lane, h.visitor, h.pool⟩
  · exact ⟨h.lane, h.visitor.foldl_reply _, h.pool⟩
  · rename_i number n item items rest
    exact ⟨h.lane, h.visitor, h.pool.dispatch (h.visitor.laneOfItem_mem n) _⟩
  · exact ⟨h.lane, h.visitor.openGate _, h.pool⟩

theorem AtHome.endWriting (h : c.AtHome id m) (result : Except ByteStream.RelayError Nat) :
    (c.endWriting result).AtHome id m := ⟨h.lane, h.visitor, h.pool⟩

theorem AtHome.collect (h : c.AtHome id m) (hc : c.collect = some c') : c'.AtHome id m := by
  obtain ⟨r, -, rfl⟩ := Option.map_eq_some_iff.1 hc
  dsimp only
  split <;> exact ⟨h.lane, h.visitor, h.pool⟩

theorem AtHome.step (h : c.AtHome id m) {a : Act} (hs : c.step a = some c') : c'.AtHome id m := by
  cases a with
  | receive bytes =>
    obtain ⟨-, -, -, rfl⟩ := of_step_receive hs
    exact h.receive bytes
  | hangUp =>
    obtain ⟨-, rfl⟩ := of_step_hangUp hs
    exact h.endReading _
  | readFails e =>
    obtain ⟨-, rfl⟩ := of_step_readFails hs
    exact h.endReading _
  | shutDown =>
    obtain ⟨-, rfl⟩ := of_step_shutDown hs
    exact h.endReading _
  | takeTurn i => exact h.takeTurn hs
  | visit => exact h.visit hs
  | collect => exact h.collect (of_step_collect hs).2
  | beginSending =>
    obtain ⟨-, -, rfl⟩ := of_step_beginSending hs
    exact ⟨h.lane, h.visitor, h.pool⟩
  | send n =>
    obtain ⟨front, -, htaken⟩ := Option.bind_eq_some_iff.1 (of_step_send hs).2
    simp only [Option.ite_none_right_eq_some, Option.some.injEq] at htaken
    rw [← htaken.2]
    exact ⟨h.lane, h.visitor, h.pool⟩
  | release =>
    obtain ⟨-, -, rfl⟩ := of_step_release hs
    exact ⟨h.lane, h.visitor, h.pool⟩
  | writeFails e =>
    obtain ⟨-, rfl⟩ := of_step_writeFails hs
    exact h.endWriting _
  | finish =>
    obtain ⟨-, rfl⟩ := of_step_finish hs
    exact h.endWriting _

theorem AtHome.run (h : c.AtHome id m) {acts : List Act} (hrun : c.run acts = some c') :
    c'.AtHome id m := by
  induction acts generalizing c with
  | nil =>
    cases hrun
    exact h
  | cons a acts ih =>
    obtain ⟨next, hstep, hrest⟩ := Option.bind_eq_some_iff.1 hrun
    exact ih (h.step hstep) hrest

end Connection

/-! ## No lane is shared -/

namespace Service

/-- Every connection has the id that its number gives it, and is on its own lanes. -/
structure AtHome (s : Service) (config : Config) (start : ConnectionId) : Prop where
  configured : s.config = config
  nextId : s.nextId = start.after s.connections.size
  connections : ∀ (i : Nat) (c : Connection), s.connections[i]? = some c →
    c.AtHome (start.after i) config.batchLanes

variable {s s' : Service} {config : Config} {start : ConnectionId}

theorem AtHome.accept (h : s.AtHome config start) : s.accept.AtHome config start where
  configured := h.configured
  nextId := by
    show s.nextId.next = start.after (s.connections.push _).size
    rw [Array.size_push, h.nextId, ConnectionId.next_after]
  connections := by
    intro i c hc
    change (s.connections.push _)[i]? = some c at hc
    rw [Array.getElem?_push] at hc
    split at hc
    · rename_i hi
      cases hc
      rw [hi, ← h.nextId, h.configured]
      exact Connection.atHome_new config s.nextId
    · exact h.connections i c hc

theorem AtHome.connection (h : s.AtHome config start) {j : Nat} {a : Connection.Act} {c c' : Connection}
    (hc : s.connections[j]? = some c) (hstep : c.step a = some c') :
    AtHome { s with connections := s.connections.setIfInBounds j c' } config start where
  configured := h.configured
  nextId := by
    rw [Array.size_setIfInBounds]
    exact h.nextId
  connections := by
    intro i d hd
    have hj := (Array.getElem?_eq_some_iff.1 hc).1
    change (s.connections.setIfInBounds j c')[i]? = some d at hd
    by_cases hi : j = i
    · subst hi
      rw [Array.getElem?_setIfInBounds_self_of_lt hj] at hd
      cases hd
      exact (h.connections j c hc).step hstep
    · rw [Array.getElem?_setIfInBounds_ne hi] at hd
      exact h.connections i d hd

theorem AtHome.step (h : s.AtHome config start) {a : Act} (hs : s.step a = some s') :
    s'.AtHome config start := by
  cases a with
  | accept =>
    simp only [Service.step] at hs
    split at hs
    · cases hs
      exact h.accept
    · cases hs
  | connection j a =>
    obtain ⟨c', hc', rfl⟩ := Option.map_eq_some_iff.1 hs
    obtain ⟨c, hc, hstep⟩ := Option.bind_eq_some_iff.1 hc'
    exact h.connection hc hstep
  | shutDown =>
    cases hs
    exact ⟨h.configured, h.nextId, h.connections⟩

/-- A service that begins to number its connections with `start`. -/
def startingAt (config : Config) (start : ConnectionId) : Service :=
  { new config with nextId := start }

theorem atHome_startingAt (config : Config) (start : ConnectionId) :
    (startingAt config start).AtHome config start where
  configured := rfl
  nextId := (ConnectionId.after_zero start).symm
  connections := fun _ _ hc => nomatch hc

theorem AtHome.run (h : s.AtHome config start) {acts : List Act} (hrun : s.run acts = some s') :
    s'.AtHome config start := by
  induction acts generalizing s with
  | nil =>
    cases hrun
    exact h
  | cons a acts ih =>
    obtain ⟨next, hstep, hrest⟩ := Option.bind_eq_some_iff.1 hrun
    exact ih (h.step hstep) hrest

/-- **Connections share no lane.** Of the ids that are given out from `start` on, whatever `start` is, take
two that are not given out at once and fewer than `2 ^ 64` apart. They differ, and with them all the lanes of
the two connections, however many batch lanes each is to have; the lanes of one connection differ from each
other. In any run of a service that gives these ids out, the connections with their numbers have these ids,
and the tasks and turns of each are on its own lanes, so no lane is used by both. -/
theorem connections_share_no_lane (start : ConnectionId) (count : Nat) {i j : Nat} {a b : ConnectionId}
    (ha : (start.take count)[i]? = some a) (hb : (start.take count)[j]? = some b) (hne : i ≠ j)
    (hij : i < j + UInt64.size) (hji : j < i + UInt64.size) :
    a ≠ b ∧ (∀ m m', (a.lanes m).Disjoint (b.lanes m')) ∧
      (∀ m, (a.lanes m).Nodup ∧ (b.lanes m).Nodup) ∧
      ∀ config acts s, (startingAt config start).run acts = some s →
        ∀ c c', s.connections[i]? = some c → s.connections[j]? = some c' →
          c.AtHome a config.batchLanes ∧ c'.AtHome b config.batchLanes ∧
            (c.pool.lanes.map (·.1)).Disjoint (c'.pool.lanes.map (·.1)) := by
  cases ConnectionId.eq_after_of_take ha
  cases ConnectionId.eq_after_of_take hb
  have hab : start.after i ≠ start.after j := ConnectionId.after_ne hne hij hji
  refine ⟨hab, ConnectionId.disjoint_lanes hab,
    fun m => ⟨ConnectionId.nodup_lanes _ m, ConnectionId.nodup_lanes _ m⟩, ?_⟩
  intro config acts s hrun c c' hc hc'
  have hs : s.AtHome config start := (atHome_startingAt config start).run hrun
  have hhome := hs.connections i c hc
  have hhome' := hs.connections j c' hc'
  refine ⟨hhome, hhome', fun t ht ht' => ?_⟩
  exact ConnectionId.disjoint_lanes hab _ _ (hhome.pool.known ht) (hhome'.pool.known ht')

/-- The circle is closed between the largest id and zero, and both connections receive a chunk. -/
theorem connections_share_no_lane_around_zero :
    let start : ConnectionId := ⟨18446744073709551615⟩
    let chunk (i : Nat) : List Act := [.connection i (.receive [0, 0, 0, 1]), .connection i (.receive [7])]
    let run := (startingAt .standard start).run ([.accept, .accept] ++ chunk 0 ++ chunk 1)
    run.map (fun s => s.connections.toList.map fun c => c.pool.lanes.map (·.1.name)) =
        some [["conn-18446744073709551615"], ["conn-0"]] ∧
      ∀ s, run = some s → ∀ c c', s.connections[0]? = some c → s.connections[1]? = some c' →
        (c.pool.lanes.map (·.1)).Disjoint (c'.pool.lanes.map (·.1)) := by
  intro start chunk run
  obtain ⟨-, -, -, hruns⟩ := connections_share_no_lane start 2 (i := 0) (j := 1) (a := start)
    (b := ⟨0⟩) (by decide) (by decide) (by decide) (by decide) (by decide)
  exact ⟨by decide +kernel, fun s hrun c c' hc hc' => (hruns .standard _ s hrun c c' hc hc').2.2⟩

end Service

end Router

end ChunkRouter
