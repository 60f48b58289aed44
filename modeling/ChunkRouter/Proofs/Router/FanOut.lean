import Mathlib.Data.List.Induction
import Mathlib.Data.List.Perm.Basic
import ChunkRouter.Proofs.Router.Batches
import ChunkRouter.Router.Desk

/-!
# Fan-out

A batch on its own, under any executor: while its items are being registered and dispatched, the tasks of
those dispatched already are run in any order, and the gate may open with some of them still to be run.
`FanOut.Sound` tells from what was dispatched and run what the join holds, so the one reply that is sent
comes with the last of them or with the gate, and is the same for every schedule.
-/

namespace ChunkRouter.Router

open Join (Outcome Tally tally tallyFault)
open Message (Reply)

namespace Visitor

/-- Whether the task of an item would find that its join waits for no more completions. -/
def overruns (v : Visitor) (task : ItemTask) : Bool :=
  match v.batches[task.batch]? with
  | none => true
  | some b =>
    match (b.join.complete tally (handleItem task.item)).2 with
    | .error .overrun => true
    | .ok _ => false

/-- Whether the task of an item would take a sum out of its 32 bits. -/
def overflows (v : Visitor) (task : ItemTask) : Bool :=
  match v.batches[task.batch]? with
  | none => true
  | some b => (tallyFault b.join.outcome (handleItem task.item)).isSome

end Visitor

/-- A batch being spread over the lanes. -/
structure FanOut where
  visitor : Visitor
  /-- The number of the batch. -/
  number : Nat
  items : List Bytes
  /-- How many items are registered; the last of them may be yet to be dispatched. -/
  registered : Nat
  /-- The dispatches, in order. -/
  dispatched : List (Lane.Token × ItemTask)
  /-- The tasks that were dispatched and not run. -/
  parked : List ItemTask
  /-- The tasks that were run, in order. -/
  ran : List ItemTask
  isOpen : Bool
  /-- How many tasks overran their join. -/
  overruns : Nat
  /-- How many tasks took a sum out of range. -/
  overflows : Nat

namespace FanOut

/-- What happens next. -/
inductive Act where
  /-- The next item is registered. -/
  | register
  /-- The item that was registered is dispatched. -/
  | dispatch
  /-- The executor runs the `i`th of the tasks that wait. -/
  | run (i : Nat)
  /-- All items are dispatched, and the gate is opened. -/
  | openGate
  deriving DecidableEq, Repr

def new (v : Visitor) (id : UInt64) (items : List Bytes) : FanOut :=
  ⟨(v.openBatch id).1, (v.openBatch id).2, items, 0, [], [], [], false, 0, 0⟩

def register (s : FanOut) : FanOut :=
  { s with visitor := s.visitor.registerItem s.number, registered := s.registered + 1 }

def dispatch (s : FanOut) (item : Bytes) : FanOut :=
  { s with
    dispatched := s.dispatched ++ [(s.visitor.laneOfItem s.dispatched.length, ⟨s.number, item⟩)]
    parked := s.parked ++ [⟨s.number, item⟩] }

def runTask (s : FanOut) (i : Nat) (task : ItemTask) : FanOut :=
  { s with
    visitor := s.visitor.runItem task
    parked := s.parked.eraseIdx i
    ran := s.ran ++ [task]
    overruns := s.overruns + (s.visitor.overruns task).toNat
    overflows := s.overflows + (s.visitor.overflows task).toNat }

def openGate (s : FanOut) : FanOut :=
  { s with visitor := s.visitor.openGate s.number, isOpen := true }

/-- An act that may not happen yet, or no more, does nothing. -/
def step (s : FanOut) : Act → FanOut
  | .register =>
    if s.registered = s.dispatched.length ∧ s.registered < s.items.length then s.register else s
  | .dispatch =>
    match s.items[s.dispatched.length]? with
    | some item => if s.dispatched.length < s.registered then s.dispatch item else s
    | none => s
  | .run i =>
    match s.parked[i]? with
    | some task => s.runTask i task
    | none => s
  | .openGate =>
    if s.dispatched.length = s.items.length ∧ s.isOpen = false then s.openGate else s

def run (v : Visitor) (id : UInt64) (items : List Bytes) (acts : List Act) : FanOut :=
  acts.foldl step (new v id items)

/-- The tasks of a batch with their lanes, in order. -/
def plan (v : Visitor) (number : Nat) (items : List Bytes) : List (Lane.Token × ItemTask) :=
  items.mapIdx fun k item => (Visitor.batchLane v.connection (k % v.batchLanes), ⟨number, item⟩)

/-! ## What a schedule keeps -/

/-- Which items of a batch are registered, dispatched and run. -/
structure Ordered (v : Visitor) (items : List Bytes) (s : FanOut) : Prop where
  number : s.number = v.batches.size
  same : s.items = items
  lanes : s.visitor.connection = v.connection ∧ s.visitor.batchLanes = v.batchLanes
  order : s.dispatched = (plan v s.number items).take s.dispatched.length
  registered : s.dispatched.length ≤ s.registered ∧ s.registered ≤ s.dispatched.length + 1
  bound : s.registered ≤ items.length
  full : s.isOpen = true → s.dispatched.length = items.length
  once : (s.ran ++ s.parked).Perm (s.dispatched.map (·.2))

/-- The visitor has sent nothing for the batch, whose join waits for what is registered and not run. -/
def Waits (v : Visitor) (id : UInt64) (s : FanOut) : Prop :=
  s.visitor.sent = v.sent ∧ ∃ join outcome n, s.visitor.batches[s.number]? = some ⟨id, join⟩ ∧
    n + s.ran.length = s.registered ∧ join.Awaits n (!s.isOpen) outcome ∧
    Tallied outcome (s.ran.map ItemTask.item)

/-- The visitor has sent the reply to the batch. -/
def Answered (v : Visitor) (id : UInt64) (items : List Bytes) (s : FanOut) : Prop :=
  ∃ outcome, Tallied outcome items ∧ s.visitor.sent = (v.reply (Visitor.batchReply id outcome)).sent

/-- Where a batch stands. -/
structure Sound (v : Visitor) (id : UInt64) (items : List Bytes) (s : FanOut) : Prop
    extends Ordered v items s where
  listening : s.visitor.listening = v.listening
  quiet : s.overruns = 0 ∧ s.overflows = 0
  waits : ¬(s.isOpen = true ∧ s.parked = []) → s.Waits v id
  answered : s.isOpen = true → s.parked = [] → s.Answered v id items

section

variable {v : Visitor} {id : UInt64} {items : List Bytes} {s : FanOut}

theorem length_plan (v : Visitor) (number : Nat) (items : List Bytes) :
    (plan v number items).length = items.length := List.length_mapIdx

theorem map_plan (v : Visitor) (number : Nat) (items : List Bytes) :
    (plan v number items).map (·.2.item) = items := by
  refine List.ext_getElem? fun k => ?_
  rw [plan, List.getElem?_map, List.getElem?_mapIdx]
  cases items[k]? <;> rfl

theorem batch_of_mem_plan {number : Nat} {d : Lane.Token × ItemTask}
    (h : d ∈ plan v number items) : d.2.batch = number := by
  obtain ⟨k, hk, rfl⟩ := List.mem_mapIdx.1 h
  rfl

namespace Ordered

/-- While items are left to be registered or dispatched, the gate is shut. -/
theorem shut (h : s.Ordered v items) (hlt : s.dispatched.length < items.length) : s.isOpen = false :=
  Bool.eq_false_iff.2 fun hopen => Nat.ne_of_lt hlt (h.full hopen)

theorem batch_of_mem_parked (h : s.Ordered v items) {task : ItemTask} (hmem : task ∈ s.parked) :
    task.batch = s.number := by
  obtain ⟨d, hd, rfl⟩ := List.mem_map.1 (h.once.subset (List.mem_append_right s.ran hmem))
  rw [h.order] at hd
  exact batch_of_mem_plan (List.mem_of_mem_take hd)

theorem length_dispatched (h : s.Ordered v items) :
    s.ran.length + s.parked.length = s.dispatched.length := by
  have hlen := h.once.length_eq
  rwa [List.length_append, List.length_map] at hlen

/-- Once all tasks were run, their items are those of the batch. -/
theorem perm_items (h : s.Ordered v items) (hopen : s.isOpen = true) (hnone : s.parked = []) :
    (s.ran.map ItemTask.item).Perm items := by
  have hall : s.dispatched = plan v s.number items := by
    rw [h.order, h.full hopen, ← length_plan v s.number items, List.take_length]
  have honce := h.once.map ItemTask.item
  rw [hnone, List.append_nil, List.map_map, hall] at honce
  exact honce.trans (.of_eq (map_plan v s.number items))

end Ordered

theorem sound_new (v : Visitor) (id : UInt64) (items : List Bytes) :
    (new v id items).Sound v id items where
  number := rfl
  same := rfl
  lanes := ⟨rfl, rfl⟩
  order := rfl
  registered := ⟨Nat.le_refl 0, Nat.zero_le 1⟩
  bound := Nat.zero_le _
  full := fun h => Bool.noConfusion h
  once := .nil
  listening := rfl
  quiet := ⟨rfl, rfl⟩
  waits := fun _ => ⟨rfl, .new, .initial, 0, Array.getElem?_push_size, rfl, Join.awaits_new, tallied_initial⟩
  answered := fun h => Bool.noConfusion h

theorem Sound.waits_of_shut (h : s.Sound v id items) (hshut : s.isOpen = false) : s.Waits v id :=
  h.waits fun hand => Bool.false_ne_true (hshut.symm.trans hand.1)

theorem Sound.register (h : s.Sound v id items) (hsize : items.length < 4294967296)
    (hnext : s.registered = s.dispatched.length) (hlt : s.registered < items.length) :
    s.register.Sound v id items := by
  have hshut := h.shut (hnext ▸ hlt)
  obtain ⟨hsent, join, outcome, n, hjoin, hcount, hawaits, htallied⟩ := h.waits_of_shut hshut
  have hset : (s.visitor.registerItem s.number).batches =
      s.visitor.batches.setIfInBounds s.number ⟨id, join.register⟩ :=
    modify_eq_set hjoin fun b => { b with join := b.join.register }
  have hregister := hawaits.register (by unfold Join.countLimit; omega)
  refine ⟨⟨h.number, h.same, h.lanes, h.order, ?_, hlt, h.full, h.once⟩, h.listening, h.quiet,
    fun _ => ?_, h.answered⟩
  · show s.dispatched.length ≤ s.registered + 1 ∧ s.registered + 1 ≤ s.dispatched.length + 1
    omega
  · refine ⟨hsent, join.register, outcome, n + 1, ?_, ?_, hregister, htallied⟩
    · show (s.visitor.registerItem s.number).batches[s.number]? = _
      rw [hset]
      exact Array.getElem?_setIfInBounds_self_of_lt (Array.getElem?_eq_some_iff.1 hjoin).1
    · show n + 1 + s.ran.length = s.registered + 1
      omega

theorem Sound.dispatch (h : s.Sound v id items) {item : Bytes}
    (hitem : items[s.dispatched.length]? = some item) (hlt : s.dispatched.length < s.registered) :
    (s.dispatch item).Sound v id items := by
  have hshut := h.shut (Nat.lt_of_lt_of_le hlt h.bound)
  have hregistered := h.registered
  have hshape : (s.dispatch item).dispatched =
      s.dispatched ++ [(s.visitor.laneOfItem s.dispatched.length, ⟨s.number, item⟩)] := rfl
  have hlength : (s.dispatch item).dispatched.length = s.dispatched.length + 1 := List.length_append
  have hlane : s.visitor.laneOfItem s.dispatched.length =
      Visitor.batchLane v.connection (s.dispatched.length % v.batchLanes) := by
    rw [Visitor.laneOfItem, h.lanes.1, h.lanes.2]
  have hplan : (plan v s.number items)[s.dispatched.length]? =
      some (s.visitor.laneOfItem s.dispatched.length, ⟨s.number, item⟩) := by
    rw [plan, List.getElem?_mapIdx, hitem, hlane]
    rfl
  have hopen : (s.dispatch item).isOpen = true → False := fun hopen =>
    Bool.false_ne_true (hshut.symm.trans hopen)
  refine ⟨⟨h.number, h.same, h.lanes, ?_, ?_, h.bound, fun h => (hopen h).elim, ?_⟩, h.listening, h.quiet,
    fun _ => h.waits_of_shut hshut, fun h => (hopen h).elim⟩
  · rw [hlength, List.take_add_one]
    show s.dispatched ++ _ = List.take _ (plan v s.number items) ++ (plan v s.number items)[_]?.toList
    rw [← h.order, hplan]
    rfl
  · rw [hlength]
    show _ ≤ s.registered ∧ s.registered ≤ _
    omega
  · have honce := h.once.append_right [(⟨s.number, item⟩ : ItemTask)]
    rw [List.append_assoc] at honce
    rw [hshape, List.map_append]
    exact honce

/-! ## Completions and the gate -/

theorem sent_reply {w : Visitor} (r : Reply) (hlistening : w.listening = v.listening)
    (hsent : w.sent = v.sent) : (w.reply r).sent = (v.reply r).sent := by
  unfold Visitor.reply
  rw [hlistening]
  split
  · exact congrArg (r :: ·) hsent
  · exact hsent

/-- What a visitor is told by, apart from batches and replies, stays. -/
theorem settleBatch_frame (w : Visitor) (n : Nat) (id : UInt64) (join : Join Tally String)
    (fired : Option (Outcome Tally String)) :
    let w' := w.settleBatch n id join fired
    w'.connection = w.connection ∧ w'.batchLanes = w.batchLanes ∧ w'.listening = w.listening := by
  cases fired with
  | none => exact ⟨rfl, rfl, rfl⟩
  | some o =>
    unfold Visitor.settleBatch Visitor.reply
    cases w.listening <;> exact ⟨rfl, rfl, rfl⟩

/-- The join was told of a completion, or that its gate is open. If it fired, that was the end of the
batch; else it waits on. -/
theorem sound_settleBatch {s' : FanOut} {join join' : Join Tally String} {n : Nat}
    {outcome : Outcome Tally String} {fired : Option (Outcome Tally String)} (h : s'.Ordered v items)
    (hquiet : s'.overruns = 0 ∧ s'.overflows = 0) (hlistening : s.visitor.listening = v.listening)
    (hsent : s.visitor.sent = v.sent) (hjoin : s.visitor.batches[s'.number]? = some ⟨id, join⟩)
    (hvisitor : s'.visitor = s.visitor.settleBatch s'.number id join' fired)
    (hcount : n + s'.ran.length = s'.registered) (htallied : Tallied outcome (s'.ran.map ItemTask.item))
    (hfired : (fired = none ∧ join'.Awaits n (!s'.isOpen) outcome) ∨
      (fired = some outcome ∧ n = 0 ∧ s'.isOpen = true)) :
    s'.Sound v id items := by
  have hlength := h.length_dispatched
  have hregistered := h.registered
  have hbound := h.bound
  have hleft : s'.isOpen = true → n = s'.parked.length := fun hopen => by
    have hfull := h.full hopen
    omega
  refine ⟨h, ?_, hquiet, fun hbusy => ?_, fun hopen hnone => ?_⟩
  · rw [hvisitor, (settleBatch_frame s.visitor s'.number _ join' fired).2.2, hlistening]
  · rcases hfired with ⟨rfl, hawaits⟩ | ⟨-, rfl, hopen⟩
    · refine ⟨?_, join', outcome, n, ?_, hcount, hawaits, htallied⟩
      · rw [hvisitor]
        exact hsent
      · rw [hvisitor]
        exact Array.getElem?_setIfInBounds_self_of_lt (Array.getElem?_eq_some_iff.1 hjoin).1
    · exact absurd ⟨hopen, List.eq_nil_of_length_eq_zero (hleft hopen).symm⟩ hbusy
  · rcases hfired with ⟨-, hawaits⟩ | ⟨rfl, -, -⟩
    · rw [hopen] at hawaits
      rw [hnone] at hleft
      exact absurd ⟨hleft hopen, rfl⟩ hawaits.not_settled
    · refine ⟨outcome, htallied.perm (h.perm_items hopen hnone), ?_⟩
      rw [hvisitor]
      exact sent_reply _ hlistening hsent

/-- No sum of items that are not all handled yet leaves its range with one more. -/
theorem tallyFault_eq_none {o : Outcome Tally String} {handled : List Bytes} (h : Tallied o handled)
    (hlen : handled.length + 1 < 4294967296) (item : Bytes) :
    tallyFault o (Visitor.handleItem item) = none := by
  have hsum := fullItems_add_emptyItems handled
  have haccepted := h.accepted
  have hrejected := h.rejected
  cases item with
  | nil =>
    refine if_neg ?_
    show ¬ 4294967296 ≤ (o.result.getD .zero).rejected.toNat + 1
    omega
  | cons b item =>
    refine (if_neg ?_).trans (if_neg ?_)
    · show ¬ 4294967296 ≤ (o.result.getD .zero).accepted.toNat + 1
      omega
    · show ¬ 4294967296 ≤ (o.result.getD .zero).rejected.toNat + 0
      omega

/-- A batch that waits for an item takes it without an overrun, and without a sum that leaves its range. -/
theorem quiet_of_awaits {w : Visitor} {join : Join Tally String} {outcome : Outcome Tally String}
    {number n : Nat} {blocked : Bool} {handled : List Bytes}
    (hjoin : w.batches[number]? = some ⟨id, join⟩) (hawaits : join.Awaits (n + 1) blocked outcome)
    (hn : n < Join.countLimit) (htallied : Tallied outcome handled)
    (hhandled : handled.length + 1 < 4294967296) (item : Bytes) :
    w.overruns ⟨number, item⟩ = false ∧ w.overflows ⟨number, item⟩ = false := by
  obtain ⟨join', fired, last, hcomplete, -⟩ := hawaits.complete hn tally (Visitor.handleItem item)
  constructor
  · unfold Visitor.overruns
    simp only [hjoin, hcomplete]
  · unfold Visitor.overflows
    simp only [hjoin]
    rw [hawaits.shows.outcome, tallyFault_eq_none htallied hhandled item]
    rfl

theorem Sound.runTask (h : s.Sound v id items) (hsize : items.length < 4294967296) {i : Nat}
    {task : ItemTask} (hi : s.parked[i]? = some task) : (s.runTask i task).Sound v id items := by
  have hmem : task ∈ s.parked := List.mem_of_getElem? hi
  have hpos : 0 < s.parked.length := List.length_pos_of_mem hmem
  obtain ⟨number, item⟩ := task
  obtain rfl : number = s.number := h.batch_of_mem_parked hmem
  obtain ⟨hsent, join, outcome, n, hjoin, hcount, hawaits, htallied⟩ := h.waits fun hand => by
    rw [hand.2] at hpos
    exact Nat.lt_irrefl 0 hpos
  have hlength := h.length_dispatched
  have hregistered := h.registered
  have hbound := h.bound
  obtain ⟨m, rfl⟩ : ∃ m, n = m + 1 := ⟨n - 1, by omega⟩
  have hrange : m < Join.countLimit := by
    unfold Join.countLimit
    omega
  obtain ⟨join', fired, last, hcomplete, hfired⟩ :=
    hawaits.complete hrange tally (Visitor.handleItem item)
  have hrun : s.visitor.runItem ⟨s.number, item⟩ = s.visitor.settleBatch s.number id join' fired := by
    unfold Visitor.runItem
    simp only [hjoin, hcomplete]
  have hhandled : (s.ran.map ItemTask.item).length + 1 < 4294967296 := by
    rw [List.length_map]
    omega
  obtain ⟨hoverruns, hoverflows⟩ := quiet_of_awaits hjoin hawaits hrange htallied hhandled item
  have hframe := settleBatch_frame s.visitor s.number id join' fired
  have htake : (s.ran ++ [(⟨s.number, item⟩ : ItemTask)] ++ s.parked.eraseIdx i).Perm
      (s.ran ++ s.parked) := by
    obtain ⟨hlt, hget⟩ := List.getElem?_eq_some_iff.1 hi
    have hperm := List.getElem_cons_eraseIdx_perm hlt
    rw [hget] at hperm
    rw [List.append_assoc]
    exact hperm.append_left s.ran
  have hordered : (s.runTask i ⟨s.number, item⟩).Ordered v items := by
    refine ⟨h.number, h.same, ?_, h.order, h.registered, h.bound, h.full, htake.trans h.once⟩
    show (s.visitor.runItem _).connection = _ ∧ (s.visitor.runItem _).batchLanes = _
    rw [hrun, hframe.1, hframe.2.1]
    exact h.lanes
  have hsum : Tallied (tally outcome (Visitor.handleItem item) last)
      ((s.ran ++ [(⟨s.number, item⟩ : ItemTask)]).map ItemTask.item) := by
    refine (htallied.tally hhandled item last).perm ?_
    rw [List.map_append]
    exact (List.perm_append_singleton item _).symm
  refine sound_settleBatch (n := m) hordered ?_ h.listening hsent hjoin hrun ?_ hsum ?_
  · show s.overruns + (s.visitor.overruns _).toNat = 0 ∧ s.overflows + (s.visitor.overflows _).toNat = 0
    rw [hoverruns, hoverflows]
    exact h.quiet
  · show m + (s.ran ++ [_]).length = s.registered
    rw [List.length_append]
    show m + (s.ran.length + 1) = _
    omega
  · rcases hfired with hwaits | ⟨hsome, hzero, hopen, -⟩
    · exact .inl hwaits
    · rw [Bool.not_eq_false'] at hopen
      exact .inr ⟨hsome, hzero, hopen⟩

theorem Sound.openGate (h : s.Sound v id items) (hfull : s.dispatched.length = items.length)
    (hshut : s.isOpen = false) : s.openGate.Sound v id items := by
  obtain ⟨hsent, join, outcome, n, hjoin, hcount, hawaits, htallied⟩ := h.waits_of_shut hshut
  obtain ⟨join', fired, hunblock, hfired⟩ := hawaits.unblock
  have hopen : s.visitor.openGate s.number = s.visitor.settleBatch s.number id join' fired := by
    unfold Visitor.openGate
    simp only [hjoin, hunblock]
  have hframe := settleBatch_frame s.visitor s.number id join' fired
  have hordered : s.openGate.Ordered v items := by
    refine ⟨h.number, h.same, ?_, h.order, h.registered, h.bound, fun _ => hfull, h.once⟩
    show (s.visitor.openGate _).connection = _ ∧ (s.visitor.openGate _).batchLanes = _
    rw [hopen, hframe.1, hframe.2.1]
    exact h.lanes
  refine sound_settleBatch hordered h.quiet h.listening hsent hjoin hopen hcount htallied ?_
  rcases hfired with hwaits | ⟨hsome, hzero, -⟩
  · exact .inl hwaits
  · exact .inr ⟨hsome, hzero, rfl⟩

theorem Sound.step (h : s.Sound v id items) (hsize : items.length < 4294967296) (a : Act) :
    (s.step a).Sound v id items := by
  cases a with
  | register =>
    simp only [FanOut.step]
    split
    · rename_i hnext
      exact h.register hsize hnext.1 (h.same ▸ hnext.2)
    · exact h
  | dispatch =>
    simp only [FanOut.step]
    rw [h.same]
    split
    · rename_i item hitem
      split
      · rename_i hlt
        exact h.dispatch hitem hlt
      · exact h
    · exact h
  | run i =>
    simp only [FanOut.step]
    split
    · rename_i task hi
      exact h.runTask hsize hi
    · exact h
  | openGate =>
    simp only [FanOut.step]
    split
    · rename_i hlast
      exact h.openGate (hlast.1.trans (congrArg List.length h.same)) hlast.2
    · exact h

theorem sound_run (v : Visitor) (id : UInt64) (hsize : items.length < 4294967296) (acts : List Act) :
    (run v id items acts).Sound v id items := by
  induction acts using List.reverseRecOn with
  | nil => exact sound_new v id items
  | append_singleton acts a ih =>
    rw [run, List.foldl_append]
    exact ih.step hsize a

end

/-! ## Desks -/

/-- What dispatches come to on an executor. -/
def sentTo (e : Lane.Executor ItemTask) (ds : List (Lane.Token × ItemTask)) : Lane.Executor ItemTask :=
  ds.foldl (fun e d => (e.dispatch d.1 d.2).1) e

theorem sentTo_inline (ds : List (Lane.Token × ItemTask)) : sentTo .inline ds = .inline := by
  induction ds with
  | nil => rfl
  | cons d ds ih => exact ih

/-- A desk is about to spread the next item of a batch, if there is one. -/
structure Matches (e : Lane.Executor ItemTask) (s : FanOut) (d : Desk) : Prop where
  visitor : s.visitor = d.visitor
  executor : d.executor = sentTo e s.dispatched
  /-- Where tasks are run as they are dispatched, none waits. -/
  idle : d.executor = .inline → s.parked = []
  next : s.registered = s.dispatched.length
  shut : s.isOpen = false

section

variable {e : Lane.Executor ItemTask} {s : FanOut} {d : Desk} {item : Bytes}

theorem Matches.dispatch (h : s.Matches e d) (hitem : s.items[s.dispatched.length]? = some item) :
    ∃ (acts : List Act) (s' : FanOut), acts.foldl step s = s' ∧ s'.items = s.items ∧
      s'.number = s.number ∧ s'.dispatched.length = s.dispatched.length + 1 ∧
      s'.Matches e (Desk.dispatch { d with visitor := d.visitor.registerItem s.number }
        (d.visitor.laneOfItem s.dispatched.length) ⟨s.number, item⟩) := by
  obtain ⟨visitor, executor⟩ := d
  obtain ⟨rfl, hexecutor, hidle, hnext, hshut⟩ := h
  have hlt : s.dispatched.length < s.items.length := (List.getElem?_eq_some_iff.1 hitem).1
  have hregister : s.step .register = s.register := if_pos ⟨hnext, hnext ▸ hlt⟩
  have hdispatch : s.register.step .dispatch = s.register.dispatch item := by
    have hitem' : s.register.items[s.register.dispatched.length]? = some item := hitem
    simp only [step, hitem']
    exact if_pos (Nat.lt_succ_of_le (Nat.le_of_eq hnext.symm))
  have hlength : (s.register.dispatch item).dispatched.length = s.dispatched.length + 1 :=
    List.length_append
  have hnext' : (s.register.dispatch item).registered = (s.register.dispatch item).dispatched.length :=
    (congrArg (· + 1) hnext).trans hlength.symm
  have hsent : sentTo e (s.register.dispatch item).dispatched =
      ((sentTo e s.dispatched).dispatch (s.visitor.laneOfItem s.dispatched.length) ⟨s.number, item⟩).1 :=
    List.foldl_append
  rw [← show executor = sentTo e s.dispatched from hexecutor] at hsent
  have hacts : [Act.register, .dispatch].foldl step s = s.register.dispatch item := by
    rw [List.foldl_cons, hregister, List.foldl_cons, hdispatch, List.foldl_nil]
  cases executor with
  | inline =>
    have hwaiting : (s.register.dispatch item).parked = [⟨s.number, item⟩] :=
      congrArg (· ++ [_]) (hidle rfl)
    have hrun : (s.register.dispatch item).step (.run 0) =
        (s.register.dispatch item).runTask 0 ⟨s.number, item⟩ := by
      simp only [step, hwaiting]
      rfl
    refine ⟨[.register, .dispatch] ++ [.run 0], (s.register.dispatch item).runTask 0 ⟨s.number, item⟩, ?_,
      rfl, rfl, hlength, rfl, hsent.symm, fun _ => ?_, hnext', hshut⟩
    · rw [List.foldl_append, hacts, List.foldl_cons, hrun, List.foldl_nil]
    · show (s.register.dispatch item).parked.eraseIdx 0 = []
      rw [hwaiting]
      rfl
  | bench b =>
    exact ⟨_, _, hacts, rfl, rfl, hlength, rfl, hsent.symm, nofun, hnext', hshut⟩
  | pool p =>
    exact ⟨_, _, hacts, rfl, rfl, hlength, rfl, hsent.symm, nofun, hnext', hshut⟩

/-- A desk spreads a batch as one of the schedules does. -/
theorem Matches.dispatchItems {rest : List Bytes} (h : s.Matches e d)
    (hrest : s.items.drop s.dispatched.length = rest) (hle : s.dispatched.length ≤ s.items.length) :
    ∃ (acts : List Act) (s' : FanOut), acts.foldl step s = s' ∧ s'.items = s.items ∧
      s'.number = s.number ∧ s'.dispatched.length = s.items.length ∧
      s'.Matches e (Desk.dispatchItems s.number s.dispatched.length rest d) := by
  induction rest generalizing s d with
  | nil =>
    have hge := List.drop_eq_nil_iff.1 hrest
    exact ⟨[], s, rfl, rfl, rfl, Nat.le_antisymm hle hge, h⟩
  | cons item rest ih =>
    have hitem : s.items[s.dispatched.length]? = some item := by
      rw [← List.head?_drop, hrest]
      rfl
    obtain ⟨first, s₁, hfirst, hitems, hnumber, hlength, hmatches⟩ := h.dispatch hitem
    have hlt : s.dispatched.length < s.items.length := (List.getElem?_eq_some_iff.1 hitem).1
    have hrest₁ : s₁.items.drop s₁.dispatched.length = rest := by
      rw [hitems, hlength, ← List.drop_drop, hrest]
      rfl
    obtain ⟨second, s₂, hsecond, hitems₂, hnumber₂, hlength₂, hmatches₂⟩ :=
      ih hmatches hrest₁ (by rw [hitems, hlength]; exact hlt)
    rw [hnumber, hlength] at hmatches₂
    refine ⟨first ++ second, s₂, ?_, hitems₂.trans hitems, hnumber₂.trans hnumber,
      hlength₂.trans (congrArg List.length hitems), hmatches₂⟩
    rw [List.foldl_append, hfirst, hsecond]

end

/-- A desk visits a batch as one of the schedules does. -/
theorem visitBatch_eq_run (d : Desk) (id : UInt64) (items : List Bytes) :
    ∃ acts, let s := run d.visitor id items acts
      d.visitBatch id items = ⟨s.visitor, sentTo d.executor s.dispatched⟩ ∧ s.isOpen = true ∧
        (d.executor = .inline → s.parked = []) := by
  have hnew : (new d.visitor id items).Matches d.executor
      { d with visitor := (d.visitor.openBatch id).1 } :=
    ⟨rfl, rfl, fun _ => rfl, rfl, rfl⟩
  obtain ⟨acts, s, hacts, hitems, hnumber, hlength, hmatches⟩ := hnew.dispatchItems rfl (Nat.zero_le _)
  have hopen : s.step .openGate = s.openGate :=
    if_pos ⟨hlength.trans (congrArg _ hitems.symm), hmatches.shut⟩
  have hrun : run d.visitor id items (acts ++ [.openGate]) = s.openGate := by
    rw [run, List.foldl_append, hacts, List.foldl_cons, hopen, List.foldl_nil]
  refine ⟨acts ++ [.openGate], ?_⟩
  rw [hrun]
  refine ⟨?_, rfl, fun hinline => hmatches.idle ?_⟩
  · show (⟨(Desk.dispatchItems _ _ items _).visitor.openGate _, (Desk.dispatchItems _ _ items _).executor⟩ :
      Desk) = ⟨s.visitor.openGate s.number, sentTo d.executor s.dispatched⟩
    rw [hmatches.visitor, hnumber, ← hmatches.executor]
    rfl
  · rw [hmatches.executor, hinline]
    exact sentTo_inline _

end FanOut

/-! ## What clients see -/

theorem batchReply_eq {id : UInt64} {items : List Bytes} {outcome : Outcome Tally String}
    {good bad : UInt32} (h : Tallied outcome items) (hgood : good.toNat = fullItems items)
    (hbad : bad.toNat = emptyItems items) :
    Visitor.batchReply id outcome =
      .batchDone id good bad (if emptyItems items = 0 then none else some "empty batch item") := by
  have haccepted : (outcome.result.getD .zero).accepted = good :=
    UInt32.toNat_inj.1 (h.accepted.trans hgood.symm)
  have hrejected : (outcome.result.getD .zero).rejected = bad :=
    UInt32.toNat_inj.1 (h.rejected.trans hbad.symm)
  show Reply.batchDone id (outcome.result.getD .zero).accepted (outcome.result.getD .zero).rejected _ = _
  rw [haccepted, hrejected, h.error, firstFailure?_eq]

open FanOut in
/-- **A batch is answered once, and alike under every schedule.** Whenever the tasks of its items are run,
each from its own dispatch on: the items are dispatched in order, to the batch lanes in turn, and all of
them before the gate opens; a task that was dispatched is run once or waits, and none overruns the join
or takes a sum out of range; nothing is sent before the gate is open and all tasks were run, and then
there is one reply, which tells how many items were empty and how many were not. A desk that visits the
batch follows one of these schedules. -/
theorem one_reply_per_batch (v : Visitor) (id : UInt64) (items : List Bytes)
    (hsize : items.length < 4294967296) :
    (∃ good bad : UInt32, good.toNat = fullItems items ∧ bad.toNat = emptyItems items ∧
      ∀ acts, let s := run v id items acts
        s.dispatched = (plan v v.batches.size items).take s.dispatched.length ∧
        (s.isOpen = true → s.dispatched.length = items.length) ∧
        (s.ran ++ s.parked).Perm (s.dispatched.map (·.2)) ∧
        s.overruns = 0 ∧ s.overflows = 0 ∧
        s.visitor.sent = (if s.isOpen = true ∧ s.parked = [] then
            v.reply (.batchDone id good bad
              (if emptyItems items = 0 then none else some "empty batch item"))
          else v).sent) ∧
      ∀ executor, ∃ acts, let s := run v id items acts
        Desk.visitBatch ⟨v, executor⟩ id items = ⟨s.visitor, sentTo executor s.dispatched⟩ ∧
          s.isOpen = true ∧ (executor = .inline → s.parked = []) := by
  have hsum := fullItems_add_emptyItems items
  have hgood : (fullItems items).toUInt32.toNat = fullItems items := Nat.mod_eq_of_lt (by omega)
  have hbad : (emptyItems items).toUInt32.toNat = emptyItems items := Nat.mod_eq_of_lt (by omega)
  refine ⟨⟨_, _, hgood, hbad, fun acts => ?_⟩, fun executor => visitBatch_eq_run ⟨v, executor⟩ id items⟩
  intro s
  have h : s.Sound v id items := sound_run v id hsize acts
  refine ⟨h.number ▸ h.order, h.full, h.once, h.quiet.1, h.quiet.2, ?_⟩
  split
  · rename_i hdone
    obtain ⟨outcome, htallied, hsent⟩ := h.answered hdone.1 hdone.2
    rw [hsent, batchReply_eq htallied hgood hbad]
  · rename_i hbusy
    exact (h.waits hbusy).1

open FanOut in
/-- Two items on two lanes; the first is run while the second is registered, the second behind the open
gate. -/
theorem one_reply_per_batch_of_two :
    let s := run (.new ⟨3⟩ 2) 7 [[1], []]
      [.register, .dispatch, .register, .run 0, .dispatch, .openGate, .run 0]
    s.dispatched = [(⟨"conn-3/batch-0"⟩, ⟨0, [1]⟩), (⟨"conn-3/batch-1"⟩, ⟨0, []⟩)] ∧
      s.visitor.sent = [.batchDone 7 1 1 (some "empty batch item")] := by
  obtain ⟨⟨good, bad, hgood, hbad, h⟩, -⟩ := one_reply_per_batch (.new ⟨3⟩ 2) 7 [[1], []] (by decide)
  obtain ⟨hdispatched, -, -, -, -, hsent⟩ :=
    h [.register, .dispatch, .register, .run 0, .dispatch, .openGate, .run 0]
  have hone : good = 1 ∧ bad = 1 := ⟨UInt32.toNat_inj.1 hgood, UInt32.toNat_inj.1 hbad⟩
  rw [hone.1, hone.2] at hsent
  exact ⟨hdispatched.trans (by decide), hsent.trans (by decide)⟩

end ChunkRouter.Router
