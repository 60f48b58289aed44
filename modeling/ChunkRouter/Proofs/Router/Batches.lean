import ChunkRouter.Proofs.Join.Firing
import ChunkRouter.Proofs.Router.Answering

/-!
# Batches under way

A batch that is not answered yet has items that were handled, items that wait on lanes, and perhaps items
that are still to be dispatched, behind a shut gate. Its join counts those that wait and holds the sums of
those that were handled. What a visitor does for one batch keeps that, or ends it: then all items were
handled, and the reply that is sent is the right one.
-/

namespace ChunkRouter.Join

variable {ρ ε : Type} {j : Join ρ ε} {n : Nat} {blocked : Bool}
  {o : Outcome ρ ε}

/-! ## Joins that have not fired -/

/-- A join that has not fired, by what its callers know of it. -/
def Awaits (j : Join ρ ε) (n : Nat) (blocked : Bool) (o : Outcome ρ ε) : Prop :=
  j.Counts ⟨n, blocked, o, false⟩

theorem awaits_new : (new : Join ρ ε).Awaits 0 true .initial := counts_new

theorem Awaits.armed (h : j.Awaits n blocked o) : j.hasFired = false := h.shows.hasFired

/-- A join that has not fired waits for something. -/
theorem Awaits.not_settled (h : j.Awaits n blocked o) : ¬(n = 0 ∧ blocked = false) := by
  rintro ⟨hzero, hopen⟩
  exact Bool.noConfusion (h.settled hzero hopen)

theorem Countdown.settle_of_busy (h : ¬(n = 0 ∧ blocked = false)) :
    Countdown.settle ⟨n, blocked, o, false⟩ = (⟨n, blocked, o, false⟩, .ok none) :=
  if_neg fun hfire => h ⟨hfire.1, hfire.2.1⟩

theorem Countdown.settle_of_idle :
    Countdown.settle ⟨0, false, o, false⟩ = (⟨0, false, .initial, true⟩, .ok (some o)) :=
  if_pos ⟨rfl, rfl, rfl⟩

theorem Awaits.register (h : j.Awaits n blocked o) (hn : n + 1 < countLimit) :
    j.register.Awaits (n + 1) blocked o := by
  have hbusy : ¬(n + 1 = 0 ∧ blocked = false) := fun hfire => Nat.succ_ne_zero n hfire.1
  have hstep : Countdown.step (fun o _ _ => o) ⟨n, blocked, o, false⟩ .register =
      (⟨n + 1, blocked, o, false⟩, .ok none) := Countdown.settle_of_busy hbusy
  have hcall := (h.call (fun o _ _ => o) .register (by rw [hstep]; exact hn)).1
  rw [hstep] at hcall
  exact hcall

/-- After a call that leaves `n` outstanding, a join waits on, or has fired with what it summed up. -/
theorem Awaits.of_step {j' : Join ρ ε} {answer : Except JoinError (Option (Outcome ρ ε))}
    (hcounts : j'.Counts (Countdown.settle ⟨n, blocked, o, false⟩).1)
    (hanswer : answer = (Countdown.settle ⟨n, blocked, o, false⟩).2) :
    (answer = .ok none ∧ j'.Awaits n blocked o) ∨
      (answer = .ok (some o) ∧ n = 0 ∧ blocked = false ∧ j'.hasFired = true) := by
  by_cases hidle : n = 0 ∧ blocked = false
  · obtain ⟨rfl, rfl⟩ := hidle
    rw [Countdown.settle_of_idle] at hcounts hanswer
    exact .inr ⟨hanswer, rfl, rfl, hcounts.shows.hasFired⟩
  · rw [Countdown.settle_of_busy hidle] at hcounts hanswer
    exact .inl ⟨hanswer, hcounts⟩

theorem Awaits.complete (h : j.Awaits (n + 1) blocked o) (hn : n < countLimit)
    (aggregate : Aggregator ρ ε) (completion : Except ε ρ) :
    ∃ j' fired last, j.complete aggregate completion = (j', .ok fired) ∧
      ((fired = none ∧ j'.Awaits n blocked (aggregate o completion last)) ∨
        (fired = some (aggregate o completion last) ∧ n = 0 ∧ blocked = false ∧
          j'.hasFired = true)) := by
  have hstep : Countdown.step aggregate ⟨n + 1, blocked, o, false⟩ (.complete completion) =
      Countdown.settle ⟨n, blocked, aggregate o completion (n + 1 == 1), false⟩ := rfl
  have hsame : (Countdown.settle ⟨n, blocked, aggregate o completion (n + 1 == 1), false⟩).1.remaining =
      n := by
    unfold Countdown.settle
    split <;> rfl
  obtain ⟨hcounts, hanswer⟩ := h.call aggregate (.complete completion) (by rw [hstep, hsame]; exact hn)
  rw [hstep] at hcounts hanswer
  generalize hresult : j.complete aggregate completion = result
  have hcall : j.call aggregate (.complete completion) = result := hresult
  rw [hcall] at hcounts hanswer
  obtain ⟨j', answer⟩ := result
  rcases Awaits.of_step hcounts hanswer with ⟨hnone, hawaits⟩ | ⟨hsome, hzero, hopen, hfired⟩
  · exact ⟨j', none, _, by rw [← hnone], .inl ⟨rfl, hawaits⟩⟩
  · exact ⟨j', some _, _, by rw [← hsome], .inr ⟨rfl, hzero, hopen, hfired⟩⟩

theorem Awaits.unblock (h : j.Awaits n blocked o) :
    ∃ j' fired, j.unblock = (j', fired) ∧
      ((fired = none ∧ j'.Awaits n false o) ∨
        (fired = some o ∧ n = 0 ∧ j'.hasFired = true)) := by
  have hstep : Countdown.step (fun o _ _ => o) ⟨n, blocked, o, false⟩ .unblock =
      Countdown.settle ⟨n, false, o, false⟩ := rfl
  have hsame : (Countdown.settle ⟨n, false, o, false⟩).1.remaining = n := by
    unfold Countdown.settle
    split <;> rfl
  obtain ⟨hcounts, hanswer⟩ :=
    h.call (fun o _ _ => o) .unblock (by rw [hstep, hsame]; exact h.word.lt)
  rw [hstep] at hcounts hanswer
  rcases Awaits.of_step hcounts hanswer with ⟨hnone, hawaits⟩ | ⟨hsome, hzero, -, hfired⟩
  · exact ⟨_, _, rfl, .inl ⟨Except.ok.inj hnone, hawaits⟩⟩
  · exact ⟨_, _, rfl, .inr ⟨Except.ok.inj hsome, hzero, hfired⟩⟩

end ChunkRouter.Join

namespace ChunkRouter.Router

open Connection (Task Spreading)
open Join (Outcome Tally)
open Message (Reply Request)

/-! ## Batches -/

/-- A batch that is not answered. -/
structure Opened where
  /-- Its number among the batches. -/
  number : Nat
  /-- The number of its chunk. -/
  origin : Nat
  id : UInt64
  items : List Bytes

/-- The items of a batch among tasks. -/
def itemsOf (number : Nat) (tasks : List Task) : List Bytes :=
  tasks.filterMap fun
    | .item task => if task.batch = number then some task.item else none
    | .drain => none

/-- The items of a batch that are still to be dispatched. -/
def undispatched (number : Nat) : Option Spreading → List Bytes
  | some s => if s.number = number then s.rest else []
  | none => []

/-- Whether the items of a batch are still being dispatched. -/
def isShut (number : Nat) : Option Spreading → Bool
  | some s => s.number == number
  | none => false

theorem itemsOf_cons_item (number : Nat) (task : ItemTask) (tasks : List Task) :
    itemsOf number (.item task :: tasks) =
      if task.batch = number then task.item :: itemsOf number tasks else itemsOf number tasks := by
  unfold itemsOf
  rw [List.filterMap_cons]
  by_cases h : task.batch = number
  · simp only [if_pos h]
  · simp only [if_neg h]

theorem itemsOf_cons_drain (number : Nat) (tasks : List Task) :
    itemsOf number (.drain :: tasks) = itemsOf number tasks := rfl

theorem itemsOf_perm {tasks tasks' : List Task} (number : Nat) (h : tasks.Perm tasks') :
    (itemsOf number tasks).Perm (itemsOf number tasks') := h.filterMap _

theorem mem_itemsOf_iff {number : Nat} {tasks : List Task} {item : Bytes} :
    item ∈ itemsOf number tasks ↔ Task.item ⟨number, item⟩ ∈ tasks := by
  refine List.mem_filterMap.trans ⟨?_, fun hmem => ⟨_, hmem, if_pos rfl⟩⟩
  rintro ⟨task, hmem, htask⟩
  cases task with
  | drain => cases htask
  | item task =>
    simp only at htask
    split at htask
    · rename_i hnumber
      cases htask
      cases hnumber
      exact hmem
    · cases htask

/-- The join of a batch holds the sums of the handled items and counts those that wait. -/
structure Opened.Underway (o : Opened) (batches : Array Batch) (tasks : List Task)
    (spreading : Option Spreading) : Prop where
  size : o.items.length < 4294967295
  join : ∃ join outcome handled, batches[o.number]? = some ⟨o.id, join⟩ ∧
    join.Awaits (itemsOf o.number tasks).length (isShut o.number spreading) outcome ∧
    Tallied outcome handled ∧
    (handled ++ (itemsOf o.number tasks ++ undispatched o.number spreading)).Perm o.items

/-- How many batches have not fired. -/
def armed (batches : Array Batch) : Nat := batches.toList.countP fun b => !b.join.hasFired

section

variable {o : Opened} {batches batches' : Array Batch} {tasks tasks' : List Task}
  {spreading spreading' : Option Spreading}

/-- What is done for other batches does not matter. -/
theorem Opened.Underway.frame (h : o.Underway batches tasks spreading)
    (hbatch : batches'[o.number]? = batches[o.number]?)
    (htasks : (itemsOf o.number tasks').Perm (itemsOf o.number tasks))
    (hrest : undispatched o.number spreading' = undispatched o.number spreading)
    (hshut : isShut o.number spreading' = isShut o.number spreading) :
    o.Underway batches' tasks' spreading' := by
  obtain ⟨join, outcome, handled, hjoin, hawaits, htallied, hperm⟩ := h.join
  refine ⟨h.size, join, outcome, handled, hbatch.trans hjoin, ?_, htallied, ?_⟩
  · rw [htasks.length_eq, hshut]
    exact hawaits
  · rw [hrest]
    exact ((htasks.append_right _).append_left handled).trans hperm

/-- Something is left to do for a batch that is not answered. -/
theorem Opened.Underway.busy (h : o.Underway batches tasks spreading) :
    itemsOf o.number tasks ≠ [] ∨ isShut o.number spreading = true := by
  obtain ⟨join, outcome, handled, -, hawaits, -, -⟩ := h.join
  by_cases hitems : itemsOf o.number tasks = []
  · refine .inr (Bool.of_not_eq_false fun hopen => hawaits.not_settled ⟨?_, hopen⟩)
    rw [hitems, List.length_nil]
  · exact .inl hitems

theorem Opened.Underway.number_lt (h : o.Underway batches tasks spreading) :
    o.number < batches.size := by
  obtain ⟨join, outcome, handled, hjoin, -⟩ := h.join
  exact (Array.getElem?_eq_some_iff.1 hjoin).1

theorem armed_set {batch : Batch} {n : Nat} (h : batches[n]? = some batch) (new : Batch) :
    armed (batches.setIfInBounds n new) + (!batch.join.hasFired).toNat =
      armed batches + (!new.join.hasFired).toNat := by
  obtain ⟨hlt, rfl⟩ := Array.getElem?_eq_some_iff.1 h
  have hmem : batches[n] ∈ batches.toList := Array.getElem_mem_toList hlt
  rw [armed, armed, Array.toList_setIfInBounds, List.countP_set hlt, Array.getElem_toList]
  cases hold : batches[n].join.hasFired
  · have hpos : 0 < batches.toList.countP fun b => !b.join.hasFired :=
      List.countP_pos_iff.2 ⟨_, hmem, by rw [hold]; rfl⟩
    simp only [Bool.not_false, if_true]
    cases new.join.hasFired
    · show _ - 1 + 1 + 1 = _ + 1
      omega
    · show _ - 1 + 0 + 1 = _ + 0
      omega
  · simp only [Bool.not_true, Bool.false_eq_true, if_false]
    cases new.join.hasFired <;> rfl

theorem modify_eq_set {batch : Batch} {n : Nat} (h : batches[n]? = some batch) (f : Batch → Batch) :
    batches.modify n f = batches.setIfInBounds n (f batch) := by
  have hlt := (Array.getElem?_eq_some_iff.1 h).1
  refine Array.ext_getElem? fun i => ?_
  rw [Array.getElem?_modify]
  by_cases hi : n = i
  · subst hi
    rw [if_pos rfl, h, Array.getElem?_setIfInBounds_self_of_lt hlt]
    rfl
  · rw [if_neg hi, Array.getElem?_setIfInBounds_ne hi]

theorem armed_openBatch (v : Visitor) (id : UInt64) :
    armed (v.openBatch id).1.batches = armed v.batches + 1 := by
  rw [armed, armed, Visitor.openBatch, Array.toList_push, List.countP_append]
  rfl

/-- A batch that has an item more, or none of that number, has not fired for that. -/
theorem armed_registerItem (v : Visitor) (n : Nat) :
    armed (v.registerItem n).batches = armed v.batches := by
  cases hb : v.batches[n]? with
  | none =>
    refine congrArg armed (Array.ext_getElem? fun i => ?_)
    rw [Visitor.registerItem, Array.getElem?_modify]
    split
    · rename_i hi
      rw [← hi, hb]
      rfl
    · rfl
  | some b =>
    rw [Visitor.registerItem, modify_eq_set hb]
    exact Nat.add_right_cancel (armed_set hb _)

end

/-! ## What a visitor does for a batch -/

/-- A visitor has put the join of a batch back, and has replied if that was the end of the batch. -/
inductive Opened.Handled (o : Opened) (v : Visitor) (tasks : List Task)
    (spreading : Option Spreading) : Visitor → Prop
  | waits {batches : Array Batch} (hothers : ∀ n, n ≠ o.number → batches[n]? = v.batches[n]?)
      (harmed : armed batches = armed v.batches) (h : o.Underway batches tasks spreading) :
      Handled o v tasks spreading { v with batches := batches }
  | replies {batches : Array Batch} {r : Reply}
      (hothers : ∀ n, n ≠ o.number → batches[n]? = v.batches[n]?)
      (harmed : armed batches + 1 = armed v.batches) (hitems : itemsOf o.number tasks = [])
      (hopen : isShut o.number spreading = false)
      (hright : ∀ chunk, Request.decode chunk = .ok (.batch o.id o.items, []) → Answers chunk r) :
      Handled o v tasks spreading ({ v with batches := batches }.reply r)

section

variable {o : Opened} {v : Visitor} {tasks : List Task} {spreading : Option Spreading}

/-- A join that waits on is put back; one that fired is replied for. -/
theorem Opened.handled_settleBatch {join join' : Join Tally String} {outcome : Outcome Tally String}
    {handled : List Bytes} {fired : Option (Outcome Tally String)} (hsize : o.items.length < 4294967295)
    (hjoin : v.batches[o.number]? = some ⟨o.id, join⟩) (harmed : join.hasFired = false)
    (htallied : Tallied outcome handled)
    (hperm : (handled ++ (itemsOf o.number tasks ++ undispatched o.number spreading)).Perm o.items)
    (hfired : (fired = none ∧
        join'.Awaits (itemsOf o.number tasks).length (isShut o.number spreading) outcome) ∨
      (fired = some outcome ∧ (itemsOf o.number tasks).length = 0 ∧
        isShut o.number spreading = false ∧ join'.hasFired = true))
    (hopen : isShut o.number spreading = false → undispatched o.number spreading = []) :
    o.Handled v tasks spreading (v.settleBatch o.number o.id join' fired) := by
  have hlt : o.number < v.batches.size := (Array.getElem?_eq_some_iff.1 hjoin).1
  have hself : (v.batches.setIfInBounds o.number ⟨o.id, join'⟩)[o.number]? = some ⟨o.id, join'⟩ :=
    Array.getElem?_setIfInBounds_self_of_lt hlt
  have hothers : ∀ n, n ≠ o.number →
      (v.batches.setIfInBounds o.number ⟨o.id, join'⟩)[n]? = v.batches[n]? := fun n hn =>
    Array.getElem?_setIfInBounds_ne fun heq => hn heq.symm
  have hcount := armed_set hjoin ⟨o.id, join'⟩
  rw [harmed] at hcount
  rcases hfired with ⟨rfl, hawaits⟩ | ⟨rfl, hzero, hshut, hdone⟩
  · rw [hawaits.armed] at hcount
    exact .waits hothers (Nat.add_right_cancel hcount)
      ⟨hsize, join', outcome, handled, hself, hawaits, htallied, hperm⟩
  · rw [hdone] at hcount
    have hitems := List.eq_nil_of_length_eq_zero hzero
    rw [hitems, hopen hshut, List.append_nil, List.append_nil] at hperm
    exact .replies hothers hcount hitems hshut fun chunk hdecode =>
      answers_batchReply hdecode (htallied.perm hperm)

theorem undispatched_of_open {number : Nat} (h : isShut number spreading = false) :
    undispatched number spreading = [] := by
  unfold isShut at h
  unfold undispatched
  split
  · rename_i s
    exact if_neg (bne_iff_ne.1 (congrArg not h))
  · rfl

/-- The task of an item is run. -/
theorem Opened.Underway.runItem {item : Bytes}
    (h : o.Underway v.batches (.item ⟨o.number, item⟩ :: tasks) spreading) :
    o.Handled v tasks spreading (v.runItem ⟨o.number, item⟩) := by
  obtain ⟨join, outcome, handled, hjoin, hawaits, htallied, hperm⟩ := h.join
  rw [itemsOf_cons_item, if_pos rfl] at hawaits hperm
  have hlen := hperm.length_eq
  rw [List.cons_append, List.length_append, List.length_cons, List.length_append] at hlen
  have hsize := h.size
  have hrange : (itemsOf o.number tasks).length < Join.countLimit := by
    unfold Join.countLimit
    omega
  obtain ⟨join', fired, last, hcomplete, hfired⟩ :=
    hawaits.complete hrange Join.tally (Visitor.handleItem item)
  have hrun : v.runItem ⟨o.number, item⟩ = v.settleBatch o.number o.id join' fired := by
    unfold Visitor.runItem
    simp only [hjoin, hcomplete]
  rw [hrun]
  refine handled_settleBatch hsize hjoin hawaits.armed (htallied.tally (by omega) item last) ?_ hfired
    undispatched_of_open
  exact List.perm_middle.symm.trans hperm

/-- All items are dispatched, and the gate is opened. -/
theorem Opened.Underway.openGate {n : Nat} (h : o.Underway v.batches tasks (some ⟨o.number, n, []⟩)) :
    o.Handled v tasks none (v.openGate o.number) := by
  obtain ⟨join, outcome, handled, hjoin, hawaits, htallied, hperm⟩ := h.join
  have hrest : undispatched o.number (some ⟨o.number, n, []⟩) = [] := if_pos rfl
  rw [hrest] at hperm
  obtain ⟨join', fired, hunblock, hfired⟩ := hawaits.unblock
  have hopen : v.openGate o.number = v.settleBatch o.number o.id join' fired := by
    unfold Visitor.openGate
    simp only [hjoin, hunblock]
  rw [hopen]
  refine handled_settleBatch h.size hjoin hawaits.armed htallied hperm ?_ fun _ => rfl
  rcases hfired with hwaits | ⟨hsome, hzero, hdone⟩
  · exact .inl hwaits
  · exact .inr ⟨hsome, hzero, rfl, hdone⟩

/-- The next item is dispatched. -/
theorem Opened.Underway.registerItem {n : Nat} {item : Bytes} {rest : List Bytes}
    (h : o.Underway v.batches tasks (some ⟨o.number, n, item :: rest⟩)) :
    o.Underway (v.registerItem o.number).batches (.item ⟨o.number, item⟩ :: tasks)
        (some ⟨o.number, n + 1, rest⟩) ∧
      (∀ k, k ≠ o.number → (v.registerItem o.number).batches[k]? = v.batches[k]?) ∧
      armed (v.registerItem o.number).batches = armed v.batches := by
  obtain ⟨join, outcome, handled, hjoin, hawaits, htallied, hperm⟩ := h.join
  have hshut : isShut o.number (some ⟨o.number, n, item :: rest⟩) = true := beq_self_eq_true _
  have hshut' : isShut o.number (some ⟨o.number, n + 1, rest⟩) = true := beq_self_eq_true _
  have hrest : undispatched o.number (some ⟨o.number, n, item :: rest⟩) = item :: rest := if_pos rfl
  have hrest' : undispatched o.number (some ⟨o.number, n + 1, rest⟩) = rest := if_pos rfl
  have htasks : itemsOf o.number (.item ⟨o.number, item⟩ :: tasks) = item :: itemsOf o.number tasks := by
    rw [itemsOf_cons_item, if_pos rfl]
  rw [hshut] at hawaits
  rw [hrest] at hperm
  have hlen := hperm.length_eq
  rw [List.length_append, List.length_append, List.length_cons] at hlen
  have hsize := h.size
  have hregister := hawaits.register (by unfold Join.countLimit; omega)
  have hlt := (Array.getElem?_eq_some_iff.1 hjoin).1
  have hset : (v.registerItem o.number).batches =
      v.batches.setIfInBounds o.number ⟨o.id, join.register⟩ :=
    modify_eq_set hjoin fun b => { b with join := b.join.register }
  refine ⟨?_, ?_, armed_registerItem v o.number⟩ <;> rw [hset]
  · refine ⟨hsize, join.register, outcome, handled, Array.getElem?_setIfInBounds_self_of_lt hlt, ?_,
      htallied, ?_⟩
    · rw [hshut', htasks]
      exact hregister
    · rw [hrest', htasks]
      exact (List.perm_middle.symm.append_left handled).trans hperm
  · exact fun k hk => Array.getElem?_setIfInBounds_ne fun heq => hk heq.symm

/-- A batch is opened. -/
theorem Opened.underway_openBatch (v : Visitor) (origin : Nat) {id : UInt64} {items : List Bytes}
    (hsize : items.length < 4294967295) (hfresh : itemsOf v.batches.size tasks = []) :
    Opened.Underway ⟨v.batches.size, origin, id, items⟩ (v.openBatch id).1.batches tasks
        (some ⟨v.batches.size, 0, items⟩) ∧
      (∀ k, k < v.batches.size → (v.openBatch id).1.batches[k]? = v.batches[k]?) ∧
      armed (v.openBatch id).1.batches = armed v.batches + 1 := by
  have hpush : (v.openBatch id).1.batches = v.batches.push ⟨id, .new⟩ := rfl
  rw [hpush]
  refine ⟨⟨hsize, .new, .initial, [], Array.getElem?_push_size, ?_, tallied_initial, ?_⟩,
    fun k hk => ?_, ?_⟩
  · have hshut : isShut v.batches.size (some ⟨v.batches.size, 0, items⟩) = true := beq_self_eq_true _
    rw [hfresh, hshut]
    exact Join.awaits_new
  · have hrest : undispatched v.batches.size (some ⟨v.batches.size, 0, items⟩) = items := if_pos rfl
    rw [hfresh, hrest]
    exact List.Perm.refl items
  · rw [Array.getElem?_push_lt hk, Array.getElem?_eq_getElem hk]
  · exact armed_openBatch v id

end

end ChunkRouter.Router
