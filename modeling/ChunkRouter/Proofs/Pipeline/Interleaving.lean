import ChunkRouter.Proofs.Pipeline.Draining

/-!
# Drain tasks, lock by lock

Some moves of a pipeline are several steps to the threads that make them. Closing closes the queue and
cancels the tasks after that; a task sees that it is not cancelled and takes its batch after that; one that
is to go on sees that the queue is open and is dispatched again after that. `Act` has the halves as well,
and with them what the guard of a batch does on a thread that unwinds already: it takes the batch for an
abandoned one and lowers the flag, while its task goes on.

Batches follow one upon another as long as there are no such slips, and `one_drain_task` concludes that
items are visited in the order they were accepted in, whoever runs the tasks.
-/

namespace ChunkRouter.Pipeline

open Work

variable {α : Type}

/-! ## Acts -/

/-- A move, or a step of one. -/
inductive Act (α : Type) where
  | move (m : Move α)
  /-- The queue is closed; its tasks are not cancelled yet. -/
  | closeQueue
  /-- The tasks of a closed queue are cancelled. -/
  | cancel
  /-- The task at place `i` takes its batch, which saw before that it was not cancelled. -/
  | take (i : Nat)
  /-- A task that was to be dispatched again saw the queue closed. -/
  | forgo
  /-- The guard of the task at place `i` lowers the flag, though the batch is not abandoned. -/
  | slip (i : Nat)

/-- The item an act offers. -/
def Act.offered? : Act α → Option α
  | .move m => m.offered?
  | _ => none

/-- The act takes no item away and holds none up. -/
def Act.Calm : Act α → Prop
  | .move m => m.Calm
  | .closeQueue => False
  | _ => True

def Act.isSlip : Act α → Bool
  | .slip _ => true
  | _ => false

namespace Drainage

/-- The first half of a closing. -/
def closeQueue (w : Drainage α) : Drainage α :=
  { w with pipeline := { w.pipeline with queue := w.pipeline.queue.close.1 } }

/-- The second half of a closing. -/
def cancel (w : Drainage α) : Drainage α := { w with pipeline := { w.pipeline with cancelled := true } }

/-- Do it. A task that is not there, or is at something else, does nothing, and only a closed queue has its
tasks cancelled and its dispatches forgone. -/
def act (slot : Nat) (w : Drainage α) : Act α → Drainage α
  | .move m => w.step slot m
  | .closeQueue => w.closeQueue
  | .cancel => if w.pipeline.queue.closed then w.cancel else w
  | .take i =>
    match w.tasks[i]? with
    | some .parked => w.take i
    | _ => w
  | .forgo => if w.pipeline.queue.closed then { w with due := w.due - 1 } else w
  | .slip i =>
    match w.tasks[i]? with
    | some (.running _) => { w with pipeline := w.pipeline.abandonDrain }
    | _ => w

def play (slot : Nat) (p : Pipeline α) (acts : List (Act α)) : Drainage α := acts.foldl (act slot) (new p)

/-! ## One task, and one more for each slip -/

section

variable {lane : Lane.Token} {slips : Nat} {w : Drainage α}

/-- A slip lowers the flag and ends no task. -/
theorem Manned.slip (h : w.Manned lane slips) :
    { w with pipeline := w.pipeline.abandonDrain }.Manned lane (slips + 1) := by
  have hmost := h.atMost
  have hbit := Bool.toNat_le w.pipeline.queue.processing
  refine ⟨?_, fun _ => Nat.zero_le _, h.cancelled, h.lane_eq, h.lanes⟩
  show w.due + w.tasks.length ≤ 0 + (slips + 1)
  omega

theorem Manned.act (h : w.Manned lane slips) (slot : Nat) (a : Act α) :
    (w.act slot a).Manned lane (slips + a.isSlip.toNat) := by
  cases a with
  | move m => exact h.step slot m
  | closeQueue => exact h.close
  | cancel =>
    simp only [Drainage.act]
    split
    · exact h.cancel (by assumption)
    · exact h
  | take i =>
    simp only [Drainage.act]
    split
    · exact h.take (by assumption)
    · exact h
  | forgo =>
    simp only [Drainage.act]
    split
    · rename_i hclosed
      have hmost : w.due - 1 + w.tasks.length ≤ w.due + w.tasks.length :=
        Nat.add_le_add_right (Nat.sub_le _ _) _
      exact ⟨Nat.le_trans hmost h.atMost, fun hopen => Bool.noConfusion (hclosed.symm.trans hopen),
        h.cancelled, h.lane_eq, h.lanes⟩
    · exact h
  | slip i =>
    simp only [Drainage.act]
    split
    · exact h.slip
    · exact ⟨Nat.le_succ_of_le h.atMost, h.atLeast, h.cancelled, h.lane_eq, h.lanes⟩

theorem Manned.act_of_not_slip (h : w.Manned lane slips) (slot : Nat) {a : Act α}
    (hslip : a.isSlip = false) : (w.act slot a).Manned lane slips := by
  have hact := h.act slot a
  rwa [hslip] at hact

theorem Manned.play (h : w.Manned lane slips) (slot : Nat) (acts : List (Act α)) :
    (acts.foldl (Drainage.act slot) w).Manned lane (slips + acts.countP Act.isSlip) := by
  induction acts generalizing w slips with
  | nil => exact h
  | cons a acts ih =>
    have hcount : slips + a.isSlip.toNat + acts.countP Act.isSlip = slips + (a :: acts).countP Act.isSlip := by
      rw [List.countP_cons]
      cases a.isSlip <;> simp [Nat.add_assoc, Nat.add_comm]
    exact hcount ▸ ih (h.act slot a)

end

/-! ## Order -/

/-- What was visited, then the batch under way, then what waits was accepted in this order. -/
def Ordered (w : Drainage α) : Prop :=
  ∃ cells, (w.pipeline.queue.closed = false → w.pipeline.queue.ring.Holds cells) ∧
    (w.visited ++ w.underway ++ cells.filterMap id).Sublist w.accepted

section

variable {lane : Lane.Token} {w : Drainage α} {i : Nat} {t : Task α}

theorem ordered_new (lane : Lane.Token) (settings : Settings) (started : Bool)
    (keep : α → Except Panic Bool) : (new (opened lane settings started keep)).Ordered :=
  ⟨[], fun _ => Ring.holds_new _ _, .slnil⟩

/-- Moves that leave the ring alone and only let a task take items away with it. -/
theorem Ordered.mono (h : w.Ordered) {w' : Drainage α} (hunderway : w'.underway.Sublist w.underway)
    (hvisited : w'.visited = w.visited) (haccepted : w'.accepted = w.accepted)
    (hring : w'.pipeline.queue.ring = w.pipeline.queue.ring)
    (hclosed : w'.pipeline.queue.closed = w.pipeline.queue.closed) : w'.Ordered := by
  obtain ⟨cells, hholds, hsub⟩ := h
  refine ⟨cells, fun hopen => hring ▸ hholds (hclosed.symm.trans hopen), ?_⟩
  rw [hvisited, haccepted]
  exact List.Sublist.trans ((hunderway.append_left _).append_right _) hsub

theorem underway_eraseIdx (w : Drainage α) (i : Nat) :
    ((w.tasks.eraseIdx i).flatMap Task.left).Sublist w.underway :=
  (List.eraseIdx_sublist w.tasks i).flatMap Task.left

theorem Ordered.enqueue (h : w.Ordered) (slot : Nat) (x : α) : (w.enqueue slot x).Ordered := by
  obtain ⟨cells, hholds, hsub⟩ := h
  unfold Drainage.enqueue Pipeline.enqueue
  split
  · exact ⟨cells, hholds, hsub⟩
  · by_cases hc : w.pipeline.queue.closed = true
    · rw [Queue.enqueue_of_closed hc]
      exact ⟨cells, hholds, hsub⟩
    · have hopen := eq_false_of_ne_true hc
      rw [Queue.enqueue_of_open hopen]
      refine ⟨cells ++ [some x], fun _ => (hholds hopen).push x, ?_⟩
      rw [List.filterMap_append, ← List.append_assoc]
      exact hsub.append_right [x]

theorem Ordered.clear (h : w.Ordered) : w.clear.Ordered := by
  obtain ⟨cells, hholds, hsub⟩ := h
  obtain ⟨panics, hclear⟩ := clear_eq w
  have hqueue := Queue.clear_eq w.pipeline.queue w.pipeline.keep
  rw [hclear]
  by_cases hc : w.pipeline.queue.closed = true
  · refine ⟨cells, fun hopen => ?_, hsub⟩
    have hopen' : (w.pipeline.queue.clear w.pipeline.keep).1.closed = false := hopen
    rw [hqueue] at hopen'
    exact Bool.noConfusion (hc.symm.trans hopen')
  · obtain ⟨cells', hholds', hsub'⟩ :=
      (hholds (eq_false_of_ne_true hc)).retain_sublist w.pipeline.keep
    refine ⟨cells', fun _ => ?_, List.Sublist.trans (List.Sublist.append_left hsub' _) hsub⟩
    show (w.pipeline.queue.clear w.pipeline.keep).1.ring.Holds cells'
    unfold Queue.clear
    rcases hr : w.pipeline.queue.ring.retain w.pipeline.keep with ⟨ring, panic | n⟩
    all_goals
      rw [hr] at hholds'
      exact hholds'

theorem Ordered.take (h : w.Ordered) (hm : w.Manned lane 0) (hi : w.tasks[i]? = some .parked) :
    (w.take i).Ordered := by
  have hleft := underway_eraseIdx w i
  obtain ⟨htasks, rfl, -, -⟩ := hm.alone hi
  unfold Drainage.take
  rcases w.pipeline.queue.take_cases with ⟨htake, -⟩ | ⟨ring, batch, htake, hopen, -⟩
  · rw [htake]
    exact h.mono hleft rfl rfl rfl rfl
  · obtain ⟨cells, hholds, hsub⟩ := h
    obtain ⟨k, hrest, hbatch⟩ := Queue.take_cells htake (hholds hopen)
    rw [htake]
    refine ⟨cells.drop k, fun _ => hrest, ?_⟩
    rw [← List.take_append_drop k cells, List.filterMap_append, ← hbatch] at hsub
    simpa [underway, htasks, Task.left] using hsub

theorem Ordered.begin (h : w.Ordered) (hm : w.Manned lane 0) (hi : w.tasks[i]? = some .parked) :
    (w.begin i).Ordered := by
  rw [begin_eq]
  split
  · exact h.mono (underway_eraseIdx w i) rfl rfl rfl rfl
  · exact h.take hm hi

theorem Ordered.visit (h : w.Ordered) (hm : w.Manned lane 0) {x : α} {rest : List α}
    (hi : w.tasks[i]? = some (.running (x :: rest))) : (w.visit i x rest).Ordered := by
  obtain ⟨htasks, rfl, -, -⟩ := hm.alone hi
  obtain ⟨cells, hholds, hsub⟩ := h
  refine ⟨cells, hholds, ?_⟩
  simpa [Drainage.visit, underway, htasks, Task.left] using hsub

theorem Ordered.closeQueue (h : w.Ordered) : w.closeQueue.Ordered := by
  obtain ⟨cells, hholds, hsub⟩ := h
  refine ⟨[], fun hopen => ?_, ?_⟩
  · have hclosed := congrArg Queue.closed (Queue.close_eq w.pipeline.queue)
    exact Bool.noConfusion (hclosed.symm.trans hopen)
  · rw [List.filterMap_nil, List.append_nil]
    exact List.Sublist.trans (List.sublist_append_left _ _) hsub

theorem Ordered.step (h : w.Ordered) (hm : w.Manned lane 0) (slot : Nat) (m : Move α) :
    (w.step slot m).Ordered := by
  cases m with
  | enqueue x => exact h.enqueue slot x
  | clear => exact h.clear
  | start =>
    simp only [Drainage.step, Drainage.start, Pipeline.start, Queue.start_eq]
    exact h.mono (List.Sublist.refl _) rfl rfl rfl rfl
  | stop => exact h
  | close => exact h.closeQueue
  | dispatch =>
    simp only [Drainage.step, Drainage.dispatch]
    split
    · exact h
    · refine h.mono ?_ rfl rfl rfl rfl
      simp [underway, Task.left]
  | begin i =>
    simp only [Drainage.step]
    split
    · exact h.begin hm (by assumption)
    · exact h
  | visit i =>
    simp only [Drainage.step]
    split
    · exact h.visit hm (by assumption)
    · exact h
  | finish i =>
    simp only [Drainage.step]
    split
    · unfold Drainage.finish Pipeline.endDrain
      rw [Queue.settle_eq]
      exact h.mono (underway_eraseIdx w i) rfl rfl rfl rfl
    · exact h
  | fail i =>
    simp only [Drainage.step]
    split
    · exact h.mono (underway_eraseIdx w i) rfl rfl rfl rfl
    · exact h

theorem Ordered.act (h : w.Ordered) (hm : w.Manned lane 0) (slot : Nat) {a : Act α} (hslip : a.isSlip = false) :
    (w.act slot a).Ordered := by
  cases a with
  | move m => exact h.step hm slot m
  | closeQueue => exact h.closeQueue
  | cancel =>
    simp only [Drainage.act]
    split <;> exact h
  | take i =>
    simp only [Drainage.act]
    split
    · exact h.take hm (by assumption)
    · exact h
  | forgo =>
    simp only [Drainage.act]
    split <;> exact h
  | slip i => cases hslip

theorem Ordered.play (h : w.Ordered) (hm : w.Manned lane 0) (slot : Nat) {acts : List (Act α)}
    (hslips : ∀ a ∈ acts, a.isSlip = false) : (acts.foldl (Drainage.act slot) w).Ordered := by
  induction acts generalizing w with
  | nil => exact h
  | cons a acts ih =>
    obtain ⟨hslip, hslips⟩ := List.forall_mem_cons.1 hslips
    exact ih (h.act hm slot hslip) (hm.act_of_not_slip slot hslip) hslips

end

/-! ## Runs that lose nothing -/

/-- Nothing was dropped, and what waits while the queue runs has a task. -/
structure Intact (w : Drainage α) : Prop where
  isOpen : w.pipeline.queue.closed = false
  items : ∃ items, w.pipeline.queue.Lists items ∧ w.visited ++ w.underway ++ items = w.accepted
  attended : w.pipeline.queue.started = true → w.pipeline.queue.isEmpty = false →
    w.pipeline.queue.processing = true

section

variable {lane : Lane.Token} {w : Drainage α} {i : Nat} {t : Task α}

theorem intact_new (lane : Lane.Token) (settings : Settings) (started : Bool)
    (keep : α → Except Panic Bool) : (new (opened lane settings started keep)).Intact where
  isOpen := rfl
  items := ⟨[], Queue.lists_new settings started, rfl⟩
  attended := fun _ h => by
    simp [new, opened, Pipeline.new, Queue.new, Queue.isEmpty, Ring.isEmpty, Ring.new] at h

theorem Intact.enqueue (h : w.Intact) {slot : Nat} {x : α}
    (hpanics : (w.enqueue slot x).panics = w.panics) :
    (w.enqueue slot x).Intact ∧ (w.enqueue slot x).accepted = w.accepted ++ [x] := by
  obtain ⟨items, hlists, hitems⟩ := h.items
  have hwait := hlists.enqueue h.isOpen x
  unfold Drainage.enqueue Pipeline.enqueue at hpanics ⊢
  split at hpanics
  · exact absurd hpanics (Nat.succ_ne_self _)
  · rw [Queue.enqueue_of_open h.isOpen] at hwait ⊢
    refine ⟨⟨h.isOpen, ⟨items ++ [x], hwait, ?_⟩, fun hstarted _ => ?_⟩, rfl⟩
    · rw [← List.append_assoc]
      exact congrArg (· ++ [x]) hitems
    · show (w.pipeline.queue.processing || w.pipeline.queue.started) = true
      rw [Bool.or_eq_true]
      exact .inr hstarted

theorem Intact.start (h : w.Intact) : w.start.Intact := by
  simp only [Drainage.start, Pipeline.start, Queue.start_eq]
  refine ⟨h.isOpen, h.items, fun _ hempty => ?_⟩
  have hnonempty : w.pipeline.queue.isEmpty = false := hempty
  simp [hnonempty]

theorem Intact.dispatch (h : w.Intact) : w.dispatch.Intact := by
  unfold Drainage.dispatch
  split
  · exact h
  · obtain ⟨items, hlists, hitems⟩ := h.items
    exact ⟨h.isOpen, ⟨items, hlists, by simpa [underway, Task.left] using hitems⟩, h.attended⟩

theorem Intact.take (h : w.Intact) (hm : w.Manned lane 0) (hi : w.tasks[i]? = some .parked) :
    (w.take i).Intact := by
  obtain ⟨htasks, rfl, -, hprocessing⟩ := hm.alone hi
  obtain ⟨items, hlists, hitems⟩ := h.items
  rw [underway, htasks] at hitems
  unfold Drainage.take
  rcases w.pipeline.queue.take_cases with ⟨htake, hstop⟩ | ⟨ring, batch, htake, -⟩
  · rw [htake]
    refine ⟨h.isOpen, ⟨items, hlists, ?_⟩, fun hstarted hempty => ?_⟩
    · rw [underway, htasks]
      exact hitems
    · have hstarted' : w.pipeline.queue.started = true := hstarted
      have hempty' : w.pipeline.queue.isEmpty = false := hempty
      simp [h.isOpen, hstarted', hempty'] at hstop
  · obtain ⟨rest, rfl, hrest, -⟩ := hlists.take htake
    rw [htake]
    refine ⟨h.isOpen, ⟨rest, hrest, ?_⟩, fun _ _ => hprocessing⟩
    simpa [underway, htasks, Task.left] using hitems

theorem Intact.begin (h : w.Intact) (hm : w.Manned lane 0) (hi : w.tasks[i]? = some .parked) :
    (w.begin i).Intact := by
  have hc : ¬ w.pipeline.cancelled = true := fun hc =>
    Bool.noConfusion (h.isOpen.symm.trans (hm.cancelled hc))
  rw [begin_eq, if_neg hc]
  exact h.take hm hi

theorem Intact.visit (h : w.Intact) (hm : w.Manned lane 0) {x : α} {rest : List α}
    (hi : w.tasks[i]? = some (.running (x :: rest))) : (w.visit i x rest).Intact := by
  obtain ⟨htasks, rfl, -, -⟩ := hm.alone hi
  obtain ⟨items, hlists, hitems⟩ := h.items
  refine ⟨h.isOpen, ⟨items, hlists, ?_⟩, h.attended⟩
  simpa [Drainage.visit, underway, htasks, Task.left] using hitems

theorem Intact.finish (h : w.Intact) (hm : w.Manned lane 0) (hi : w.tasks[i]? = some (.running [])) :
    (w.finish i).Intact := by
  obtain ⟨htasks, rfl, -, hprocessing⟩ := hm.alone hi
  obtain ⟨items, hlists, hitems⟩ := h.items
  unfold Drainage.finish Pipeline.endDrain
  rw [Queue.settle_eq]
  refine ⟨h.isOpen, ⟨items, hlists, ?_⟩, fun _ hempty => ?_⟩
  · simpa [underway, htasks, Task.left] using hitems
  · have hnonempty : w.pipeline.queue.isEmpty = false := hempty
    simp [hprocessing, hnonempty]

/-- A calm move that does not panic loses nothing. -/
theorem Intact.step (h : w.Intact) (hm : w.Manned lane 0) {slot : Nat} {m : Move α} (hcalm : m.Calm)
    (hpanics : (w.step slot m).panics = w.panics) : (w.step slot m).Intact := by
  cases m with
  | enqueue x => exact (h.enqueue hpanics).1
  | clear => exact hcalm.elim
  | stop => exact hcalm.elim
  | close => exact hcalm.elim
  | start => exact h.start
  | dispatch => exact h.dispatch
  | begin i =>
    simp only [Drainage.step]
    split
    · exact h.begin hm (by assumption)
    · exact h
  | visit i =>
    simp only [Drainage.step]
    split
    · exact h.visit hm (by assumption)
    · exact h
  | finish i =>
    simp only [Drainage.step]
    split
    · exact h.finish hm (by assumption)
    · exact h
  | fail i =>
    simp only [Drainage.step] at hpanics ⊢
    split at hpanics
    · exact absurd hpanics (Nat.succ_ne_self _)
    · exact h

/-- Halves of moves and slips do not panic, and accept nothing. -/
theorem le_panics_act (slot : Nat) (w : Drainage α) (a : Act α) :
    w.panics ≤ (w.act slot a).panics ∧ (a.offered? = none → (w.act slot a).accepted = w.accepted) := by
  cases a with
  | move m => exact le_panics_step slot w m
  | closeQueue => exact ⟨Nat.le_refl _, fun _ => rfl⟩
  | cancel =>
    simp only [Drainage.act]
    split <;> exact ⟨Nat.le_refl _, fun _ => rfl⟩
  | take i =>
    simp only [Drainage.act, Drainage.take]
    split
    · split <;> exact ⟨Nat.le_refl _, fun _ => rfl⟩
    · exact ⟨Nat.le_refl _, fun _ => rfl⟩
  | forgo =>
    simp only [Drainage.act]
    split <;> exact ⟨Nat.le_refl _, fun _ => rfl⟩
  | slip i =>
    simp only [Drainage.act]
    split <;> exact ⟨Nat.le_refl _, fun _ => rfl⟩

theorem le_panics_play (slot : Nat) (w : Drainage α) (acts : List (Act α)) :
    w.panics ≤ (acts.foldl (Drainage.act slot) w).panics := by
  induction acts generalizing w with
  | nil => exact Nat.le_refl _
  | cons a acts ih => exact Nat.le_trans (le_panics_act slot w a).1 (ih _)

/-- A calm act that does not panic loses nothing, if it is no slip. -/
theorem Intact.act (h : w.Intact) (hm : w.Manned lane 0) {slot : Nat} {a : Act α} (hslip : a.isSlip = false)
    (hcalm : a.Calm) (hpanics : (w.act slot a).panics = w.panics) : (w.act slot a).Intact := by
  cases a with
  | move m => exact h.step hm hcalm hpanics
  | closeQueue => exact hcalm.elim
  | cancel =>
    simp only [Drainage.act, h.isOpen]
    exact h
  | take i =>
    simp only [Drainage.act]
    split
    · exact h.take hm (by assumption)
    · exact h
  | forgo =>
    simp only [Drainage.act, h.isOpen]
    exact h
  | slip i => cases hslip

/-- An act that does not panic accepts what it offers. -/
theorem Intact.accepted_act (h : w.Intact) {slot : Nat} {a : Act α}
    (hpanics : (w.act slot a).panics = w.panics) :
    (w.act slot a).accepted = w.accepted ++ a.offered?.toList := by
  cases ho : a.offered? with
  | none => rw [(le_panics_act slot w a).2 ho, Option.toList_none, List.append_nil]
  | some x =>
    cases a with
    | move m =>
      cases m with
      | enqueue y =>
        cases ho
        exact (h.enqueue hpanics).2
      | _ => cases ho
    | _ => cases ho

/-- A calm run in which nothing panics and no flag slips loses nothing, and accepts all that is offered. -/
theorem Intact.play (h : w.Intact) (hm : w.Manned lane 0) {slot : Nat} {acts : List (Act α)}
    (hslips : ∀ a ∈ acts, a.isSlip = false) (hcalm : ∀ a ∈ acts, a.Calm)
    (hpanics : (acts.foldl (Drainage.act slot) w).panics = w.panics) :
    (acts.foldl (Drainage.act slot) w).Intact ∧
      (acts.foldl (Drainage.act slot) w).accepted = w.accepted ++ acts.filterMap Act.offered? := by
  induction acts generalizing w with
  | nil => exact ⟨h, (List.append_nil _).symm⟩
  | cons a acts ih =>
    have hle := (le_panics_act slot w a).1
    have hle' := le_panics_play slot (w.act slot a) acts
    obtain ⟨hslip, hslips⟩ := List.forall_mem_cons.1 hslips
    rw [List.foldl_cons] at hpanics ⊢
    have hone : (w.act slot a).panics = w.panics := by omega
    obtain ⟨hintact, haccepted⟩ := ih (h.act hm hslip (hcalm a List.mem_cons_self) hone)
      (hm.act_of_not_slip slot hslip) hslips (fun a' ha' => hcalm a' (List.mem_cons_of_mem a ha')) (by omega)
    refine ⟨hintact, ?_⟩
    rw [haccepted, h.accepted_act hone, List.append_assoc]
    cases ho : a.offered? <;> simp [ho]

/-- A queue that runs and has no task left has no item left. -/
theorem Intact.visited_eq (h : w.Intact) (hm : w.Manned lane 0) (hdue : w.due = 0) (htasks : w.tasks = [])
    (hstarted : w.pipeline.queue.started = true) : w.visited = w.accepted := by
  obtain ⟨items, hlists, hitems⟩ := h.items
  have hnobody : w.pipeline.queue.processing = false := by
    have hexact := hm.exact h.isOpen
    rw [hdue, htasks] at hexact
    exact Bool.toNat_eq_zero.1 hexact.symm
  have hempty : w.pipeline.queue.isEmpty = true := by
    refine eq_true_of_ne_false fun hne => ?_
    exact Bool.noConfusion (hnobody.symm.trans (h.attended hstarted hne))
  rw [hlists.isEmpty_eq, List.isEmpty_iff] at hempty
  simpa [underway, htasks, hempty] using hitems

end

/-! ## What callers see -/

/-- Tasks that run inside the offer, and tasks that run at the end. -/
example :
    let inline : List (Move Nat) :=
      [.enqueue 1, .dispatch, .begin 0, .visit 0, .finish 0, .enqueue 2, .dispatch, .begin 0, .visit 0,
        .finish 0]
    let parked : List (Move Nat) :=
      [.enqueue 1, .enqueue 2, .dispatch, .begin 0, .visit 0, .finish 0, .dispatch, .begin 0, .visit 0,
        .finish 0]
    let p : Pipeline Nat := .new ⟨"lane"⟩ ⟨2, 1, 1, by decide, by decide⟩ true
    (run 8 p inline).visited = [1, 2] ∧ (run 8 p parked).visited = [1, 2] := by decide

/-- A slip under the first of three items: its task is dispatched again though the flag is down, and the
next item asks for another one. -/
example :
    let p : Pipeline Nat := .new ⟨"lane"⟩ ⟨4, 1, 1, by decide, by decide⟩ true
    let w := play 8 p [.move (.enqueue 1), .move (.enqueue 2), .move .dispatch, .move (.begin 0),
      .move (.visit 0), .slip 0, .move (.finish 0), .move (.enqueue 3)]
    w.due = 2 ∧ w.pipeline.queue.processing = true := by decide

end Drainage

end ChunkRouter.Pipeline
