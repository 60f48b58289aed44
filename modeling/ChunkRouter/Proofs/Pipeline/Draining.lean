import Mathlib.Data.List.Flatten
import ChunkRouter.Pipeline.Basic
import ChunkRouter.Proofs.Work.Conservation

/-!
# Drain tasks

A pipeline on an executor that is free to do as it likes: it may run a task as soon as it is
dispatched, or later, or never, and anybody may call the pipeline at any time, the visitor in the
middle of its batch included. `Drainage.Manned` says that the flag of the queue accounts for one drain
task and that there is no other.

No move here is the slip of a flag: no task hands its batch over on a thread that unwinds already. Closing,
beginning and finishing are one move each, whatever locks they take one after another.
-/

namespace ChunkRouter.Pipeline

open Work

variable {α : Type}

/-! ## Moves -/

/-- What a drain task that was dispatched is at. -/
inductive Task (α : Type) where
  /-- It waits on the executor. -/
  | parked
  /-- It hands its batch over; the items of it that are left. -/
  | running (batch : List α)

/-- The items a task is still to hand over. -/
def Task.left : Task α → List α
  | .parked => []
  | .running batch => batch

/-- A pipeline, its drain tasks and what came of its items. -/
structure Drainage (α : Type) where
  pipeline : Pipeline α
  /-- Dispatches that a call asked for and that are not made yet. -/
  due : Nat
  tasks : List (Task α)
  /-- The lanes of the dispatches, in order. -/
  dispatched : List Lane.Token
  /-- The items that were accepted, in order. -/
  accepted : List α
  /-- The items that were handed to the visitor, in order. -/
  visited : List α
  panics : Nat

/-- What happens next: a call, a dispatch that is due, or a step of the task at place `i`. It begins,
hands an item over, is done with its batch, or panics in the middle of it. -/
inductive Move (α : Type) where
  | enqueue (x : α)
  | clear
  | start
  | stop
  | close
  | dispatch
  | begin (i : Nat)
  | visit (i : Nat)
  | finish (i : Nat)
  | fail (i : Nat)

/-- The item a move offers. -/
def Move.offered? : Move α → Option α
  | .enqueue x => some x
  | _ => none

/-- The move takes no item away and holds none up. -/
def Move.Calm : Move α → Prop
  | .clear | .stop | .close => False
  | _ => True

/-- A pipeline before any call, whose clearings spare what `keep` says. -/
def opened (lane : Lane.Token) (settings : Settings) (started : Bool) (keep : α → Except Panic Bool) :
    Pipeline α := { new lane settings started with keep := keep }

namespace Drainage

def new (p : Pipeline α) : Drainage α := ⟨p, 0, [], [], [], [], 0⟩

/-- Offer an item that needs a slot of `slot` bytes. For want of memory the call panics. -/
def enqueue (slot : Nat) (w : Drainage α) (x : α) : Drainage α :=
  match w.pipeline.queue.reserveSlot slot with
  | .error _ => { w with panics := w.panics + 1 }
  | .ok () =>
    match w.pipeline.enqueue x with
    | (p, .refused) => { w with pipeline := p }
    | (p, .accepted wakes) =>
      { w with pipeline := p, accepted := w.accepted ++ [x], due := w.due + wakes.toNat }

def clear (w : Drainage α) : Drainage α :=
  match w.pipeline.clear with
  | (p, .ok _) => { w with pipeline := p }
  | (p, .error _) => { w with pipeline := p, panics := w.panics + 1 }

def start (w : Drainage α) : Drainage α :=
  match w.pipeline.start with
  | (p, wakes) => { w with pipeline := p, due := w.due + wakes.toNat }

/-- A task goes to the executor, on the lane of the pipeline. -/
def dispatch (w : Drainage α) : Drainage α :=
  if w.due = 0 then w
  else
    { w with
      due := w.due - 1
      tasks := w.tasks ++ [.parked]
      dispatched := w.dispatched ++ [w.pipeline.lane] }

/-- The task at place `i` takes a batch, or ends for want of one. -/
def take (w : Drainage α) (i : Nat) : Drainage α :=
  match w.pipeline.queue.take with
  | (q, none) => { w with pipeline := { w.pipeline with queue := q }, tasks := w.tasks.eraseIdx i }
  | (q, some batch) =>
    { w with pipeline := { w.pipeline with queue := q }, tasks := w.tasks.set i (.running batch) }

def begin (w : Drainage α) (i : Nat) : Drainage α :=
  match w.pipeline.beginDrain with
  | (p, none) => { w with pipeline := p, tasks := w.tasks.eraseIdx i }
  | (p, some batch) => { w with pipeline := p, tasks := w.tasks.set i (.running batch) }

def visit (w : Drainage α) (i : Nat) (x : α) (rest : List α) : Drainage α :=
  { w with tasks := w.tasks.set i (.running rest), visited := w.visited ++ [x] }

def finish (w : Drainage α) (i : Nat) : Drainage α :=
  match w.pipeline.endDrain with
  | (p, again) => { w with pipeline := p, tasks := w.tasks.eraseIdx i, due := w.due + again.toNat }

def fail (w : Drainage α) (i : Nat) : Drainage α :=
  { w with pipeline := w.pipeline.abandonDrain, tasks := w.tasks.eraseIdx i, panics := w.panics + 1 }

/-- Make a move. A task that is not there, or is at something else, does not move. -/
def step (slot : Nat) (w : Drainage α) : Move α → Drainage α
  | .enqueue x => w.enqueue slot x
  | .clear => w.clear
  | .start => w.start
  | .stop => { w with pipeline := w.pipeline.stop }
  | .close => { w with pipeline := w.pipeline.close.1 }
  | .dispatch => w.dispatch
  | .begin i =>
    match w.tasks[i]? with
    | some .parked => w.begin i
    | _ => w
  | .visit i =>
    match w.tasks[i]? with
    | some (.running (x :: rest)) => w.visit i x rest
    | _ => w
  | .finish i =>
    match w.tasks[i]? with
    | some (.running []) => w.finish i
    | _ => w
  | .fail i =>
    match w.tasks[i]? with
    | some (.running _) => w.fail i
    | _ => w

def run (slot : Nat) (p : Pipeline α) (moves : List (Move α)) : Drainage α :=
  moves.foldl (step slot) (new p)

/-- The items of the batches that are being handed over. -/
def underway (w : Drainage α) : List α := w.tasks.flatMap Task.left

/-- Clearing concerns the queue only; it may panic. -/
theorem clear_eq (w : Drainage α) :
    ∃ panics, w.clear =
      { w with
        pipeline := { w.pipeline with queue := (w.pipeline.queue.clear w.pipeline.keep).1 }
        panics := panics } := by
  unfold clear Pipeline.clear
  rcases w.pipeline.queue.clear w.pipeline.keep with ⟨q, panic | n⟩
  · exact ⟨_, rfl⟩
  · exact ⟨_, rfl⟩

/-- A task that is cancelled ends at once; any other takes a batch. -/
theorem begin_eq (w : Drainage α) (i : Nat) :
    w.begin i =
      if w.pipeline.cancelled = true then { w with tasks := w.tasks.eraseIdx i } else w.take i := by
  unfold begin take Pipeline.beginDrain
  by_cases hc : w.pipeline.cancelled = true
  · rw [if_pos hc, if_pos hc]
  · rw [if_neg hc, if_neg hc]
    rcases w.pipeline.queue.take with ⟨q, _ | batch⟩ <;> rfl

/-! ## One task -/

/-- The flag of the queue stands for one drain task, dispatched or about to be, and there are no others
but one for each of `slips` times that the flag was taken down over the head of its task. Closing loses the
flag's task, but never the flag's meaning. -/
structure Manned (lane : Lane.Token) (slips : Nat) (w : Drainage α) : Prop where
  atMost : w.due + w.tasks.length ≤ w.pipeline.queue.processing.toNat + slips
  atLeast : w.pipeline.queue.closed = false →
    w.pipeline.queue.processing.toNat ≤ w.due + w.tasks.length
  cancelled : w.pipeline.cancelled = true → w.pipeline.queue.closed = true
  lane_eq : w.pipeline.lane = lane
  lanes : ∀ l ∈ w.dispatched, l = lane

section

variable {lane : Lane.Token} {slips : Nat} {w : Drainage α} {i : Nat} {t : Task α}

/-- Without slips an open queue has a task just when its flag says so. -/
theorem Manned.exact (h : w.Manned lane 0) (hopen : w.pipeline.queue.closed = false) :
    w.due + w.tasks.length = w.pipeline.queue.processing.toNat :=
  Nat.le_antisymm h.atMost (h.atLeast hopen)

/-- Without slips a task that is there is alone. -/
theorem Manned.alone (h : w.Manned lane 0) (hi : w.tasks[i]? = some t) :
    w.tasks = [t] ∧ i = 0 ∧ w.due = 0 ∧ w.pipeline.queue.processing = true := by
  have hlt : i < w.tasks.length := (List.getElem?_eq_some_iff.1 hi).1
  have hmost := h.atMost
  have hbit := Bool.toNat_le w.pipeline.queue.processing
  have hone : w.tasks.length = 1 := by omega
  obtain ⟨t', ht'⟩ := List.length_eq_one_iff.1 hone
  have hzero : i = 0 := by omega
  refine ⟨?_, hzero, by omega, Bool.toNat_eq_one.1 (by omega)⟩
  rw [ht', hzero] at hi
  rw [ht']
  exact congrArg (fun t => [t]) (Option.some.inj hi)

/-- Calls that ask for no dispatch and leave the flag alone. -/
theorem Manned.pipeline (h : w.Manned lane slips) (p : Pipeline α) (panics : Nat)
    (hp : p.queue.processing = w.pipeline.queue.processing)
    (hclosed : p.queue.closed = false → w.pipeline.queue.closed = false)
    (hcancelled : p.cancelled = true → p.queue.closed = true) (hlane : p.lane = w.pipeline.lane) :
    { w with pipeline := p, panics := panics }.Manned lane slips where
  atMost := hp ▸ h.atMost
  atLeast := fun hopen => hp ▸ h.atLeast (hclosed hopen)
  cancelled := hcancelled
  lane_eq := hlane.trans h.lane_eq
  lanes := h.lanes

theorem manned_new (lane : Lane.Token) (settings : Settings) (started : Bool)
    (keep : α → Except Panic Bool) : (new (opened lane settings started keep)).Manned lane 0 :=
  ⟨Nat.le_refl 0, fun _ => Nat.le_refl 0, fun h => Bool.noConfusion h, rfl, nofun⟩

/-- The flag goes up exactly when a dispatch is asked for. -/
theorem Manned.wake (h : w.Manned lane slips) {q : Queue α} {wakes : Bool} {accepted : List α}
    (hp : q.processing = (w.pipeline.queue.processing || wakes))
    (hw : wakes = true → w.pipeline.queue.processing = false)
    (hclosed : q.closed = w.pipeline.queue.closed) :
    { w with
      pipeline := { w.pipeline with queue := q }
      accepted := accepted
      due := w.due + wakes.toNat }.Manned lane slips := by
  have hcount : q.processing.toNat = w.pipeline.queue.processing.toNat + wakes.toNat := by
    cases wakes
    · rw [hp, Bool.or_false]
      rfl
    · rw [hp, hw rfl]
      rfl
  have hmost := h.atMost
  refine ⟨?_, fun hopen => ?_, fun hc => hclosed.trans (h.cancelled hc), h.lane_eq, h.lanes⟩
  · show w.due + wakes.toNat + w.tasks.length ≤ q.processing.toNat + slips
    omega
  · have hleast := h.atLeast (hclosed.symm.trans hopen)
    show q.processing.toNat ≤ w.due + wakes.toNat + w.tasks.length
    omega

/-- A task that is there ends; it may ask to be dispatched again, and then the flag stays as it is. -/
theorem Manned.leave (h : w.Manned lane slips) (hi : w.tasks[i]? = some t) (q : Queue α) (again : Bool)
    (panics : Nat)
    (hmost : w.pipeline.queue.processing.toNat + again.toNat ≤ q.processing.toNat + 1)
    (hleast : q.closed = false → q.processing.toNat ≤ again.toNat)
    (hcancelled : w.pipeline.cancelled = true → q.closed = true) :
    { w with
      pipeline := { w.pipeline with queue := q }
      tasks := w.tasks.eraseIdx i
      due := w.due + again.toNat
      panics := panics }.Manned lane slips := by
  have hlt : i < w.tasks.length := (List.getElem?_eq_some_iff.1 hi).1
  have hone : (w.tasks.eraseIdx i).length = w.tasks.length - 1 := by
    rw [List.length_eraseIdx, if_pos hlt]
  have hall := h.atMost
  refine ⟨?_, fun hopen => ?_, hcancelled, h.lane_eq, h.lanes⟩
  · show w.due + again.toNat + (w.tasks.eraseIdx i).length ≤ q.processing.toNat + slips
    omega
  · have hagain := hleast hopen
    show q.processing.toNat ≤ w.due + again.toNat + (w.tasks.eraseIdx i).length
    omega

/-- A task that is there turns to something else. -/
theorem Manned.set (h : w.Manned lane slips) (q : Queue α) (visited : List α)
    (hp : q.processing = w.pipeline.queue.processing) (hclosed : q.closed = w.pipeline.queue.closed) :
    { w with
      pipeline := { w.pipeline with queue := q }
      tasks := w.tasks.set i t
      visited := visited }.Manned lane slips := by
  have hlength : (w.tasks.set i t).length = w.tasks.length := List.length_set
  refine ⟨?_, fun hopen => ?_, fun hc => hclosed.trans (h.cancelled hc), h.lane_eq, h.lanes⟩
  · show w.due + (w.tasks.set i t).length ≤ q.processing.toNat + slips
    rw [hlength, hp]
    exact h.atMost
  · show q.processing.toNat ≤ w.due + (w.tasks.set i t).length
    rw [hlength, hp]
    exact h.atLeast (hclosed.symm.trans hopen)

theorem Manned.enqueue (h : w.Manned lane slips) (slot : Nat) (x : α) : (w.enqueue slot x).Manned lane slips := by
  unfold Drainage.enqueue Pipeline.enqueue
  split
  · exact h.pipeline w.pipeline _ rfl id h.cancelled rfl
  · cases hc : w.pipeline.queue.closed
    · rw [Queue.enqueue_of_open hc]
      refine h.wake ?_ ?_ rfl
      · cases w.pipeline.queue.processing <;> simp
      · simp
    · rw [Queue.enqueue_of_closed hc]
      exact h.pipeline { w.pipeline with queue := _ } w.panics rfl id h.cancelled rfl

theorem Manned.clear (h : w.Manned lane slips) : w.clear.Manned lane slips := by
  obtain ⟨panics, hclear⟩ := clear_eq w
  have hqueue := Queue.clear_eq w.pipeline.queue w.pipeline.keep
  have hc : (w.pipeline.queue.clear w.pipeline.keep).1.closed = _ := congrArg Queue.closed hqueue
  have hp : (w.pipeline.queue.clear w.pipeline.keep).1.processing = _ :=
    congrArg Queue.processing hqueue
  rw [hclear]
  refine h.pipeline _ panics hp hc.symm.trans (fun hcancelled => ?_) rfl
  exact hc.trans (h.cancelled hcancelled)

theorem Manned.start (h : w.Manned lane slips) : w.start.Manned lane slips := by
  unfold Drainage.start Pipeline.start
  rw [Queue.start_eq]
  refine h.wake ?_ ?_ rfl
  · cases w.pipeline.queue.processing <;> simp
  · cases w.pipeline.queue.processing <;> simp

theorem Manned.dispatch (h : w.Manned lane slips) : w.dispatch.Manned lane slips := by
  unfold Drainage.dispatch
  split
  · exact h
  · rename_i hdue
    have hsum : w.due - 1 + (w.tasks ++ [Task.parked]).length = w.due + w.tasks.length := by
      rw [List.length_append, List.length_singleton]
      omega
    refine ⟨Nat.le_trans (Nat.le_of_eq hsum) h.atMost,
      fun hopen => Nat.le_trans (h.atLeast hopen) (Nat.le_of_eq hsum.symm), h.cancelled, h.lane_eq, ?_⟩
    intro l hl
    rcases List.mem_append.1 hl with hl | hl
    · exact h.lanes l hl
    · exact (List.mem_singleton.1 hl).trans h.lane_eq

theorem Manned.take (h : w.Manned lane slips) (hi : w.tasks[i]? = some t) : (w.take i).Manned lane slips := by
  unfold Drainage.take
  rcases w.pipeline.queue.take_cases with ⟨htake, -⟩ | ⟨ring, batch, htake, -⟩
  · rw [htake]
    exact h.leave hi { w.pipeline.queue with processing := false } false w.panics (Bool.toNat_le _)
      (fun _ => Nat.le_refl 0) h.cancelled
  · rw [htake]
    exact h.set { w.pipeline.queue with ring := ring } w.visited rfl rfl

theorem Manned.begin (h : w.Manned lane slips) (hi : w.tasks[i]? = some t) :
    (w.begin i).Manned lane slips := by
  rw [begin_eq]
  split
  · rename_i hc
    have hclosed := h.cancelled hc
    exact h.leave hi w.pipeline.queue false w.panics (Nat.le_succ _)
      (fun hopen => Bool.noConfusion (hclosed.symm.trans hopen)) h.cancelled
  · exact h.take hi

theorem Manned.finish (h : w.Manned lane slips) (hi : w.tasks[i]? = some t) :
    (w.finish i).Manned lane slips := by
  have hmost : ∀ up empty closed : Bool,
      up.toNat + (!empty && !closed).toNat ≤ (up && !empty).toNat + 1 := by decide
  have hleast : ∀ up empty : Bool, (up && !empty).toNat ≤ (!empty && !false).toNat := by decide
  unfold Drainage.finish Pipeline.endDrain
  rw [Queue.settle_eq]
  refine h.leave hi _ _ w.panics (hmost _ _ _) (fun hopen => ?_) h.cancelled
  have hopen' : w.pipeline.queue.closed = false := hopen
  rw [hopen']
  exact hleast _ _

theorem Manned.fail (h : w.Manned lane slips) (hi : w.tasks[i]? = some t) :
    (w.fail i).Manned lane slips :=
  h.leave hi w.pipeline.queue.abandon false (w.panics + 1) (Bool.toNat_le _) (fun _ => Nat.le_refl 0)
    h.cancelled

theorem Manned.close (h : w.Manned lane slips) :
    { w with pipeline := { w.pipeline with queue := w.pipeline.queue.close.1 } }.Manned lane slips := by
  have hclose := Queue.close_eq w.pipeline.queue
  have hp := congrArg Queue.processing hclose
  have hc : w.pipeline.queue.close.1.closed = true := congrArg Queue.closed hclose
  refine h.pipeline _ w.panics hp (fun hopen => ?_) (fun _ => hc) rfl
  exact Bool.noConfusion (hc.symm.trans hopen)

/-- A closed pipeline is cancelled. -/
theorem Manned.cancel (h : w.Manned lane slips) (hclosed : w.pipeline.queue.closed = true) :
    { w with pipeline := { w.pipeline with cancelled := true } }.Manned lane slips :=
  h.pipeline _ w.panics rfl id (fun _ => hclosed) rfl

/-- Every move keeps to one task. -/
theorem Manned.step (h : w.Manned lane slips) (slot : Nat) (m : Move α) :
    (w.step slot m).Manned lane slips := by
  cases m with
  | enqueue x => exact h.enqueue slot x
  | clear => exact h.clear
  | start => exact h.start
  | stop => exact h.pipeline w.pipeline.stop w.panics rfl id h.cancelled rfl
  | close => exact h.close.cancel (congrArg Queue.closed (Queue.close_eq w.pipeline.queue))
  | dispatch => exact h.dispatch
  | begin i =>
    simp only [Drainage.step]
    split
    · exact h.begin (by assumption)
    · exact h
  | visit i =>
    simp only [Drainage.step]
    split
    · exact h.set w.pipeline.queue _ rfl rfl
    · exact h
  | finish i =>
    simp only [Drainage.step]
    split
    · exact h.finish (by assumption)
    · exact h
  | fail i =>
    simp only [Drainage.step]
    split
    · exact h.fail (by assumption)
    · exact h

theorem manned_run (slot : Nat) (lane : Lane.Token) (settings : Settings) (started : Bool)
    (keep : α → Except Panic Bool) (moves : List (Move α)) :
    (run slot (opened lane settings started keep) moves).Manned lane 0 := by
  unfold run
  suffices h : ∀ w : Drainage α, w.Manned lane 0 → (moves.foldl (Drainage.step slot) w).Manned lane 0
    from h _ (manned_new lane settings started keep)
  induction moves with
  | nil => exact fun w h => h
  | cons m moves ih => exact fun w h => ih _ (h.step slot m)

end

/-! ## Panics -/

/-- Panics are never taken back, and only offers are accepted. -/
theorem le_panics_step (slot : Nat) (w : Drainage α) (m : Move α) :
    w.panics ≤ (w.step slot m).panics ∧
      (m.offered? = none → (w.step slot m).accepted = w.accepted) := by
  cases m with
  | enqueue x =>
    refine ⟨?_, nofun⟩
    simp only [step, enqueue]
    split
    · exact Nat.le_succ _
    · split <;> exact Nat.le_refl _
  | clear =>
    simp only [step, clear]
    split
    · exact ⟨Nat.le_refl _, fun _ => rfl⟩
    · exact ⟨Nat.le_succ _, fun _ => rfl⟩
  | start => exact ⟨Nat.le_refl _, fun _ => rfl⟩
  | stop => exact ⟨Nat.le_refl _, fun _ => rfl⟩
  | close => exact ⟨Nat.le_refl _, fun _ => rfl⟩
  | dispatch =>
    simp only [step, dispatch]
    split <;> exact ⟨Nat.le_refl _, fun _ => rfl⟩
  | begin i =>
    simp only [step, begin]
    split
    · split <;> exact ⟨Nat.le_refl _, fun _ => rfl⟩
    · exact ⟨Nat.le_refl _, fun _ => rfl⟩
  | visit i =>
    simp only [step]
    split <;> exact ⟨Nat.le_refl _, fun _ => rfl⟩
  | finish i =>
    simp only [step]
    split <;> exact ⟨Nat.le_refl _, fun _ => rfl⟩
  | fail i =>
    simp only [step]
    split
    · exact ⟨Nat.le_succ _, fun _ => rfl⟩
    · exact ⟨Nat.le_refl _, fun _ => rfl⟩

theorem le_panics_foldl (slot : Nat) (w : Drainage α) (moves : List (Move α)) :
    w.panics ≤ (moves.foldl (step slot) w).panics := by
  induction moves generalizing w with
  | nil => exact Nat.le_refl _
  | cons m moves ih => exact Nat.le_trans (le_panics_step slot w m).1 (ih _)

end Drainage

end ChunkRouter.Pipeline
