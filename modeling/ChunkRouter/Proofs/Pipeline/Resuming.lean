import Mathlib.Data.List.Induction
import ChunkRouter.Proofs.Pipeline.Closing

/-!
# Visitors that panic

A visitor may panic at any item. Then the drain task is gone, and so is the rest of its batch; the
queue, which the batch had left already, is as the calls made since have left it, and nobody is at it.
`Custody` follows the batches beside a pipeline: it says which items of each were handed over, and a
ledger says what became of the others. `panics_cost_their_batches` concludes that nothing else is lost,
and that the next offer, or the next start, goes on with the first item that waits.

The predicate of clearings does not panic here; one that does loses items by itself.
-/

namespace ChunkRouter

open Work

variable {α : Type}

/-! ## Uses of the queue and the books -/

namespace Work

namespace Queue.Use

/-- A use that anybody makes, as against one that a drain task makes of the queue it drains. -/
def isCall : Use α → Bool
  | .take | .settle | .abandon => false
  | _ => true

/-- The call of a ledger that keeps the books of a use; its clearings keep what `p` says. -/
def call (p : α → Bool) : Use α → Call α
  | .enqueue x => .enqueue x
  | .take => .take
  | .settle => .settle
  | .abandon => .abandon
  | .clear _ => .clear p
  | .start => .start
  | .stop => .stop
  | .close => .close

/-- The item that a use adds to the queue, if there is memory for it. -/
def admitted (q : Queue α) : Use α → List α
  | .enqueue x => if q.closed then [] else [x]
  | _ => []

/-- The batch that a use takes out of the queue. -/
def batch (q : Queue α) : Use α → List α
  | .take => q.take.2.getD []
  | _ => []

end Queue.Use

namespace Ledger

/-- The item of an entry stays, whatever becomes of it. -/
theorem map_item_become (fate : Fate) (p : α → Bool) (es : List (Entry α)) :
    (es.map (Entry.become fate p)).map (·.item) = es.map (·.item) := by
  rw [List.map_map]
  refine List.map_congr_left fun e _ => ?_
  rw [Function.comp_apply, Entry.become]
  split <;> rfl

/-- The books of a use: the queue after it, the item it adds and the batch it takes. -/
theorem step_call {slot : Nat} {l : Ledger α} {u : Queue.Use α} {p : α → Bool}
    (hmemory : ∀ x, u = .enqueue x → l.queue.reserveSlot slot = .ok ())
    (hclear : ∀ keep, u = .clear keep → keep = fun x => .ok (p x)) :
    (l.step slot (u.call p)).queue = l.queue.use u ∧
      (l.step slot (u.call p)).entries.map (·.item) = l.entries.map (·.item) ++ u.admitted l.queue ∧
      (l.step slot (u.call p)).batches.flatten = l.batches.flatten ++ u.batch l.queue := by
  cases u with
  | enqueue x =>
    simp only [Queue.Use.call, step, enqueue, hmemory x rfl, Queue.use, Queue.Use.admitted, Queue.Use.batch]
    cases hclosed : l.queue.closed
    · simp [Queue.enqueue_of_open hclosed]
    · simp [Queue.enqueue_of_closed hclosed]
  | take =>
    simp only [Queue.Use.call, step, take, Queue.use, Queue.Use.admitted, Queue.Use.batch, List.append_nil]
    rcases l.queue.take_cases with ⟨htake, -⟩ | ⟨ring, batch, htake, -⟩
    · simp [htake]
    · simp [htake, map_item_deliver]
  | settle => exact ⟨rfl, (List.append_nil _).symm, (List.append_nil _).symm⟩
  | abandon => exact ⟨rfl, (List.append_nil _).symm, (List.append_nil _).symm⟩
  | clear keep =>
    obtain rfl := hclear keep rfl
    simp only [Queue.Use.call, step, clear, Queue.use, Queue.Use.admitted, Queue.Use.batch, List.append_nil]
    rcases l.queue.clear fun x => .ok (p x) with ⟨q, panic | n⟩
    · exact ⟨rfl, rfl, rfl⟩
    · exact ⟨rfl, map_item_become .cleared _ l.entries, rfl⟩
  | start => exact ⟨rfl, (List.append_nil _).symm, (List.append_nil _).symm⟩
  | stop => exact ⟨rfl, (List.append_nil _).symm, (List.append_nil _).symm⟩
  | close =>
    refine ⟨rfl, ?_, (List.append_nil _).symm⟩
    exact (map_item_become .closed _ l.entries).trans (List.append_nil _).symm

end Ledger

/-- A batch of a queue that runs is the front of what waits. -/
theorem Queue.Lists.take_eq {q : Queue α} {items : List α} (h : q.Lists items) (hopen : q.closed = false)
    (hstarted : q.started = true) (hne : items ≠ []) :
    ∃ ring, q.take = ({ q with ring := ring }, some (items.take q.bulkSize)) := by
  rcases q.take_cases with ⟨-, hclosed | hstopped | hempty⟩ | ⟨ring, batch, htake, -⟩
  · exact Bool.noConfusion (hopen.symm.trans hclosed)
  · exact Bool.noConfusion (hstopped.symm.trans hstarted)
  · rw [h.isEmpty_eq, List.isEmpty_iff] at hempty
    exact absurd hempty hne
  · obtain ⟨rest, hitems, -, -, hlength⟩ := h.take htake
    refine ⟨ring, ?_⟩
    have hfront : batch = items.take batch.length := by rw [hitems, List.take_left]
    rw [htake, hfront, hlength, ← List.take_eq_take_min]

end Work

namespace Pipeline

/-! ## Moves -/

/-- A call, as against a dispatch or a step of a drain task. -/
def Move.isCall : Move α → Bool
  | .enqueue _ | .clear | .start | .stop | .close => true
  | _ => false

namespace Drainage

section

variable {slot : Nat} {lane : Lane.Token} {w : Drainage α} {m : Move α}

/-- A call leaves the drain task alone. -/
theorem tasks_of_isCall (slot : Nat) (w : Drainage α) (h : m.isCall = true) :
    (w.step slot m).tasks = w.tasks ∧ (w.step slot m).visited = w.visited := by
  cases m with
  | enqueue x =>
    simp only [step, enqueue]
    split
    · exact ⟨rfl, rfl⟩
    · split <;> exact ⟨rfl, rfl⟩
  | clear =>
    obtain ⟨panics, hclear⟩ := clear_eq w
    rw [step, hclear]
    exact ⟨rfl, rfl⟩
  | start => exact ⟨rfl, rfl⟩
  | stop => exact ⟨rfl, rfl⟩
  | close => exact ⟨rfl, rfl⟩
  | _ => cases h

/-- A task that begins is gone, or is at the batch it took. -/
theorem begin_cases (slot : Nat) (h : w.tasks = [.parked]) :
    (w.step slot (.begin 0)).visited = w.visited ∧
      ((w.step slot (.begin 0)).tasks = [] ∧
          (w.use? slot (.begin 0)).elim [] (·.batch w.pipeline.queue) = [] ∨
        ∃ batch, w.pipeline.queue.take.2 = some batch ∧
          (w.step slot (.begin 0)).tasks = [.running batch] ∧
          w.use? slot (.begin 0) = some .take) := by
  have hi : w.tasks[0]? = some .parked := by rw [h]; rfl
  simp only [step, use?, hi, begin, beginDrain]
  by_cases hcancelled : w.pipeline.cancelled = true
  · rw [if_pos hcancelled, if_pos hcancelled, h]
    exact ⟨rfl, .inl ⟨rfl, rfl⟩⟩
  · rw [if_neg hcancelled, if_neg hcancelled]
    rcases htake : w.pipeline.queue.take with ⟨q, _ | batch⟩
    · refine ⟨rfl, .inl ⟨congrArg (·.eraseIdx 0) h, ?_⟩⟩
      simp [Queue.Use.batch, htake]
    · exact ⟨rfl, .inr ⟨batch, rfl, congrArg (·.set 0 (.running batch)) h, rfl⟩⟩

/-- The accepted items grow by what is offered to the open queue. -/
theorem accepted_step (slot : Nat) (w : Drainage α) (m : Move α) :
    (w.step slot m).accepted =
      w.accepted ++ (w.use? slot m).elim [] (·.admitted w.pipeline.queue) := by
  cases m with
  | enqueue x =>
    simp only [step, enqueue, use?, Pipeline.enqueue]
    cases hmemory : w.pipeline.queue.reserveSlot slot with
    | error panic => exact (List.append_nil _).symm
    | ok u =>
      simp only [Option.elim, Queue.Use.admitted]
      cases hclosed : w.pipeline.queue.closed
      · simp [Queue.enqueue_of_open hclosed]
      · simp [Queue.enqueue_of_closed hclosed]
  | _ =>
    rw [(le_panics_step slot w _).2 rfl]
    cases hu : w.use? slot _ with
    | none => exact (List.append_nil _).symm
    | some u => cases uses_of_use? hu <;> exact (List.append_nil _).symm

/-! ## Going on -/

/-- Nobody is at the queue, or was asked to be. -/
structure Idle (w : Drainage α) : Prop where
  due : w.due = 0
  tasks : w.tasks = []
  processing : w.pipeline.queue.processing = false

/-- A move that asks for no dispatch calls nobody to the queue. -/
theorem Idle.step (h : w.Idle) (hdue : (w.step slot m).due = 0) : (w.step slot m).Idle := by
  cases m with
  | enqueue x =>
    simp only [Drainage.step, Drainage.enqueue, Pipeline.enqueue] at hdue ⊢
    cases hmemory : w.pipeline.queue.reserveSlot slot with
    | error panic => exact ⟨h.due, h.tasks, h.processing⟩
    | ok u =>
      cases hclosed : w.pipeline.queue.closed with
      | true =>
        rw [Queue.enqueue_of_closed hclosed]
        exact ⟨h.due, h.tasks, h.processing⟩
      | false =>
        rw [hmemory, Queue.enqueue_of_open hclosed] at hdue
        rw [Queue.enqueue_of_open hclosed]
        have hstopped : w.pipeline.queue.started = false := by
          simpa [h.due, h.processing] using hdue
        refine ⟨hdue, h.tasks, ?_⟩
        show (w.pipeline.queue.processing || w.pipeline.queue.started) = false
        rw [h.processing, hstopped, Bool.or_false]
  | clear =>
    obtain ⟨panics, hclear⟩ := clear_eq w
    have hprocessing := congrArg Queue.processing (Queue.clear_eq w.pipeline.queue w.pipeline.keep)
    rw [Drainage.step, hclear]
    exact ⟨h.due, h.tasks, hprocessing.trans h.processing⟩
  | start =>
    simp only [Drainage.step, Drainage.start, Pipeline.start, Queue.start_eq] at hdue ⊢
    have hempty : w.pipeline.queue.isEmpty = true := by
      simpa [h.due, h.processing] using hdue
    refine ⟨hdue, h.tasks, ?_⟩
    show (w.pipeline.queue.processing || !w.pipeline.queue.isEmpty) = false
    rw [h.processing, hempty, Bool.not_true, Bool.or_false]
  | stop => exact ⟨h.due, h.tasks, h.processing⟩
  | close =>
    have hprocessing := congrArg Queue.processing (Queue.close_eq w.pipeline.queue)
    exact ⟨h.due, h.tasks, hprocessing.trans h.processing⟩
  | dispatch =>
    rw [Drainage.step, Drainage.dispatch, if_pos h.due]
    exact h
  | _ =>
    simp only [Drainage.step, h.tasks, List.getElem?_nil]
    exact h

/-- Nobody comes to the queue before a call asks for a dispatch. -/
theorem Idle.foldl (h : w.Idle) {later : List (Move α)}
    (hdue : ∀ front, front <+: later → (front.foldl (Drainage.step slot) w).due = 0) :
    (later.foldl (Drainage.step slot) w).Idle := by
  induction later generalizing w with
  | nil => exact h
  | cons m later ih =>
    have hone : (w.step slot m).due = 0 := hdue [m] (List.prefix_append [m] later)
    apply ih (h.step hone)
    intro front hfront
    exact hdue (m :: front) ((List.prefix_cons_inj m).2 hfront)

/-- A panic leaves nobody at the queue. -/
theorem Manned.idle_of_fail (h : w.Manned lane 0) {batch : List α} (htasks : w.tasks = [.running batch]) :
    (w.step slot (.fail 0)).Idle ∧
      (w.step slot (.fail 0)).pipeline.queue = { w.pipeline.queue with processing := false } := by
  have hi : w.tasks[0]? = some (.running batch) := by rw [htasks]; rfl
  obtain ⟨-, -, hdue, -⟩ := h.alone hi
  have hfail : w.step slot (.fail 0) = w.fail 0 := by simp only [Drainage.step, hi]
  rw [hfail]
  exact ⟨⟨hdue, congrArg (·.eraseIdx 0) htasks, rfl⟩, rfl⟩

/-- A move asks for one dispatch, and the task that is dispatched takes this batch. -/
structure Resumes (slot : Nat) (w : Drainage α) (m : Move α) (batch : List α) : Prop where
  due : (w.step slot m).due = 1
  tasks : (w.step slot m).tasks = []
  due_after : ([m, .dispatch, .begin 0].foldl (Drainage.step slot) w).due = 0
  running : ([m, .dispatch, .begin 0].foldl (Drainage.step slot) w).tasks = [.running batch]
  dispatched : ([m, .dispatch, .begin 0].foldl (Drainage.step slot) w).dispatched =
    w.dispatched ++ [w.pipeline.lane]

/-- A task that is due is dispatched, and takes the front of what waits. -/
theorem dispatch_begin (slot : Nat) {items : List α} (hdue : w.due = 1) (htasks : w.tasks = [])
    (hlive : w.pipeline.cancelled = false) (hopen : w.pipeline.queue.closed = false)
    (hstarted : w.pipeline.queue.started = true) (hlists : w.pipeline.queue.Lists items)
    (hne : items ≠ []) :
    let w' := (w.step slot .dispatch).step slot (.begin 0)
    w'.due = 0 ∧ w'.tasks = [.running (items.take w.pipeline.queue.bulkSize)] ∧
      w'.dispatched = w.dispatched ++ [w.pipeline.lane] := by
  obtain ⟨ring, htake⟩ := hlists.take_eq hopen hstarted hne
  have hdispatch : w.step slot .dispatch =
      { w with due := 0, tasks := [.parked], dispatched := w.dispatched ++ [w.pipeline.lane] } := by
    rw [Drainage.step, Drainage.dispatch, hdue, htasks, if_neg Nat.one_ne_zero]
    rfl
  rw [hdispatch]
  simp only [Drainage.step, List.getElem?_cons_zero, Drainage.begin, beginDrain, hlive, htake,
    Bool.false_eq_true, if_false, List.set_cons_zero]
  exact ⟨trivial, trivial, trivial⟩

/-- A move that asks for a dispatch where something waits. -/
theorem resumes_of_step {w' : Drainage α} {items : List α} (hstep : w.step slot m = w') (hdue : w'.due = 1)
    (htasks : w'.tasks = []) (hdispatched : w'.dispatched = w.dispatched)
    (hlive : w'.pipeline.cancelled = false) (hopen : w'.pipeline.queue.closed = false)
    (hstarted : w'.pipeline.queue.started = true) (hlists : w'.pipeline.queue.Lists items)
    (hne : items ≠ []) : w.Resumes slot m (items.take w'.pipeline.queue.bulkSize) := by
  subst hstep
  obtain ⟨hnone, hrunning, hlanes⟩ := dispatch_begin slot hdue htasks hlive hopen hstarted hlists hne
  have hlane : (w.step slot m).pipeline.lane = w.pipeline.lane := by rw [pipeline_step]
  rw [hdispatched, hlane] at hlanes
  exact ⟨hdue, htasks, hnone, hrunning, hlanes⟩

variable {items : List α}

theorem Manned.live_of_open (h : w.Manned lane 0) (hopen : w.pipeline.queue.closed = false) :
    w.pipeline.cancelled = false :=
  eq_false_of_ne_true fun hcancelled => Bool.noConfusion (hopen.symm.trans (h.cancelled hcancelled))

/-- An offer to a queue that runs wakes it. -/
theorem Idle.resumes_enqueue (h : w.Idle) (hm : w.Manned lane 0) (hopen : w.pipeline.queue.closed = false)
    (hstarted : w.pipeline.queue.started = true) (hlists : w.pipeline.queue.Lists items) {x : α}
    (hmemory : w.pipeline.queue.reserveSlot slot = .ok ()) :
    w.Resumes slot (.enqueue x) ((items ++ [x]).take w.pipeline.queue.bulkSize) := by
  have hqueue := Queue.enqueue_of_open hopen x
  have hwaiting := hlists.enqueue hopen x
  rw [hqueue] at hwaiting
  have hstep : w.step slot (.enqueue x) =
      { w with
        pipeline := { w.pipeline with queue := (w.pipeline.queue.enqueue x).1 }
        accepted := w.accepted ++ [x]
        due := 1 } := by
    simp only [Drainage.step, Drainage.enqueue, hmemory, Pipeline.enqueue, hqueue, h.due, hstarted, h.processing]
    rfl
  rw [hqueue] at hstep
  have hresumes := resumes_of_step hstep rfl h.tasks rfl (hm.live_of_open hopen) hopen hstarted hwaiting
    (by simp)
  exact hresumes

/-- Starting a queue with something to do wakes it. -/
theorem Idle.resumes_start (h : w.Idle) (hm : w.Manned lane 0) (hopen : w.pipeline.queue.closed = false)
    (hlists : w.pipeline.queue.Lists items) (hne : items ≠ []) :
    w.Resumes slot .start (items.take w.pipeline.queue.bulkSize) := by
  have hsome : w.pipeline.queue.isEmpty = false := by
    rw [hlists.isEmpty_eq]
    exact List.isEmpty_eq_false_iff.2 hne
  have hstep : w.step slot .start =
      { w with
        pipeline := { w.pipeline with
          queue := { w.pipeline.queue with started := true, processing := true } }
        due := 1 } := by
    simp only [Drainage.step, Drainage.start, Pipeline.start, Queue.start_eq, hsome, h.due, h.processing]
    rfl
  have hresumes := resumes_of_step hstep rfl h.tasks rfl (hm.live_of_open hopen) hopen rfl hlists hne
  exact hresumes

end

end Drainage

/-! ## Custody -/

/-- What came of a batch: the items that were handed over and those that were left. Some are left only
if the batch was broken, by a panic at the last of the ones handed over. -/
structure Handover (α : Type) where
  visited : List α
  left : List α
  broken : Bool

def Handover.items (h : Handover α) : List α := h.visited ++ h.left

/-- A pipeline, the books of its queue and what came of its batches. -/
structure Custody (α : Type) where
  drainage : Drainage α
  ledger : Ledger α
  /-- The batches that were ended, in order. -/
  past : List (Handover α)
  /-- The items of the batch under way that were handed over. -/
  handed : List α
  /-- The queue as the last task found it when it began. -/
  found : Queue α
  /-- The uses that were made of the queue since. -/
  since : List (Queue.Use α)

namespace Custody

/-- A pipeline before any call, whose clearings keep what `p` says. -/
def new (lane : Lane.Token) (settings : Settings) (started : Bool) (p : α → Bool) : Custody α where
  drainage := .new (opened lane settings started fun x => .ok (p x))
  ledger := .new settings started
  past := []
  handed := []
  found := .new settings started
  since := []

/-- Make a move, and book the use it makes of the queue. -/
def follow (slot : Nat) (p : α → Bool) (c : Custody α) (m : Move α) : Custody α :=
  { c with
    drainage := c.drainage.step slot m
    ledger := (c.drainage.use? slot m).elim c.ledger fun u => c.ledger.step slot (u.call p)
    since := c.since ++ (c.drainage.use? slot m).toList }

/-- Make a move; a task that begins, hands an item over or ends is recorded. -/
def step (slot : Nat) (p : α → Bool) (c : Custody α) (m : Move α) : Custody α :=
  match m with
  | .begin i =>
    match c.drainage.tasks[i]? with
    | some .parked => { c.follow slot p m with found := c.drainage.pipeline.queue, since := [] }
    | _ => c.follow slot p m
  | .visit i =>
    match c.drainage.tasks[i]? with
    | some (.running (x :: _)) => { c.follow slot p m with handed := c.handed ++ [x] }
    | _ => c.follow slot p m
  | .finish i =>
    match c.drainage.tasks[i]? with
    | some (.running []) =>
      { c.follow slot p m with past := c.past ++ [⟨c.handed, [], false⟩], handed := [] }
    | _ => c.follow slot p m
  | .fail i =>
    match c.drainage.tasks[i]? with
    | some (.running batch) =>
      { c.follow slot p m with past := c.past ++ [⟨c.handed, batch, true⟩], handed := [] }
    | _ => c.follow slot p m
  | _ => c.follow slot p m

def run (slot : Nat) (lane : Lane.Token) (settings : Settings) (started : Bool) (p : α → Bool)
    (moves : List (Move α)) : Custody α := moves.foldl (step slot p) (new lane settings started p)

section

variable {slot : Nat} {lane : Lane.Token} {settings : Settings} {p : α → Bool}

theorem drainage_step (c : Custody α) (m : Move α) :
    (c.step slot p m).drainage = c.drainage.step slot m := by
  unfold step
  split
  · split <;> rfl
  · split <;> rfl
  · split <;> rfl
  · split <;> rfl
  · rfl

theorem ledger_step (c : Custody α) (m : Move α) :
    (c.step slot p m).ledger = (c.follow slot p m).ledger := by
  unfold step
  split
  · split <;> rfl
  · split <;> rfl
  · split <;> rfl
  · split <;> rfl
  · rfl

/-- Custody is of the pipeline as it is. -/
theorem drainage_run (slot : Nat) (lane : Lane.Token) (settings : Settings) (started : Bool) (p : α → Bool)
    (moves : List (Move α)) : (run slot lane settings started p moves).drainage =
      Drainage.run slot (opened lane settings started fun x => .ok (p x)) moves :=
  (List.foldl_hom Custody.drainage fun c m => (drainage_step (p := p) c m).symm).symm

/-! ### The books -/

/-- The ledger is of the queue, and the queue of the pipeline. -/
structure Agrees (lane : Lane.Token) (settings : Settings) (p : α → Bool) (w : Drainage α)
    (l : Ledger α) : Prop where
  manned : w.Manned lane 0
  balanced : l.Balanced
  queue : l.queue = w.pipeline.queue
  bulk : l.queue.bulkSize = settings.bulkSize
  keep : w.pipeline.keep = fun x => .ok (p x)
  accepted : l.entries.map (·.item) = w.accepted

theorem agrees_new (lane : Lane.Token) (settings : Settings) (started : Bool) (p : α → Bool) :
    Agrees lane settings p (new lane settings started p).drainage (new lane settings started p).ledger where
  manned := Drainage.manned_new lane settings started _
  balanced := Ledger.balanced_new settings started
  queue := rfl
  bulk := rfl
  keep := rfl
  accepted := rfl

variable {c : Custody α}

/-- Every move keeps the books, and books the batch it takes. -/
theorem Agrees.follow (h : Agrees lane settings p c.drainage c.ledger) (slot : Nat) (m : Move α) :
    Agrees lane settings p (c.follow slot p m).drainage (c.follow slot p m).ledger ∧
      (c.follow slot p m).ledger.batches.flatten = c.ledger.batches.flatten ++
        (c.drainage.use? slot m).elim [] (·.batch c.drainage.pipeline.queue) := by
  have hpipeline := Drainage.pipeline_step slot c.drainage m
  have haccepted := Drainage.accepted_step slot c.drainage m
  have hkeep : (c.drainage.step slot m).pipeline.keep = fun x => .ok (p x) := by
    rw [hpipeline]
    exact h.keep
  have hmanned := h.manned.step slot m
  unfold Custody.follow
  cases hu : c.drainage.use? slot m with
  | none =>
    rw [hu] at hpipeline haccepted
    refine ⟨⟨hmanned, h.balanced, ?_, h.bulk, hkeep, ?_⟩, (List.append_nil _).symm⟩
    · rw [hpipeline]
      exact h.queue
    · rw [haccepted]
      exact h.accepted.trans (List.append_nil _).symm
  | some u =>
    rw [hu] at hpipeline haccepted
    have huses := Drainage.uses_of_use? hu
    have hmemory : ∀ x, u = .enqueue x → c.ledger.queue.reserveSlot slot = .ok () := by
      rintro x rfl
      cases huses with
      | enqueue x memory => exact h.queue ▸ memory
    have hclear : ∀ keep, u = .clear keep → keep = fun x => .ok (p x) := by
      rintro keep rfl
      cases huses
      exact h.keep
    obtain ⟨hqueue, hentries, hbatches⟩ := Ledger.step_call hmemory hclear
    rw [h.queue] at hqueue hentries hbatches
    refine ⟨⟨hmanned, h.balanced.step slot _, ?_, ?_, hkeep, ?_⟩, hbatches⟩
    · rw [hpipeline]
      exact hqueue
    · exact (Ledger.bulkSize_step slot c.ledger _).trans h.bulk
    · rw [haccepted, ← h.accepted]
      exact hentries

/-- Only a task that begins takes a batch. -/
theorem Agrees.batches_follow (h : Agrees lane settings p c.drainage c.ledger) {m : Move α}
    (hm : c.drainage.use? slot m ≠ some .take) :
    (c.follow slot p m).ledger.batches.flatten = c.ledger.batches.flatten := by
  rw [(h.follow slot m).2]
  cases hu : c.drainage.use? slot m with
  | none => exact List.append_nil _
  | some u =>
    cases u with
    | take => exact absurd hu hm
    | _ => exact List.append_nil _

/-! ### The batches -/

/-- The batches are what was taken, what was handed over of them is what was visited, and the queue is
what calls made of it since the batch under way was taken. -/
structure Handing (c : Custody α) : Prop where
  batches : c.ledger.batches.flatten =
    c.past.flatMap Handover.items ++ c.handed ++ c.drainage.underway
  visited : c.drainage.visited = c.past.flatMap Handover.visited ++ c.handed
  whole : ∀ h ∈ c.past, h.broken = false → h.left = []
  resting : (∀ batch, c.drainage.tasks ≠ [.running batch]) → c.handed = []
  running : ∀ batch, c.drainage.tasks = [.running batch] →
    c.found.pending = c.handed ++ batch ++ c.found.take.1.pending ∧
      c.drainage.pipeline.queue = c.since.foldl Queue.use c.found.take.1 ∧
      ∀ u ∈ c.since, u.isCall = true

theorem handing_new (lane : Lane.Token) (settings : Settings) (started : Bool) (p : α → Bool) :
    (new lane settings started p).Handing where
  batches := rfl
  visited := rfl
  whole := fun _ h => absurd h List.not_mem_nil
  resting := fun _ => rfl
  running := fun _ h => absurd h (List.cons_ne_nil _ _).symm

/-- Calls, and moves that do nothing. -/
theorem Handing.follow (h : c.Handing) (ha : Agrees lane settings p c.drainage c.ledger) {m : Move α}
    (hcall : ∀ u, c.drainage.use? slot m = some u → u.isCall = true)
    (htasks : (c.drainage.step slot m).tasks = c.drainage.tasks)
    (hvisited : (c.drainage.step slot m).visited = c.drainage.visited) :
    (c.follow slot p m).Handing := by
  have huse : c.drainage.use? slot m ≠ some .take := by
    intro htake
    exact Bool.noConfusion (hcall _ htake)
  constructor
  case batches =>
    rw [ha.batches_follow huse, h.batches, Drainage.underway, Drainage.underway, ← htasks]
    rfl
  case visited => exact hvisited.trans h.visited
  case whole => exact h.whole
  case resting =>
    intro hrest
    apply h.resting
    intro batch hbatch
    exact hrest batch (htasks.trans hbatch)
  case running =>
    intro batch hbatch
    obtain ⟨hfound, hqueue, hcalls⟩ := h.running batch (htasks.symm.trans hbatch)
    refine ⟨hfound, ?_, ?_⟩
    · show (c.drainage.step slot m).pipeline.queue = _
      rw [Drainage.pipeline_step]
      simp only [Custody.follow, List.foldl_append, ← hqueue]
      cases c.drainage.use? slot m <;> rfl
    · intro u hu
      rcases List.mem_append.1 hu with hu | hu
      · exact hcalls u hu
      · exact hcall u (Option.mem_toList.1 hu)

/-- Without a use of the queue and without a task there, nothing moves. -/
theorem Handing.still (h : c.Handing) (ha : Agrees lane settings p c.drainage c.ledger) {m : Move α}
    (hstep : c.drainage.step slot m = c.drainage) (huse : c.drainage.use? slot m = none) :
    (c.follow slot p m).Handing := by
  refine h.follow ha ?_ (congrArg Drainage.tasks hstep) (congrArg Drainage.visited hstep)
  intro u hu
  rw [huse] at hu
  cases hu

theorem Handing.call (h : c.Handing) (ha : Agrees lane settings p c.drainage c.ledger) {m : Move α}
    (hm : m.isCall = true) : (c.follow slot p m).Handing := by
  obtain ⟨htasks, hvisited⟩ := Drainage.tasks_of_isCall slot c.drainage hm
  refine h.follow ha ?_ htasks hvisited
  intro u hu
  cases Drainage.uses_of_use? hu <;> first | rfl | cases hm

theorem Handing.dispatch (h : c.Handing) (ha : Agrees lane settings p c.drainage c.ledger) :
    (c.follow slot p .dispatch).Handing := by
  by_cases hdue : c.drainage.due = 0
  · exact h.still ha (by simp only [Drainage.step, Drainage.dispatch, if_pos hdue]) rfl
  · have hmost := ha.manned.atMost
    have hbit := Bool.toNat_le c.drainage.pipeline.queue.processing
    have hnone : c.drainage.tasks = [] := List.eq_nil_of_length_eq_zero (by omega)
    have hstep : c.drainage.step slot .dispatch =
        { c.drainage with
          due := c.drainage.due - 1
          tasks := [.parked]
          dispatched := c.drainage.dispatched ++ [c.drainage.pipeline.lane] } := by
      simp only [Drainage.step, Drainage.dispatch, if_neg hdue, hnone, List.nil_append]
    have huse : c.drainage.use? slot .dispatch ≠ some .take := by
      intro htake
      cases htake
    constructor
    case batches =>
      rw [ha.batches_follow huse, h.batches, Custody.follow, hstep, Drainage.underway, hnone]
      rfl
    case visited =>
      rw [Custody.follow, hstep]
      exact h.visited
    case whole => exact h.whole
    case resting =>
      intro _
      apply h.resting
      intro batch hbatch
      rw [hnone] at hbatch
      cases hbatch
    case running =>
      intro batch hbatch
      rw [Custody.follow, hstep] at hbatch
      cases hbatch

theorem Handing.begin (h : c.Handing) (ha : Agrees lane settings p c.drainage c.ledger) {i : Nat}
    (hi : c.drainage.tasks[i]? = some .parked) :
    { c.follow slot p (.begin i) with found := c.drainage.pipeline.queue, since := [] }.Handing := by
  obtain ⟨htasks, rfl, -, -⟩ := ha.manned.alone hi
  obtain ⟨hvisited, hbegin⟩ := Drainage.begin_cases slot htasks
  have hflatten := (ha.follow slot (.begin 0)).2
  have hhanded : c.handed = [] := by
    apply h.resting
    intro batch hbatch
    rw [htasks] at hbatch
    cases hbatch
  have hbefore : c.ledger.batches.flatten = c.past.flatMap Handover.items := by
    rw [h.batches, hhanded, Drainage.underway, htasks, List.append_nil]
    exact List.append_nil _
  constructor
  case visited => exact hvisited.trans h.visited
  case whole => exact h.whole
  case resting => exact fun _ => hhanded
  case batches =>
    rw [hflatten, hbefore]
    show _ = c.past.flatMap Handover.items ++ c.handed ++ (c.drainage.step slot (.begin 0)).underway
    rcases hbegin with ⟨hnone, hbatch⟩ | ⟨batch, htake, hrunning, huse⟩
    · rw [hbatch, hhanded, Drainage.underway, hnone, List.append_nil]
      simp
    · rw [huse, hhanded, Drainage.underway, hrunning, List.append_nil]
      simp [Queue.Use.batch, htake, Task.left]
  case running =>
    intro batch hbatch
    have hbatch : (c.drainage.step slot (.begin 0)).tasks = [.running batch] := hbatch
    rcases hbegin with ⟨hnone, -⟩ | ⟨batch', htake, hrunning, huse⟩
    · cases hnone.symm.trans hbatch
    · obtain rfl : batch' = batch := by
        cases hrunning.symm.trans hbatch
        rfl
      have hwaiting := ha.balanced.waiting
      rw [ha.queue] at hwaiting
      obtain ⟨rest, hitems, hrest, -⟩ := hwaiting.take (Prod.ext rfl htake)
      refine ⟨?_, ?_, ?_⟩
      · show c.drainage.pipeline.queue.pending =
          c.handed ++ batch' ++ c.drainage.pipeline.queue.take.1.pending
        rw [hwaiting.pending_eq, hrest.pending_eq, hhanded]
        exact hitems
      · show (c.drainage.step slot (.begin 0)).pipeline.queue = c.drainage.pipeline.queue.take.1
        rw [Drainage.pipeline_step, huse]
        rfl
      · intro u hu
        cases hu

theorem Handing.visit (h : c.Handing) (ha : Agrees lane settings p c.drainage c.ledger) {i : Nat} {x : α}
    {rest : List α} (hi : c.drainage.tasks[i]? = some (.running (x :: rest))) :
    { c.follow slot p (.visit i) with handed := c.handed ++ [x] }.Handing := by
  obtain ⟨htasks, rfl, -, -⟩ := ha.manned.alone hi
  have hstep : c.drainage.step slot (.visit 0) =
      { c.drainage with tasks := [.running rest], visited := c.drainage.visited ++ [x] } := by
    simp only [Drainage.step, hi, Drainage.visit]
    rw [htasks, List.set_cons_zero]
  have huse : c.drainage.use? slot (.visit 0) ≠ some .take := by
    intro htake
    cases htake
  obtain ⟨hfound, hqueue, hcalls⟩ := h.running (x :: rest) htasks
  constructor
  case batches =>
    show (c.follow slot p (.visit 0)).ledger.batches.flatten = c.past.flatMap Handover.items ++
      (c.handed ++ [x]) ++ (c.drainage.step slot (.visit 0)).underway
    rw [ha.batches_follow huse, h.batches, hstep, Drainage.underway, Drainage.underway, htasks]
    simp [Task.left]
  case visited =>
    show (c.drainage.step slot (.visit 0)).visited =
      c.past.flatMap Handover.visited ++ (c.handed ++ [x])
    rw [hstep, ← List.append_assoc, ← h.visited]
  case whole => exact h.whole
  case resting =>
    intro hrest
    exact absurd (congrArg Drainage.tasks hstep) (hrest rest)
  case running =>
    intro batch hbatch
    have hbatch : (c.drainage.step slot (.visit 0)).tasks = [.running batch] := hbatch
    rw [hstep] at hbatch
    cases hbatch
    refine ⟨?_, ?_, ?_⟩
    · show c.found.pending = c.handed ++ [x] ++ rest ++ c.found.take.1.pending
      rw [List.append_assoc c.handed]
      exact hfound
    · show (c.drainage.step slot (.visit 0)).pipeline.queue = (c.since ++ []).foldl Queue.use c.found.take.1
      rw [hstep, List.append_nil]
      exact hqueue
    · show ∀ u ∈ c.since ++ [], u.isCall = true
      rw [List.append_nil]
      exact hcalls

/-- A task ends, with its batch done or in the middle of it. -/
theorem Handing.leave (h : c.Handing) (ha : Agrees lane settings p c.drainage c.ledger) {i : Nat}
    {batch : List α} (hi : c.drainage.tasks[i]? = some (.running batch)) {m : Move α} (broken : Bool)
    (htasks : (c.drainage.step slot m).tasks = c.drainage.tasks.eraseIdx i)
    (hvisited : (c.drainage.step slot m).visited = c.drainage.visited)
    (huse : c.drainage.use? slot m ≠ some .take) (hleft : broken = false → batch = []) :
    { c.follow slot p m with
      past := c.past ++ [Handover.mk c.handed batch broken], handed := [] }.Handing := by
  obtain ⟨hbefore, rfl, -, -⟩ := ha.manned.alone hi
  rw [hbefore] at htasks
  constructor
  case batches =>
    show (c.follow slot p m).ledger.batches.flatten =
      (c.past ++ [Handover.mk c.handed batch broken]).flatMap Handover.items ++ [] ++
        (c.drainage.step slot m).underway
    rw [ha.batches_follow huse, h.batches, Drainage.underway, Drainage.underway, htasks, hbefore]
    simp [Handover.items, Task.left]
  case visited =>
    show (c.drainage.step slot m).visited =
      (c.past ++ [Handover.mk c.handed batch broken]).flatMap Handover.visited ++ []
    rw [hvisited, h.visited]
    simp
  case whole =>
    intro b hb
    rcases List.mem_append.1 hb with hb | hb
    · exact h.whole b hb
    · rw [List.mem_singleton.1 hb]
      exact hleft
  case resting => exact fun _ => rfl
  case running =>
    intro batch hbatch
    cases htasks.symm.trans hbatch

/-- Every move keeps custody. -/
theorem Handing.step (h : c.Handing) (ha : Agrees lane settings p c.drainage c.ledger) (m : Move α) :
    (c.step slot p m).Handing := by
  cases m with
  | begin i =>
    rcases hi : c.drainage.tasks[i]? with _ | _ | batch <;> simp only [Custody.step, hi]
    · exact h.still ha (by simp only [Drainage.step, hi]) (by simp only [Drainage.use?, hi])
    · exact h.begin ha hi
    · exact h.still ha (by simp only [Drainage.step, hi]) (by simp only [Drainage.use?, hi])
  | visit i =>
    rcases hi : c.drainage.tasks[i]? with _ | _ | _ | ⟨x, rest⟩ <;> simp only [Custody.step, hi]
    · exact h.still ha (by simp only [Drainage.step, hi]) rfl
    · exact h.still ha (by simp only [Drainage.step, hi]) rfl
    · exact h.still ha (by simp only [Drainage.step, hi]) rfl
    · exact h.visit ha hi
  | finish i =>
    rcases hi : c.drainage.tasks[i]? with _ | _ | _ | ⟨x, rest⟩ <;> simp only [Custody.step, hi]
    · exact h.still ha (by simp only [Drainage.step, hi]) (by simp only [Drainage.use?, hi])
    · exact h.still ha (by simp only [Drainage.step, hi]) (by simp only [Drainage.use?, hi])
    · refine h.leave ha hi false ?_ ?_ ?_ fun _ => rfl
      · simp only [Drainage.step, hi, Drainage.finish]
      · simp only [Drainage.step, hi, Drainage.finish]
      · simp only [Drainage.use?, hi]
        intro htake
        cases htake
    · exact h.still ha (by simp only [Drainage.step, hi]) (by simp only [Drainage.use?, hi])
  | fail i =>
    rcases hi : c.drainage.tasks[i]? with _ | _ | batch <;> simp only [Custody.step, hi]
    · exact h.still ha (by simp only [Drainage.step, hi]) (by simp only [Drainage.use?, hi])
    · exact h.still ha (by simp only [Drainage.step, hi]) (by simp only [Drainage.use?, hi])
    · refine h.leave ha hi true ?_ ?_ ?_ Bool.noConfusion
      · simp only [Drainage.step, hi, Drainage.fail]
      · simp only [Drainage.step, hi, Drainage.fail]
      · simp only [Drainage.use?, hi]
        intro htake
        cases htake
  | dispatch => exact h.dispatch ha
  | enqueue x => exact h.call ha rfl
  | clear => exact h.call ha rfl
  | start => exact h.call ha rfl
  | stop => exact h.call ha rfl
  | close => exact h.call ha rfl

/-- Books and batches are kept in every run. -/
theorem kept_run (slot : Nat) (lane : Lane.Token) (settings : Settings) (started : Bool) (p : α → Bool)
    (moves : List (Move α)) :
    let c := run slot lane settings started p moves
    Agrees lane settings p c.drainage c.ledger ∧ c.Handing := by
  have hall : ∀ c : Custody α, Agrees lane settings p c.drainage c.ledger → c.Handing →
      let c' := moves.foldl (Custody.step slot p) c
      Agrees lane settings p c'.drainage c'.ledger ∧ c'.Handing := by
    induction moves with
    | nil => exact fun c ha h => ⟨ha, h⟩
    | cons m moves ih =>
      intro c ha h
      refine ih (c.step slot p m) ?_ (h.step ha m)
      rw [drainage_step, ledger_step]
      exact (ha.follow slot m).1
  exact hall _ (agrees_new lane settings started p) (handing_new lane settings started p)

/-- A move ends one batch at most; a panic breaks it, at the last item that was handed over. -/
theorem past_step (c : Custody α) (m : Move α) :
    ∀ h ∈ (c.step slot p m).past, h ∈ c.past ∨
      (h.broken = true → (∃ i, m = .fail i) ∧ h.visited = c.handed) := by
  intro h hmem
  cases m with
  | begin i =>
    simp only [Custody.step] at hmem
    split at hmem <;> exact .inl hmem
  | visit i =>
    simp only [Custody.step] at hmem
    split at hmem <;> exact .inl hmem
  | finish i =>
    simp only [Custody.step] at hmem
    split at hmem
    · rcases List.mem_append.1 hmem with hmem | hmem
      · exact .inl hmem
      · rw [List.mem_singleton.1 hmem]
        right
        intro hbroken
        cases hbroken
    · exact .inl hmem
  | fail i =>
    simp only [Custody.step] at hmem
    split at hmem
    · rcases List.mem_append.1 hmem with hmem | hmem
      · exact .inl hmem
      · rw [List.mem_singleton.1 hmem]
        exact .inr fun _ => ⟨⟨i, rfl⟩, rfl⟩
    · exact .inl hmem
  | _ => exact .inl hmem

/-- If panics come out of visits, a batch is broken at an item that was visited. -/
theorem visited_of_broken (started : Bool) {moves : List (Move α)}
    (hvisits : ∀ before i, before ++ [.fail i] <+: moves →
      (run slot lane settings started p before).handed ≠ []) :
    ∀ h ∈ (run slot lane settings started p moves).past, h.broken = true → h.visited ≠ [] := by
  induction moves using List.reverseRecOn with
  | nil => exact fun h hmem => absurd hmem List.not_mem_nil
  | append_singleton moves m ih =>
    intro h hmem hbroken
    have hlast : run slot lane settings started p (moves ++ [m]) =
        (run slot lane settings started p moves).step slot p m := List.foldl_append
    rw [hlast] at hmem
    rcases past_step _ m h hmem with hmem | hbreak
    · refine ih (fun before i hprefix => hvisits before i ?_) h hmem hbroken
      exact List.IsPrefix.trans hprefix (List.prefix_append _ _)
    · obtain ⟨⟨i, rfl⟩, hvisited⟩ := hbreak hbroken
      rw [hvisited]
      exact hvisits moves i List.prefix_rfl

/-- A run that comes to rest while the queue is open goes on at the next call that finds something to do. -/
theorem resumes_of_idle (slot : Nat) (lane : Lane.Token) (settings : Settings) (started : Bool) (p : α → Bool)
    (moves : List (Move α)) :
    let v := Drainage.run slot (opened lane settings started fun x => .ok (p x)) moves
    let q := v.pipeline.queue
    v.Idle → q.closed = false →
      (q.started = true → ∀ x, q.reserveSlot slot = .ok () →
        v.Resumes slot (.enqueue x) ((q.pending ++ [x]).take settings.bulkSize)) ∧
      (q.pending ≠ [] → v.Resumes slot .start (q.pending.take settings.bulkSize)) := by
  intro v q hidle hopen
  have ha := (kept_run slot lane settings started p moves).1
  rw [drainage_run] at ha
  have hlists := ha.balanced.waiting
  have hbulk := ha.bulk
  rw [ha.queue] at hlists hbulk
  rw [← hbulk, hlists.pending_eq]
  constructor
  · intro hstarted x hmemory
    exact hidle.resumes_enqueue ha.manned hopen hstarted hlists hmemory
  · exact hidle.resumes_start ha.manned hopen hlists

end

/-! ## What callers see -/

/-- **A panic costs the rest of its batch.** Custody follows the pipeline move by move. The accepted items
that were not dropped are, in order, those of the batches that were ended, those of the batch under way
and those that wait; the dropped ones were counted as such. The visited ones are the items handed over of
each batch, in order. A batch that was ended is left in the middle only if it was broken, at an item
that was visited if panics come out of visits.

When a batch breaks, the queue is what the calls made since the batch was taken made of it, and what
waited behind the batch waited in it then; only the flag goes down. Nobody is at the queue from then on,
until a call asks for a dispatch. If the queue is open, that is what the next offer does when it is
started, and the next start when something waits: one dispatch, and its task takes what waits from the
front. -/
theorem panics_cost_their_batches (slot : Nat) (lane : Lane.Token) (settings : Settings) (started : Bool)
    (p : α → Bool) (moves : List (Move α)) :
    let w := Drainage.run slot (opened lane settings started fun x => .ok (p x)) moves
    let c := run slot lane settings started p moves
    let q := w.pipeline.queue
    c.drainage = w ∧
      c.ledger.entries.map (·.item) = w.accepted ∧
      undropped c.ledger.entries =
        c.past.flatMap Handover.items ++ (c.handed ++ w.underway) ++ q.pending ∧
      q.meter.count (.itemsDropped .cleared) = (itemsWith .cleared c.ledger.entries).length ∧
      q.meter.count (.itemsDropped .closed) = (itemsWith .closed c.ledger.entries).length ∧
      w.visited = c.past.flatMap Handover.visited ++ c.handed ∧
      (∀ h ∈ c.past, h.broken = false → h.left = []) ∧
      ((∀ before i, before ++ [.fail i] <+: moves →
          (run slot lane settings started p before).handed ≠ []) →
        ∀ h ∈ c.past, h.broken = true → h.visited ≠ []) ∧
      ∀ batch, w.tasks = [.running batch] →
        let w' := w.step slot (.fail 0)
        (c.step slot p (.fail 0)).past = c.past ++ [⟨c.handed, batch, true⟩] ∧
          w'.pipeline.queue = { c.since.foldl Queue.use c.found.take.1 with processing := false } ∧
          (∀ u ∈ c.since, u.isCall = true) ∧
          c.found.pending = c.handed ++ batch ++ c.found.take.1.pending ∧
          ∀ later : List (Move α),
            (∀ front, front <+: later → (front.foldl (Drainage.step slot) w').due = 0) →
            let v := later.foldl (Drainage.step slot) w'
            v.Idle ∧ (v.pipeline.queue.closed = false →
              (v.pipeline.queue.started = true → ∀ x, v.pipeline.queue.reserveSlot slot = .ok () →
                v.Resumes slot (.enqueue x) ((v.pipeline.queue.pending ++ [x]).take settings.bulkSize)) ∧
              (v.pipeline.queue.pending ≠ [] →
                v.Resumes slot .start (v.pipeline.queue.pending.take settings.bulkSize))) := by
  intro w c q
  have hw : c.drainage = w := drainage_run slot lane settings started p moves
  obtain ⟨ha, h⟩ : Agrees lane settings p c.drainage c.ledger ∧ c.Handing :=
    kept_run slot lane settings started p moves
  have hpending : itemsWith .waiting c.ledger.entries = q.pending := by
    have hwaiting := ha.balanced.waiting.pending_eq
    rw [ha.queue, hw] at hwaiting
    exact hwaiting.symm
  have hcleared := ha.balanced.cleared
  have hclosed := ha.balanced.closed
  have haccepted := ha.accepted
  have hvisited := h.visited
  have hbatches := h.batches
  rw [ha.queue, hw] at hcleared hclosed
  rw [hw] at haccepted hvisited hbatches
  refine ⟨hw, haccepted, ?_, hcleared, hclosed, hvisited, h.whole, visited_of_broken started,
    fun batch htasks => ?_⟩
  · rw [ha.balanced.inOrder.undropped_eq, ← ha.balanced.delivered, hpending, hbatches, List.append_assoc
      (c.past.flatMap Handover.items)]
  · intro w'
    obtain ⟨hfound, hqueue, hcalls⟩ := h.running batch (hw ▸ htasks)
    rw [hw] at hqueue
    have hm : w.Manned lane 0 := hw ▸ ha.manned
    obtain ⟨hidle, hbroken⟩ : w'.Idle ∧ w'.pipeline.queue = { q with processing := false } :=
      hm.idle_of_fail htasks
    refine ⟨?_, ?_, hcalls, hfound, ?_⟩
    · have hi : c.drainage.tasks[0]? = some (.running batch) := by rw [hw, htasks]; rfl
      simp only [step, hi]
    · rw [hbroken, ← hqueue]
    · intro later hnone v
      have hv : v.Idle := hidle.foldl hnone
      have hlater : v = Drainage.run slot (opened lane settings started fun x => .ok (p x))
          (moves ++ .fail 0 :: later) := by
        rw [Drainage.run, List.foldl_append]; rfl
      have hresumes := resumes_of_idle slot lane settings started p (moves ++ .fail 0 :: later)
      rw [← hlater] at hresumes
      exact ⟨hv, hresumes hv⟩

/-- Three items in one batch, and a panic at the second: the third is lost, and an offer made in that visit
is what the next offer goes on with. -/
example :
    let c : Custody Nat := run 8 ⟨"lane"⟩ ⟨4, 4, 3, by decide, by decide⟩ false (fun _ => false)
      [.enqueue 1, .enqueue 2, .enqueue 3, .start, .dispatch, .begin 0, .visit 0, .visit 0, .enqueue 4,
        .fail 0, .enqueue 5, .dispatch, .begin 0]
    c.past.map (·.visited) = [[1, 2]] ∧ c.past.map (·.left) = [[3]] ∧ c.drainage.underway = [4, 5] := by
  decide

/-- A visit clears the queue, and the predicate panics on the first of the two items that wait: the panic comes
out of the visit, and the item was neither visited nor counted, and is not waiting. -/
theorem panic_in_a_clearing_costs_more :
    let w : Drainage Nat := Drainage.run 8
      (opened ⟨"lane"⟩ ⟨4, 4, 1, by decide, by decide⟩ true fun x =>
        if x = 2 then .error .capacityOverflow else .ok true)
      [.enqueue 1, .enqueue 2, .enqueue 3, .dispatch, .begin 0, .visit 0, .clear, .fail 0]
    w.accepted = [1, 2, 3] ∧ w.visited = [1] ∧ w.underway = [] ∧ w.pipeline.queue.pending = [3] ∧
      w.pipeline.queue.meter.count (.itemsDropped .cleared) = 0 ∧
      w.pipeline.queue.meter.count (.itemsDropped .closed) = 0 := by
  decide

end Custody

end Pipeline

end ChunkRouter
