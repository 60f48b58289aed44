import ChunkRouter.Proofs.Pipeline.Draining
import ChunkRouter.Proofs.Work.Closing

/-!
# Closing

Closing a pipeline drops what waits and cancels the drain task, wherever that is. `closing_is_a_cut`
says what is left of a pipeline after it: no batch is taken any more, and the visitor sees at most the
rest of the batch under way. If a clearing unwound before, there may be empty cells in the queue, and
closing may leave some counted; then calls still find something to do, in vain. `Coda` says what a move
comes to after the closing, and everything else here is read off it.

A task that is cancelled before it begins does not touch the queue, so it does not take back the flag
either. `processing_iff` says that the flag tells the truth but for that. It is about the moves of a pipeline
as they are, each of them in one step; where threads come between the halves of a move, and what a thread
that unwinds already adds to that, is in `ChunkRouter.Proofs.Pipeline.Interleaving`.
-/

namespace ChunkRouter

open Work

variable {α : Type}

namespace Pipeline

def Move.closes : Move α → Bool
  | .close => true
  | _ => false

namespace Drainage

/-- The use that a move makes of the queue, if it makes one. -/
def use? (slot : Nat) (w : Drainage α) : Move α → Option (Queue.Use α)
  | .enqueue x =>
    match w.pipeline.queue.reserveSlot slot with
    | .error _ => none
    | .ok () => some (.enqueue x)
  | .clear => some (.clear w.pipeline.keep)
  | .start => some .start
  | .stop => some .stop
  | .close => some .close
  | .dispatch => none
  | .begin i =>
    match w.tasks[i]? with
    | some .parked => if w.pipeline.cancelled then none else some .take
    | _ => none
  | .visit _ => none
  | .finish i =>
    match w.tasks[i]? with
    | some (.running []) => some .settle
    | _ => none
  | .fail i =>
    match w.tasks[i]? with
    | some (.running _) => some .abandon
    | _ => none

/-- A move makes its use of the queue, and closing cancels; nothing else of the pipeline changes. -/
theorem pipeline_step (slot : Nat) (w : Drainage α) (m : Move α) :
    (w.step slot m).pipeline =
      { w.pipeline with
        queue := (w.use? slot m).elim w.pipeline.queue w.pipeline.queue.use
        cancelled := w.pipeline.cancelled || m.closes } := by
  cases m with
  | enqueue x =>
    simp only [step, enqueue, use?, Pipeline.enqueue, Move.closes, Bool.or_false]
    cases hmemory : w.pipeline.queue.reserveSlot slot with
    | error panic => rfl
    | ok u =>
      cases hclosed : w.pipeline.queue.closed
      · simp only [Queue.enqueue_of_open hclosed, Option.elim, Queue.use]
      · simp only [Queue.enqueue_of_closed hclosed, Option.elim, Queue.use]
  | clear =>
    obtain ⟨panics, hclear⟩ := clear_eq w
    simp only [step, hclear, use?, Option.elim, Queue.use, Move.closes, Bool.or_false]
  | start => simp only [step, start, Pipeline.start, use?, Option.elim, Queue.use, Move.closes, Bool.or_false]
  | stop => simp only [step, Pipeline.stop, use?, Option.elim, Queue.use, Move.closes, Bool.or_false]
  | close => simp only [step, Pipeline.close, use?, Option.elim, Queue.use, Move.closes, Bool.or_true]
  | dispatch =>
    simp only [step, dispatch, use?, Option.elim, Move.closes, Bool.or_false]
    split <;> rfl
  | begin i =>
    simp only [step, use?, Move.closes, Bool.or_false]
    rcases htask : w.tasks[i]? with _ | _ | batch
    · rfl
    · unfold begin beginDrain
      by_cases hcancelled : w.pipeline.cancelled = true
      · simp only [if_pos hcancelled, Option.elim]
      · simp only [if_neg hcancelled, Option.elim, Queue.use]
        rcases w.pipeline.queue.take_cases with ⟨htake, -⟩ | ⟨ring, batch, htake, -⟩
        · rw [htake]
        · rw [htake]
    · rfl
  | visit i =>
    simp only [step, use?, Option.elim, Move.closes, Bool.or_false]
    split <;> rfl
  | finish i =>
    simp only [step, use?, Move.closes, Bool.or_false]
    rcases w.tasks[i]? with _ | _ | _ | _ <;> rfl
  | fail i =>
    simp only [step, use?, Move.closes, Bool.or_false]
    rcases w.tasks[i]? with _ | _ | _ <;> rfl

/-! ## Runs -/

section

variable {slot : Nat} {w : Drainage α}

/-- A move makes a use of the queue: there is memory for an offer, a clearing goes by the predicate of
the pipeline, and a drain task is there and at the right thing. -/
inductive Uses (slot : Nat) (w : Drainage α) : Move α → Queue.Use α → Prop where
  | enqueue (x : α) (memory : w.pipeline.queue.reserveSlot slot = .ok ()) :
      Uses slot w (.enqueue x) (.enqueue x)
  | clear : Uses slot w .clear (.clear w.pipeline.keep)
  | start : Uses slot w .start .start
  | stop : Uses slot w .stop .stop
  | close : Uses slot w .close .close
  | begin (i : Nat) (task : w.tasks[i]? = some .parked) (live : w.pipeline.cancelled = false) :
      Uses slot w (.begin i) .take
  | finish (i : Nat) (task : w.tasks[i]? = some (.running [])) : Uses slot w (.finish i) .settle
  | fail (i : Nat) (batch : List α) (task : w.tasks[i]? = some (.running batch)) :
      Uses slot w (.fail i) .abandon

theorem uses_of_use? {m : Move α} {u : Queue.Use α} (h : w.use? slot m = some u) : w.Uses slot m u := by
  cases m with
  | enqueue x =>
    simp only [use?] at h
    split at h
    · cases h
    · cases h
      exact .enqueue x (by assumption)
  | clear =>
    cases h
    exact .clear
  | start =>
    cases h
    exact .start
  | stop =>
    cases h
    exact .stop
  | close =>
    cases h
    exact .close
  | dispatch => cases h
  | begin i =>
    simp only [use?] at h
    split at h
    · split at h
      · cases h
      · cases h
        exact .begin i (by assumption) (eq_false_of_ne_true (by assumption))
    · cases h
  | visit i => cases h
  | finish i =>
    simp only [use?] at h
    split at h
    · cases h
      exact .finish i (by assumption)
    · cases h
  | fail i =>
    simp only [use?] at h
    split at h
    · cases h
      exact .fail i _ (by assumption)
    · cases h

/-- What a use of the queue keeps, a move keeps. -/
theorem queue_step {P : Queue α → Prop} (h : P w.pipeline.queue)
    (huse : ∀ u, (∀ keep, u = .clear keep → keep = w.pipeline.keep) → P (w.pipeline.queue.use u))
    (m : Move α) : P (w.step slot m).pipeline.queue := by
  rw [pipeline_step]
  cases hu : w.use? slot m with
  | none => exact h
  | some u =>
    refine huse u fun keep hclear => ?_
    subst hclear
    cases uses_of_use? hu
    rfl

theorem worn_step (slot : Nat) (h : w.pipeline.queue.Worn) (m : Move α) : (w.step slot m).pipeline.queue.Worn :=
  queue_step h (fun u _ => h.use u) m

/-- What every move keeps, a run keeps. -/
theorem foldl_keeps {P : Drainage α → Prop} (hstep : ∀ w m, P w → P (step slot w m)) (h : P w)
    (moves : List (Move α)) : P (moves.foldl (step slot) w) := by
  induction moves generalizing w with
  | nil => exact h
  | cons m moves ih => exact ih (hstep w m h)

theorem worn_run (slot : Nat) (lane : Lane.Token) (settings : Settings) (started : Bool)
    (keep : α → Except Panic Bool) (moves : List (Move α)) :
    (run slot (opened lane settings started keep) moves).pipeline.queue.Worn :=
  foldl_keeps (P := fun w => w.pipeline.queue.Worn) (fun _ m h => worn_step slot h m)
    (Queue.worn_new settings started) moves

/-- If clearings never panic, no cell is ever empty. -/
theorem whole_run (slot : Nat) (lane : Lane.Token) (settings : Settings) (started : Bool)
    {keep : α → Except Panic Bool} (hkeep : ∀ x, ∃ kept, keep x = .ok kept) (moves : List (Move α)) :
    (run slot (opened lane settings started keep) moves).pipeline.queue.Whole := by
  have htotal : keep = fun x => .ok (Ring.keeps keep x) := by
    funext x
    obtain ⟨kept, hkept⟩ := hkeep x
    rw [Ring.keeps, hkept]
  have hstep : ∀ (w : Drainage α) (m : Move α), w.pipeline.queue.Whole ∧ w.pipeline.keep = keep →
      (w.step slot m).pipeline.queue.Whole ∧ (w.step slot m).pipeline.keep = keep := by
    rintro w m ⟨hwhole, hw⟩
    constructor
    · refine queue_step hwhole ?_ m
      intro u hclear
      apply hwhole.use
      intro keep' hu
      refine ⟨Ring.keeps keep, ?_⟩
      rw [hclear keep' hu, hw]
      exact htotal
    · rw [pipeline_step]
      exact hw
  exact (foldl_keeps hstep ⟨Queue.whole_new settings started, rfl⟩ moves).1

theorem closed_step (w : Drainage α) (m : Move α) :
    (w.step slot m).pipeline.queue.closed = (w.pipeline.queue.closed || m.closes) := by
  rw [pipeline_step]
  cases hu : w.use? slot m with
  | none =>
    have hcloses : m.closes = false := by
      cases m with
      | close => cases hu
      | _ => rfl
    rw [hcloses]
    exact (Bool.or_false _).symm
  | some u =>
    have hcloses : u.closes = m.closes := by cases uses_of_use? hu <;> rfl
    rw [← hcloses]
    exact Queue.closed_use _ u

/-! ## After closing -/

/-- A pipeline that was closed. Its drain tasks are cancelled and its ring has no slots. -/
structure Shut (w : Drainage α) : Prop where
  closed : w.pipeline.queue.closed = true
  cancelled : w.pipeline.cancelled = true
  slots : w.pipeline.queue.capacity = 0

theorem shut_close (h : w.pipeline.queue.Worn) : (w.step slot .close).Shut := by
  have hclosed : (w.step slot .close).pipeline.queue.closed = true := by
    rw [closed_step, Move.closes, Bool.or_true]
  exact ⟨hclosed, rfl, (worn_step slot h .close).slots hclosed⟩

theorem Shut.step (h : w.Shut) (slot : Nat) (m : Move α) :
    (w.step slot m).Shut ∧ (w.step slot m).pipeline.queue.ring = w.pipeline.queue.ring := by
  have hring : (w.step slot m).pipeline.queue.ring = w.pipeline.queue.ring :=
    queue_step (P := fun q => q.ring = w.pipeline.queue.ring) rfl
      (fun u _ => Queue.ring_use_of_closed h.closed h.slots u) m
  refine ⟨⟨?_, ?_, ?_⟩, hring⟩
  · rw [closed_step, h.closed, Bool.true_or]
  · rw [pipeline_step]
    show (w.pipeline.cancelled || m.closes) = true
    rw [h.cancelled, Bool.true_or]
  · rw [Queue.capacity, hring]
    exact h.slots

/-- What a move comes to after the closing: a call that finds nothing to do, a dispatch that was due, a
task that was cancelled, or a step of the batch under way. -/
inductive Coda (w w' : Drainage α) : Prop where
  | call (tasks : w'.tasks = w.tasks) (visited : w'.visited = w.visited)
      (dispatched : w'.dispatched = w.dispatched)
      (idle : w.pipeline.queue.isEmpty = true ∨ w.pipeline.queue.processing = true →
        w'.due = w.due ∧ w'.pipeline.queue.processing = w.pipeline.queue.processing)
  | dispatch (pipeline : w'.pipeline = w.pipeline) (due : w.due = w'.due + 1)
      (tasks : w'.tasks = w.tasks ++ [.parked]) (visited : w'.visited = w.visited)
      (dispatched : w'.dispatched = w.dispatched ++ [w.pipeline.lane])
  | skip (pipeline : w'.pipeline = w.pipeline) (due : w'.due = w.due)
      (before : w.tasks = [.parked]) (tasks : w'.tasks = []) (visited : w'.visited = w.visited)
      (dispatched : w'.dispatched = w.dispatched)
  | visit (x : α) (rest : List α) (pipeline : w'.pipeline = w.pipeline) (due : w'.due = w.due)
      (before : w.tasks = [.running (x :: rest)]) (tasks : w'.tasks = [.running rest])
      (visited : w'.visited = w.visited ++ [x]) (dispatched : w'.dispatched = w.dispatched)
  | leave (batch : List α) (due : w'.due = w.due) (before : w.tasks = [.running batch])
      (tasks : w'.tasks = []) (visited : w'.visited = w.visited)
      (dispatched : w'.dispatched = w.dispatched)
      (released : w.pipeline.queue.isEmpty = true → w'.pipeline.queue.processing = false)

theorem Coda.refl (w : Drainage α) : Coda w w := .call rfl rfl rfl fun _ => ⟨rfl, rfl⟩

theorem Shut.coda {lane : Lane.Token} (h : w.Shut) (hm : w.Manned lane 0) (m : Move α) :
    Coda w (w.step slot m) := by
  cases m with
  | enqueue x =>
    simp only [Drainage.step, Drainage.enqueue, Pipeline.enqueue, Queue.enqueue_of_closed h.closed]
    split <;> exact .call rfl rfl rfl fun _ => ⟨rfl, rfl⟩
  | clear =>
    obtain ⟨panics, hclear⟩ := clear_eq w
    have hprocessing := congrArg Queue.processing (Queue.clear_eq w.pipeline.queue w.pipeline.keep)
    rw [Drainage.step, hclear]
    exact .call rfl rfl rfl fun _ => ⟨rfl, hprocessing⟩
  | start =>
    simp only [Drainage.step, Drainage.start, Pipeline.start, Queue.start_eq]
    refine .call rfl rfl rfl fun hidle => ?_
    rcases hidle with hempty | hprocessing
    · simp [hempty]
    · simp [hprocessing]
  | stop => exact .call rfl rfl rfl fun _ => ⟨rfl, rfl⟩
  | close =>
    have hprocessing := congrArg Queue.processing (Queue.close_eq w.pipeline.queue)
    exact .call rfl rfl rfl fun _ => ⟨rfl, hprocessing⟩
  | dispatch =>
    simp only [Drainage.step, Drainage.dispatch]
    split
    · exact .refl w
    · rename_i hdue
      exact .dispatch rfl (Nat.succ_pred_eq_of_ne_zero hdue).symm rfl rfl rfl
  | begin i =>
    simp only [Drainage.step]
    split
    · rename_i hi
      obtain ⟨htasks, rfl, -⟩ := hm.alone hi
      rw [begin, beginDrain, if_pos h.cancelled]
      exact .skip rfl rfl htasks (congrArg (·.eraseIdx 0) htasks) rfl rfl
    · exact .refl w
  | visit i =>
    simp only [Drainage.step]
    split
    · rename_i x rest hi
      obtain ⟨htasks, rfl, -⟩ := hm.alone hi
      exact .visit x rest rfl rfl htasks (congrArg (·.set 0 (.running rest)) htasks) rfl rfl
    · exact .refl w
  | finish i =>
    simp only [Drainage.step]
    split
    · rename_i hi
      obtain ⟨htasks, rfl, -⟩ := hm.alone hi
      simp only [finish, endDrain, Queue.settle_eq]
      refine .leave [] ?_ htasks (congrArg (·.eraseIdx 0) htasks) rfl rfl fun hempty => ?_
      · simp [h.closed]
      · simp [hempty]
    · exact .refl w
  | fail i =>
    simp only [Drainage.step]
    split
    · rename_i batch hi
      obtain ⟨htasks, rfl, -⟩ := hm.alone hi
      exact .leave batch rfl htasks (congrArg (·.eraseIdx 0) htasks) rfl rfl fun _ => rfl
    · exact .refl w

/-- Whatever a closed pipeline keeps move by move, it keeps. -/
theorem Shut.foldl_keeps {lane : Lane.Token} {P : Drainage α → Prop} (h : w.Shut) (hm : w.Manned lane 0)
    (hw : P w) (hstep : ∀ w w', w.Shut → w.Manned lane 0 → Coda w w' →
      w'.pipeline.queue.ring = w.pipeline.queue.ring → P w → P w') (moves : List (Move α)) :
    P (moves.foldl (Drainage.step slot) w) := by
  induction moves generalizing w with
  | nil => exact hw
  | cons m moves ih =>
    obtain ⟨hshut, hring⟩ := h.step slot m
    exact ih hshut (hm.step slot m) (hstep w _ h hm (h.coda hm m) hring hw)

theorem Shut.foldl (h : w.Shut) (moves : List (Move α)) :
    (moves.foldl (Drainage.step slot) w).Shut ∧
      (moves.foldl (Drainage.step slot) w).pipeline.queue.ring = w.pipeline.queue.ring := by
  induction moves generalizing w with
  | nil => exact ⟨h, rfl⟩
  | cons m moves ih =>
    obtain ⟨hshut, hring⟩ := h.step slot m
    obtain ⟨hlast, hlater⟩ := ih hshut
    exact ⟨hlast, hlater.trans hring⟩

/-- Only the rest of the batch under way is visited, from its front on. -/
theorem Coda.visits {w' : Drainage α} (c : Coda w w') :
    ∃ seen, w'.visited = w.visited ++ seen ∧ seen ++ w'.underway <+: w.underway := by
  cases c with
  | call tasks visited =>
    refine ⟨[], by rw [visited, List.append_nil], ?_⟩
    rw [underway, tasks]
    exact List.prefix_rfl
  | dispatch _ _ tasks visited =>
    refine ⟨[], by rw [visited, List.append_nil], ?_⟩
    simp [underway, tasks, Task.left]
  | skip _ _ _ tasks visited =>
    refine ⟨[], by rw [visited, List.append_nil], ?_⟩
    rw [underway, tasks]
    exact List.nil_prefix
  | visit x rest _ _ before tasks visited =>
    refine ⟨[x], visited, ?_⟩
    rw [underway, underway, tasks, before]
    exact List.prefix_rfl
  | leave batch _ _ tasks visited =>
    refine ⟨[], by rw [visited, List.append_nil], ?_⟩
    rw [underway, tasks]
    exact List.nil_prefix

theorem Shut.visits {lane : Lane.Token} (h : w.Shut) (hm : w.Manned lane 0) (moves : List (Move α)) :
    ∃ seen, (moves.foldl (Drainage.step slot) w).visited = w.visited ++ seen ∧ seen <+: w.underway := by
  have hall : ∃ seen, (moves.foldl (Drainage.step slot) w).visited = w.visited ++ seen ∧
      seen ++ (moves.foldl (Drainage.step slot) w).underway <+: w.underway := by
    refine h.foldl_keeps (P := fun v => ∃ seen, v.visited = w.visited ++ seen ∧
      seen ++ v.underway <+: w.underway) hm ⟨[], (List.append_nil _).symm, List.prefix_rfl⟩ ?_ moves
    rintro v v' - - c - ⟨seen, hvisited, hseen⟩
    obtain ⟨more, hmore, hprefix⟩ := c.visits
    refine ⟨seen ++ more, by rw [hmore, hvisited, List.append_assoc], ?_⟩
    rw [List.append_assoc]
    exact List.IsPrefix.trans ((List.prefix_append_right_inj seen).2 hprefix) hseen
  obtain ⟨seen, hvisited, hseen⟩ := hall
  exact ⟨seen, hvisited, List.IsPrefix.trans (List.prefix_append _ _) hseen⟩

/-- No call asks for a dispatch any more. -/
theorem Shut.asks {lane : Lane.Token} (h : w.Shut) (hm : w.Manned lane 0)
    (hempty : w.pipeline.queue.isEmpty = true) (moves : List (Move α)) :
    (moves.foldl (Drainage.step slot) w).due + (moves.foldl (Drainage.step slot) w).dispatched.length =
      w.due + w.dispatched.length := by
  refine (h.foldl_keeps (P := fun v => v.pipeline.queue.isEmpty = true ∧
    v.due + v.dispatched.length = w.due + w.dispatched.length) hm ⟨hempty, rfl⟩ ?_ moves).2
  rintro v v' - - c hring ⟨hv, hcount⟩
  refine ⟨by rw [Queue.isEmpty, hring]; exact hv, ?_⟩
  rw [← hcount]
  cases c with
  | call _ _ dispatched idle => rw [(idle (.inl hv)).1, dispatched]
  | dispatch _ due _ _ dispatched =>
    rw [due, dispatched, List.length_append, List.length_singleton]
    omega
  | skip _ due _ _ _ dispatched => rw [due, dispatched]
  | visit _ _ _ due _ _ _ dispatched => rw [due, dispatched]
  | leave _ due _ _ _ dispatched => rw [due, dispatched]

/-! ## The flag -/

/-- A drain task was asked for and has not begun. -/
def Waiting (w : Drainage α) : Prop := 0 < w.due ∨ Task.parked ∈ w.tasks

/-- The flag is up, and no task will take it back: none is at a batch. -/
structure Stranded (w : Drainage α) : Prop where
  processing : w.pipeline.queue.processing = true
  idle : ∀ batch, Task.running batch ∉ w.tasks

/-- The flag stands for the batch under way. -/
structure Ending (w : Drainage α) : Prop where
  due : w.due = 0
  running : Task.parked ∉ w.tasks
  processing : w.pipeline.queue.processing.toNat = w.tasks.length

theorem Stranded.coda {w' : Drainage α} (h : w.Stranded) (c : Coda w w') : w'.Stranded := by
  cases c with
  | call tasks _ _ idle => exact ⟨(idle (.inr h.processing)).2.trans h.processing, tasks ▸ h.idle⟩
  | dispatch pipeline _ tasks =>
    refine ⟨pipeline ▸ h.processing, fun batch hmem => ?_⟩
    rw [tasks, List.mem_append, List.mem_singleton] at hmem
    rcases hmem with hmem | hmem
    · exact h.idle batch hmem
    · cases hmem
  | skip pipeline _ _ tasks =>
    refine ⟨pipeline ▸ h.processing, fun batch hmem => ?_⟩
    rw [tasks] at hmem
    cases hmem
  | visit x rest _ _ before => exact absurd (before ▸ List.mem_cons_self) (h.idle (x :: rest))
  | leave batch _ before => exact absurd (before ▸ List.mem_cons_self) (h.idle batch)

theorem Ending.coda {w' : Drainage α} (h : w.Ending) (hempty : w.pipeline.queue.isEmpty = true)
    (c : Coda w w') : w'.Ending := by
  cases c with
  | call tasks _ _ idle =>
    obtain ⟨hdue, hprocessing⟩ := idle (.inl hempty)
    refine ⟨hdue.trans h.due, tasks ▸ h.running, ?_⟩
    rw [hprocessing, tasks]
    exact h.processing
  | dispatch _ due =>
    rw [h.due] at due
    cases due
  | skip _ _ before => exact absurd (before ▸ List.mem_cons_self) h.running
  | visit x rest pipeline due before tasks =>
    refine ⟨due.trans h.due, ?_, ?_⟩
    · rw [tasks, List.mem_singleton]
      intro hparked
      cases hparked
    · have hflag := h.processing
      rw [before] at hflag
      rw [pipeline, tasks, hflag]
      rfl
  | leave batch due before tasks _ _ released =>
    refine ⟨due.trans h.due, ?_, ?_⟩
    · rw [tasks]
      exact List.not_mem_nil
    · rw [released hempty, tasks]
      rfl

/-- A run that ends closed was closed somewhere for the first time. -/
theorem exists_close (slot : Nat) {moves : List (Move α)} (hopen : w.pipeline.queue.closed = false)
    (hclosed : (moves.foldl (Drainage.step slot) w).pipeline.queue.closed = true) :
    ∃ before after, moves = before ++ .close :: after ∧
      (before.foldl (Drainage.step slot) w).pipeline.queue.closed = false := by
  induction moves generalizing w with
  | nil => exact Bool.noConfusion (hopen.symm.trans hclosed)
  | cons m moves ih =>
    cases hnext : (w.step slot m).pipeline.queue.closed with
    | false =>
      obtain ⟨before, after, rfl, hbefore⟩ := ih hnext hclosed
      exact ⟨m :: before, after, rfl, hbefore⟩
    | true =>
      rw [closed_step, hopen, Bool.false_or] at hnext
      cases m with
      | close => exact ⟨[], moves, rfl, hopen⟩
      | _ => cases hnext

section

variable {lane : Lane.Token}

/-- Where a task waits, no other one is at a batch. -/
theorem Manned.stranded (hm : w.Manned lane 0) (h : w.Waiting) : w.Stranded := by
  have hmost := hm.atMost
  have hbit := Bool.toNat_le w.pipeline.queue.processing
  rcases h with hdue | hparked
  · have hnone : w.tasks = [] := List.eq_nil_of_length_eq_zero (by omega)
    refine ⟨Bool.toNat_eq_one.1 (by omega), fun batch hmem => ?_⟩
    rw [hnone] at hmem
    cases hmem
  · obtain ⟨i, hi⟩ := List.mem_iff_getElem?.1 hparked
    obtain ⟨htasks, -, -, hprocessing⟩ := hm.alone hi
    refine ⟨hprocessing, fun batch hmem => ?_⟩
    rw [htasks, List.mem_singleton] at hmem
    cases hmem

theorem Manned.ending (hm : w.Manned lane 0) (hopen : w.pipeline.queue.closed = false)
    (h : ¬ w.Waiting) : w.Ending := by
  have hdue : w.due = 0 := Nat.eq_zero_of_not_pos fun hdue => h (.inl hdue)
  have hexact := hm.exact hopen
  rw [hdue, Nat.zero_add] at hexact
  exact ⟨hdue, fun hparked => h (.inr hparked), hexact.symm⟩

/-- What the flag stands for when the pipeline is closed, it stands for ever after. -/
theorem Manned.foldl_close (hm : w.Manned lane 0) (slot : Nat) (hworn : w.pipeline.queue.Worn)
    (after : List (Move α)) :
    let v := (Move.close :: after).foldl (Drainage.step slot) w
    (w.Stranded → v.Stranded) ∧ (w.Ending → v.pipeline.queue.len = 0 → v.Ending) := by
  intro v
  have hshut : (w.step slot .close).Shut := shut_close hworn
  have hm' := hm.step slot .close
  have hclose := congrArg Queue.processing (Queue.close_eq w.pipeline.queue)
  have hflag : (w.step slot .close).pipeline.queue.processing = w.pipeline.queue.processing := hclose
  constructor
  · intro h
    exact hshut.foldl_keeps hm' ⟨hflag.trans h.processing, h.idle⟩ (fun _ _ _ _ c _ h => h.coda c) after
  · intro h hlen
    have hring : v.pipeline.queue.ring = (w.step slot .close).pipeline.queue.ring :=
      (hshut.foldl after).2
    have hempty : (w.step slot .close).pipeline.queue.isEmpty = true := by
      rw [Queue.isEmpty, ← hring]
      exact beq_iff_eq.2 hlen
    refine (hshut.foldl_keeps (P := fun v => v.pipeline.queue.isEmpty = true ∧ v.Ending) hm'
      ⟨hempty, h.due, h.running, (congrArg Bool.toNat hflag).trans h.processing⟩ ?_ after).2
    rintro u u' - - c hring ⟨hu, hending⟩
    constructor
    · rw [Queue.isEmpty, hring]
      exact hu
    · exact hending.coda hu c

end

end

/-- Whether a closed pipeline has its flag up for nothing was settled when it was closed first. -/
theorem run_close (slot : Nat) (lane : Lane.Token) (settings : Settings) (started : Bool)
    (keep : α → Except Panic Bool) (before after : List (Move α)) :
    let v := run slot (opened lane settings started keep) before
    let w := run slot (opened lane settings started keep) (before ++ .close :: after)
    (v.Waiting → w.Stranded) ∧
      (¬ v.Waiting → v.pipeline.queue.closed = false → w.pipeline.queue.len = 0 → w.Ending) := by
  intro v w
  have hm : v.Manned lane 0 := manned_run slot lane settings started keep before
  have hworn : v.pipeline.queue.Worn := worn_run slot lane settings started keep before
  have hlast : w = (Move.close :: after).foldl (step slot) v := List.foldl_append
  obtain ⟨hstranded, hending⟩ := hm.foldl_close slot hworn after
  rw [hlast]
  constructor
  · intro hwaiting
    exact hstranded (hm.stranded hwaiting)
  · intro hnone hopen hlen
    exact hending (hm.ending hopen hnone) hlen

/-! ## What callers see -/

/-- **The flag stands for the drain task.** There is at most one, counting a dispatch that a call is
about to make, and the flag is up while there is one. While the pipeline is open the flag is up for no
other reason. Closing drops every item that is counted, unless a clearing panicked before; where every move
is one step, the flag may then be up without a task for one reason only, that a task was waiting when the
pipeline was closed first: it was cancelled, and leaves the flag up for ever. -/
theorem processing_iff (slot : Nat) (lane : Lane.Token) (settings : Settings) (started : Bool)
    (keep : α → Except Panic Bool) (moves : List (Move α)) :
    let w := run slot (opened lane settings started keep) moves
    let q := w.pipeline.queue
    w.due + w.tasks.length ≤ 1 ∧
      (w.due + w.tasks.length = 1 → q.processing = true) ∧
      (q.closed = false → (q.processing = true ↔ w.due + w.tasks.length = 1)) ∧
      (q.closed = true → q.len = 0 → (q.processing = true ↔ w.due + w.tasks.length = 1 ∨
        ∃ before after, moves = before ++ .close :: after ∧
          (run slot (opened lane settings started keep) before).pipeline.queue.closed = false ∧
          (run slot (opened lane settings started keep) before).Waiting)) ∧
      ((∀ x, ∃ kept, keep x = .ok kept) → q.closed = true → q.len = 0) := by
  intro w q
  have hm : w.Manned lane 0 := manned_run slot lane settings started keep moves
  have hmost := hm.atMost
  have hbit := Bool.toNat_le w.pipeline.queue.processing
  have hup : w.due + w.tasks.length = 1 → q.processing = true := by
    intro hone
    exact Bool.toNat_eq_one.1 (Nat.le_antisymm hbit (hone ▸ hmost))
  refine ⟨Nat.le_trans hmost hbit, hup, ?_, ?_, ?_⟩
  · intro hopen
    rw [hm.exact hopen]
    exact Bool.toNat_eq_one.symm
  · intro hclosed hlen
    constructor
    · intro hflag
      obtain ⟨before, after, rfl, hbefore⟩ := exists_close slot
        (w := new (opened lane settings started keep)) rfl hclosed
      by_cases hwaiting : (run slot (opened lane settings started keep) before).Waiting
      · exact .inr ⟨before, after, rfl, hbefore, hwaiting⟩
      · have hending : w.Ending :=
          (run_close slot lane settings started keep before after).2 hwaiting hbefore hlen
        left
        rw [hending.due, ← hending.processing, Nat.zero_add]
        exact Bool.toNat_eq_one.2 hflag
    · rintro (hone | ⟨before, after, rfl, -, hwaiting⟩)
      · exact hup hone
      · exact ((run_close slot lane settings started keep before after).1 hwaiting).processing
  · intro hkeep
    exact (whole_run slot lane settings started hkeep moves).len_of_closed

/-- A task is dispatched, the pipeline is closed, the task runs: no task is left, and the flag is up. -/
theorem cancelled_task_leaves_the_flag :
    let w : Drainage Nat := run 8 (opened ⟨"lane"⟩ ⟨2, 1, 1, by decide, by decide⟩ true fun _ => .ok false)
      [.enqueue 1, .dispatch, .close, .begin 0]
    w.due = 0 ∧ w.tasks.length = 0 ∧ w.pipeline.queue.len = 0 ∧ w.pipeline.queue.processing = true := by
  decide

/-- **Closing is a cut.** Closing answers how many items wait, none of them of the batch under way, if
the queue counts just these, as it does unless a clearing panicked; otherwise it answers how many wait
before the first empty cell and goes on counting what is behind it. Whatever happens later, closing
answers zero, there are no slots and no items, an offer is refused and counted, a task that has not
begun does nothing, stopping leaves the flag alone, and the visitor sees the rest of the batch under
way at most. If nothing is counted any more, no call asks for a dispatch again, clearing drops nothing
and starting does not touch the flag; if something is, clearing panics, and starting asks for a
dispatch whenever the flag is down. -/
theorem closing_is_a_cut (slot : Nat) (lane : Lane.Token) (settings : Settings) (started : Bool)
    (keep : α → Except Panic Bool) (moves later : List (Move α)) :
    let w := run slot (opened lane settings started keep) moves
    let c := w.step slot .close
    let v := later.foldl (step slot) c
    let q := w.pipeline.queue
    let p := v.pipeline
    (q.len = q.pending.length → w.pipeline.close.2 = q.pending.length ∧ c.pipeline.queue.len = 0) ∧
      (q.closed = false → q.len ≠ q.pending.length →
        w.pipeline.close.2 + c.pipeline.queue.len + 1 = q.len) ∧
      ((∀ x, ∃ kept, keep x = .ok kept) → q.len = q.pending.length) ∧
      (p.queue.closed = true ∧ p.close.2 = 0 ∧ p.queue.capacity = 0 ∧ p.queue.pending = [] ∧
        p.queue.len = c.pipeline.queue.len) ∧
      (∀ x, p.queue.reserveSlot slot = .ok () ∧ (p.enqueue x).2 = .refused ∧
        ∀ counter, (p.enqueue x).1.queue.meter.count counter =
          p.queue.meter.count counter + if .itemsDropped .afterClose = counter then 1 else 0) ∧
      (∀ i, v.tasks[i]? = some .parked → v.step slot (.begin i) = { v with tasks := v.tasks.eraseIdx i }) ∧
      (∃ seen, v.visited = w.visited ++ seen ∧ seen <+: w.underway) ∧
      p.stop.queue.processing = p.queue.processing ∧
      (p.queue.len = 0 → v.due + v.dispatched.length = w.due + w.dispatched.length ∧
        p.clear = (p, .ok 0) ∧ p.start.2 = false ∧
        p.start.1.queue.processing = p.queue.processing) ∧
      (p.queue.len ≠ 0 → p.clear = (p, .error .remainderByZero) ∧
        p.start.2 = !p.queue.processing) := by
  intro w c v q p
  have hm : w.Manned lane 0 := manned_run slot lane settings started keep moves
  have hworn : q.Worn := worn_run slot lane settings started keep moves
  have hshut : c.Shut := shut_close hworn
  have hm' : c.Manned lane 0 := hm.step slot .close
  obtain ⟨hlast, hring⟩ : v.Shut ∧ p.queue.ring = c.pipeline.queue.ring := hshut.foldl later
  have hlen : p.queue.len = c.pipeline.queue.len := congrArg Ring.len hring
  have hclear : p.clear =
      (p, if p.queue.len = 0 then .ok 0 else .error .remainderByZero) := by
    rw [Pipeline.clear, Queue.clear_of_slotless hlast.slots]
  have hstart : p.start.2 = (!p.queue.processing && !p.queue.isEmpty) ∧
      p.start.1.queue.processing = (p.queue.processing || !p.queue.isEmpty) := by
    rw [Pipeline.start, Queue.start_eq]
    exact ⟨rfl, rfl⟩
  obtain ⟨hanswer, hhole⟩ := hworn.close_answer
  refine ⟨hanswer, hhole, ?_, ?_, ?_, ?_, hshut.visits hm' later, rfl, ?_, ?_⟩
  · intro hkeep
    exact (whole_run slot lane settings started hkeep moves).len_eq
  · refine ⟨hlast.closed, ?_, hlast.slots, Queue.pending_of_slotless hlast.slots, hlen⟩
    rw [Pipeline.close, Queue.close, if_pos hlast.closed]
  · intro x
    rw [Pipeline.enqueue, Queue.enqueue_of_closed hlast.closed]
    refine ⟨?_, rfl, ?_⟩
    · rw [Queue.reserveSlot, hlast.closed, Bool.true_or, if_pos rfl]
    · intro counter
      exact Meter.count_bump p.queue.meter (.itemsDropped .afterClose) counter
  · intro i hi
    simp only [step, hi, begin, beginDrain, if_pos hlast.cancelled]
  · intro hzero
    have hempty : p.queue.isEmpty = true := beq_iff_eq.2 hzero
    have hempty' : c.pipeline.queue.isEmpty = true := beq_iff_eq.2 (hlen.symm.trans hzero)
    rw [hclear, if_pos hzero, hstart.1, hstart.2, hempty]
    refine ⟨hshut.asks hm' hempty' later, rfl, ?_, ?_⟩
    · rw [Bool.not_true, Bool.and_false]
    · rw [Bool.not_true, Bool.or_false]
  · intro hcount
    have hsome : p.queue.isEmpty = false := beq_eq_false_iff_ne.2 hcount
    rw [hclear, if_neg hcount, hstart.1, hsome]
    exact ⟨rfl, Bool.and_true _⟩

/-- A clearing panics on the first of three items. Closing finds none of the two that wait, goes on
counting them, and then starting asks for a dispatch and clearing panics. -/
theorem closing_misses_what_a_clearing_left :
    let w : Drainage Nat := run 8
      (opened ⟨"lane"⟩ ⟨4, 4, 1, by decide, by decide⟩ false fun _ => .error .capacityOverflow)
      [.enqueue 1, .enqueue 2, .enqueue 3, .clear]
    let p := w.pipeline.close.1
    w.pipeline.queue.pending = [2, 3] ∧ w.pipeline.close.2 = 0 ∧ p.queue.len = 2 ∧ p.start.2 = true ∧
      p.clear.2 = .error .remainderByZero :=
  ⟨by decide, by decide, by decide, by decide, rfl⟩

end Drainage

end Pipeline

end ChunkRouter
