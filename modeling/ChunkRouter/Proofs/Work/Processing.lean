import ChunkRouter.Proofs.Work.Closing

/-!
# The single processor

A queue in use: anybody may call it at any time, in the middle of a batch as well, and a processor
that was started takes batches until it is released. `Workshop.Staffed` says how the flag of the
queue, the processors at work and the numbers of starts and releases go together, and every move
keeps it. `single_processor` reads off that there is never a second processor, and that no items lie
about with nobody at them.

The guard of a batch asks whether its thread unwinds, and cannot tell whether the batch is why. So a
dequeue that a destructor makes on a thread that unwinds already has its slot released under it, though
its batch was handed over and it goes on: `Move.slip`. Each of these lets one more processor be started.

A start is made by the call that asks for it; when the processor takes its first batch is open.
-/

namespace ChunkRouter.Work

variable {α : Type}

/-! ## Moves -/

/-- What a processor that was started and not released is at. -/
inductive Processor (α : Type) where
  | ready
  | busy (batch : List α)

/-- A queue and its processors. -/
structure Workshop (α : Type) where
  queue : Queue α
  /-- The processors that were started and not released, in the order they were started in. -/
  processors : List (Processor α)
  starts : Nat
  releases : Nat
  /-- How often the slot was released under a processor that goes on. -/
  slips : Nat
  /-- How many clearings panicked. -/
  unwound : Nat
  /-- A batch was abandoned and items were left behind; the queue was not started again, nor was an item
  accepted while it runs. -/
  orphaned : Bool

/-- What happens next. The processor at place `i` begins a dequeue, is done with its batch, or panics in
the middle of it; or its thread unwinds already, and the slot is released although the batch is done. -/
inductive Move (α : Type) where
  | enqueue (x : α)
  | clear (keep : α → Except Panic Bool)
  | start
  | stop
  | close
  | take (i : Nat)
  | finish (i : Nat)
  | fail (i : Nat)
  | slip (i : Nat)

namespace Workshop

def new (settings : Settings) (started : Bool) : Workshop α := ⟨.new settings started, [], 0, 0, 0, 0, false⟩

/-- Start a processor if one was asked for. -/
def wake (w : Workshop α) (wakes : Bool) : Workshop α :=
  if wakes then { w with processors := w.processors ++ [.ready], starts := w.starts + 1 } else w

/-- The processor at place `i` is gone. -/
def release (w : Workshop α) (i : Nat) : Workshop α :=
  { w with processors := w.processors.eraseIdx i, releases := w.releases + 1 }

/-- Offer an item that needs a slot of `slot` bytes. Without memory for it nothing changes. -/
def enqueue (slot : Nat) (w : Workshop α) (x : α) : Workshop α :=
  match w.queue.reserveSlot slot with
  | .error _ => w
  | .ok () =>
    match w.queue.enqueue x with
    | (q, .refused) => { w with queue := q }
    | (q, .accepted wakes) => { w with queue := q, orphaned := w.orphaned && !q.started }.wake wakes

def clear (w : Workshop α) (keep : α → Except Panic Bool) : Workshop α :=
  match w.queue.clear keep with
  | (q, .ok _) => { w with queue := q }
  | (q, .error _) => { w with queue := q, unwound := w.unwound + 1 }

def start (w : Workshop α) : Workshop α :=
  match w.queue.start with
  | (q, wakes) => { w with queue := q, orphaned := false }.wake wakes

/-- The first half of a dequeue; it answers at once if there is no batch to take. -/
def take (w : Workshop α) (i : Nat) : Workshop α × Option Bool :=
  match w.queue.take with
  | (q, none) => ({ w with queue := q }.release i, some false)
  | (q, some batch) =>
    ({ w with queue := q, processors := w.processors.set i (.busy batch) }, none)

/-- The second half of a dequeue. -/
def finish (w : Workshop α) (i : Nat) : Workshop α × Option Bool :=
  match w.queue.settle with
  | (q, true) => ({ w with queue := q, processors := w.processors.set i .ready }, some true)
  | (q, false) => ({ w with queue := q }.release i, some false)

/-- The second half of a dequeue that unwinds. -/
def fail (w : Workshop α) (i : Nat) : Workshop α :=
  { w with queue := w.queue.abandon, orphaned := !w.queue.isEmpty }.release i

/-- The slot is released, and the processor goes on. -/
def slip (w : Workshop α) : Workshop α := { w with queue := w.queue.abandon, slips := w.slips + 1 }

/-- Make a move, and tell what a dequeue that returned in it answered. A processor that is not there, or
is at something else, does not move. -/
def step (slot : Nat) (w : Workshop α) : Move α → Workshop α × Option Bool
  | .enqueue x => (w.enqueue slot x, none)
  | .clear keep => (w.clear keep, none)
  | .start => (w.start, none)
  | .stop => ({ w with queue := w.queue.stop }, none)
  | .close => ({ w with queue := w.queue.close.1 }, none)
  | .take i =>
    match w.processors[i]? with
    | some .ready => w.take i
    | _ => (w, none)
  | .finish i =>
    match w.processors[i]? with
    | some (.busy _) => w.finish i
    | _ => (w, none)
  | .fail i =>
    match w.processors[i]? with
    | some (.busy _) => (w.fail i, none)
    | _ => (w, none)
  | .slip i =>
    match w.processors[i]? with
    | some (.busy _) => (w.slip, none)
    | _ => (w, none)

def run (slot : Nat) (settings : Settings) (started : Bool) (moves : List (Move α)) : Workshop α :=
  moves.foldl (fun w m => (w.step slot m).1) (new settings started)

/-! ## The invariant -/

/-- A processor is at work when the queue says so, and only slips let it say nothing of one, or let
there be a second. Waiting items of a queue that runs have a processor, unless they were left behind. -/
structure Staffed (w : Workshop α) : Prop where
  atLeast : w.queue.processing.toNat ≤ w.processors.length
  atMost : w.processors.length ≤ w.queue.processing.toNat + w.slips
  count : w.starts = w.releases + w.processors.length
  attended : w.queue.closed = false → w.queue.started = true → w.queue.isEmpty = false →
    w.orphaned = false → 0 < w.processors.length
  forsaken : w.orphaned = true → w.queue.processing = false

theorem staffed_new (settings : Settings) (started : Bool) :
    (new settings started : Workshop α).Staffed where
  atLeast := Nat.le_refl 0
  atMost := Nat.le_refl 0
  count := rfl
  attended := fun _ _ h => absurd h (by simp [new, Queue.new, Queue.isEmpty, Ring.isEmpty, Ring.new])
  forsaken := fun h => absurd h Bool.false_ne_true

section

variable {w : Workshop α} {q : Queue α} {i : Nat} {p : Processor α}

/-- Without slips the flag stands for the one processor. -/
theorem Staffed.length_eq (h : w.Staffed) (hslips : w.slips = 0) :
    w.processors.length = w.queue.processing.toNat := by
  have hmost := h.atMost
  rw [hslips, Nat.add_zero] at hmost
  exact Nat.le_antisymm hmost h.atLeast

/-! ## One move -/

/-- A queue in which nothing new is waiting needs nobody new. -/
theorem Staffed.queue (h : w.Staffed) (hp : q.processing = w.queue.processing)
    (hq : q.closed = false → q.started = true → q.isEmpty = false →
      w.queue.closed = false ∧ w.queue.started = true ∧ w.queue.isEmpty = false) (unwound : Nat) :
    { w with queue := q, unwound := unwound }.Staffed where
  atLeast := hp ▸ h.atLeast
  atMost := hp ▸ h.atMost
  count := h.count
  attended := fun hclosed hstarted hempty => by
    obtain ⟨hclosed', hstarted', hempty'⟩ := hq hclosed hstarted hempty
    exact h.attended hclosed' hstarted' hempty'
  forsaken := fun ho => hp.trans (h.forsaken ho)

/-- The flag goes up exactly when a processor is started. -/
theorem Staffed.wake (h : w.Staffed) {wakes orphaned : Bool}
    (hp : q.processing = (w.queue.processing || wakes))
    (hw : wakes = true → w.queue.processing = false)
    (hattended : q.closed = false → q.started = true → q.isEmpty = false → orphaned = false →
      q.processing = true)
    (hforsaken : orphaned = true → q.processing = false) :
    (Workshop.wake { w with queue := q, orphaned := orphaned } wakes).Staffed := by
  have hleast := h.atLeast
  have hmost := h.atMost
  have hcount := h.count
  cases wakes with
  | false =>
    rw [Bool.or_false] at hp
    rw [← hp] at hleast hmost
    refine ⟨hleast, hmost, hcount, fun hclosed hstarted hempty ho => ?_, hforsaken⟩
    rw [hattended hclosed hstarted hempty ho] at hleast
    exact hleast
  | true =>
    rw [hw rfl] at hp hmost
    have hone : w.processors.length + 1 = (w.processors ++ [Processor.ready]).length := by
      rw [List.length_append, List.length_singleton]
    refine ⟨?_, ?_, ?_, fun _ _ _ _ => ?_, hforsaken⟩
    · show q.processing.toNat ≤ (w.processors ++ [Processor.ready]).length
      rw [hp, ← hone]
      exact Nat.succ_le_succ (Nat.zero_le _)
    · show (w.processors ++ [Processor.ready]).length ≤ q.processing.toNat + w.slips
      rw [hp, ← hone, Nat.add_comm]
      exact Nat.add_le_add_left (by simpa using hmost) 1
    · show w.starts + 1 = w.releases + (w.processors ++ [Processor.ready]).length
      omega
    · show 0 < (w.processors ++ [Processor.ready]).length
      omega

/-- The flag goes down when a processor is released. -/
theorem Staffed.release (h : w.Staffed) (hi : w.processors[i]? = some p) {orphaned : Bool}
    (hp : q.processing = false)
    (hleft : q.closed = false → q.started = true → q.isEmpty = false → orphaned = true) :
    (Workshop.release { w with queue := q, orphaned := orphaned } i).Staffed := by
  have hlt : i < w.processors.length := (List.getElem?_eq_some_iff.1 hi).1
  have hone : (w.processors.eraseIdx i).length = w.processors.length - 1 := by
    rw [List.length_eraseIdx, if_pos hlt]
  have hmost := h.atMost
  have hbit := Bool.toNat_le w.queue.processing
  have hcount := h.count
  refine ⟨?_, ?_, ?_, fun hclosed hstarted hempty ho => ?_, fun _ => hp⟩
  · show q.processing.toNat ≤ _
    rw [hp]
    exact Nat.zero_le _
  · show (w.processors.eraseIdx i).length ≤ q.processing.toNat + w.slips
    omega
  · show w.starts = w.releases + 1 + (w.processors.eraseIdx i).length
    omega
  · exact Bool.noConfusion ((hleft hclosed hstarted hempty).symm.trans ho)

/-- A processor that turns to something else is still there. -/
theorem Staffed.set (h : w.Staffed) (hi : w.processors[i]? = some p)
    (hp : q.processing = w.queue.processing) (p' : Processor α) :
    { w with queue := q, processors := w.processors.set i p' }.Staffed := by
  have hlt : i < w.processors.length := (List.getElem?_eq_some_iff.1 hi).1
  have hsame : (w.processors.set i p').length = w.processors.length := List.length_set
  refine ⟨?_, ?_, ?_, fun _ _ _ _ => ?_, fun ho => hp.trans (h.forsaken ho)⟩
  · show q.processing.toNat ≤ (w.processors.set i p').length
    rw [hp, hsame]
    exact h.atLeast
  · show (w.processors.set i p').length ≤ q.processing.toNat + w.slips
    rw [hp, hsame]
    exact h.atMost
  · show w.starts = w.releases + (w.processors.set i p').length
    rw [hsame]
    exact h.count
  · show 0 < (w.processors.set i p').length
    rw [hsame]
    exact Nat.zero_lt_of_lt hlt

theorem Staffed.enqueue (h : w.Staffed) (slot : Nat) (x : α) : (w.enqueue slot x).Staffed := by
  unfold Workshop.enqueue
  split
  · exact h
  · cases hc : w.queue.closed
    · rw [Queue.enqueue_of_open hc]
      refine h.wake ?_ ?_ ?_ ?_
      · cases w.queue.processing <;> simp
      · simp
      · intro _ hstarted _ _
        simp_all
      · intro ho
        simp only [Bool.and_eq_true, Bool.not_eq_true'] at ho
        simp [h.forsaken ho.1, ho.2]
    · rw [Queue.enqueue_of_closed hc]
      refine h.queue (q := { w.queue with meter := w.queue.meter.bump (.itemsDropped .afterClose) })
        rfl (fun hclosed => ?_) w.unwound
      exact Bool.noConfusion (hc.symm.trans hclosed)

theorem clear_eq (w : Workshop α) (keep : α → Except Panic Bool) :
    ∃ unwound, w.clear keep = { w with queue := (w.queue.clear keep).1, unwound := unwound } := by
  unfold clear
  rcases w.queue.clear keep with ⟨q, panic | n⟩ <;> exact ⟨_, rfl⟩

theorem Staffed.clear (h : w.Staffed) (keep : α → Except Panic Bool) : (w.clear keep).Staffed := by
  obtain ⟨unwound, hclear⟩ := clear_eq w keep
  have hqueue := Queue.clear_eq w.queue keep
  rw [hclear]
  refine h.queue (by rw [hqueue]) (fun hclosed hstarted hempty => ?_) unwound
  rw [hqueue] at hclosed hstarted
  refine ⟨hclosed, hstarted, ?_⟩
  rw [Bool.eq_false_iff] at hempty ⊢
  exact fun hnone => hempty (Queue.isEmpty_clear hnone keep)

theorem Staffed.start (h : w.Staffed) : w.start.Staffed := by
  unfold Workshop.start
  rw [Queue.start_eq]
  refine h.wake ?_ ?_ ?_ ?_
  · cases w.queue.processing <;> simp
  · cases w.queue.processing <;> simp
  · intro _ _ hempty _
    have hnonempty : w.queue.isEmpty = false := hempty
    simp [hnonempty]
  · exact fun ho => absurd ho Bool.false_ne_true

theorem Staffed.close (h : w.Staffed) : { w with queue := w.queue.close.1 }.Staffed := by
  refine h.queue (by rw [Queue.close_eq]) (fun hclosed => ?_) w.unwound
  rw [Queue.close_eq] at hclosed
  exact Bool.noConfusion hclosed

theorem Staffed.take (h : w.Staffed) (hi : w.processors[i]? = some .ready) : (w.take i).1.Staffed := by
  unfold Workshop.take
  rcases w.queue.take_cases with ⟨htake, hstop⟩ | ⟨ring, batch, htake, -⟩
  · rw [htake]
    refine h.release hi rfl fun hclosed hstarted hempty => ?_
    have hclosed' : w.queue.closed = false := hclosed
    have hstarted' : w.queue.started = true := hstarted
    have hempty' : w.queue.isEmpty = false := hempty
    simp [hclosed', hstarted', hempty'] at hstop
  · rw [htake]
    exact h.set (q := { w.queue with ring := ring }) hi rfl (.busy batch)

theorem Staffed.finish (h : w.Staffed) {batch : List α} (hi : w.processors[i]? = some (.busy batch)) :
    (w.finish i).1.Staffed := by
  unfold Workshop.finish
  rw [Queue.settle_eq]
  cases hempty : w.queue.isEmpty
  · exact h.set hi (Bool.and_true _) .ready
  · refine h.release hi (Bool.and_false _) fun _ _ hnonempty => ?_
    have hnonempty' : w.queue.isEmpty = false := hnonempty
    rw [hempty] at hnonempty'
    cases hnonempty'

theorem Staffed.fail (h : w.Staffed) {batch : List α} (hi : w.processors[i]? = some (.busy batch)) :
    (w.fail i).Staffed := by
  refine h.release hi rfl fun _ _ hempty => ?_
  have hempty' : w.queue.isEmpty = false := hempty
  rw [hempty']
  rfl

/-- A slip takes the flag down and nobody away. -/
theorem Staffed.slip (h : w.Staffed) : w.slip.Staffed := by
  have hmost := h.atMost
  have hbit := Bool.toNat_le w.queue.processing
  refine ⟨Nat.zero_le _, ?_, h.count, h.attended, fun _ => rfl⟩
  show w.processors.length ≤ 0 + (w.slips + 1)
  omega

end

/-- Every move keeps the invariant. -/
theorem Staffed.step {w : Workshop α} (h : w.Staffed) (slot : Nat) (m : Move α) :
    (w.step slot m).1.Staffed := by
  cases m with
  | enqueue x => exact h.enqueue slot x
  | clear keep => exact h.clear keep
  | start => exact h.start
  | stop =>
    refine Staffed.queue h (q := w.queue.stop) rfl (fun _ hstarted => ?_) w.unwound
    exact Bool.noConfusion hstarted
  | close => exact h.close
  | take i =>
    simp only [Workshop.step]
    split
    · exact h.take (by assumption)
    · exact h
  | finish i =>
    simp only [Workshop.step]
    split
    · exact h.finish (by assumption)
    · exact h
  | fail i =>
    simp only [Workshop.step]
    split
    · exact h.fail (by assumption)
    · exact h
  | slip i =>
    simp only [Workshop.step]
    split
    · exact h.slip
    · exact h

theorem staffed_run (slot : Nat) (settings : Settings) (started : Bool) (moves : List (Move α)) :
    (run slot settings started moves).Staffed := by
  unfold run
  suffices h : ∀ w : Workshop α, w.Staffed →
      (moves.foldl (fun w m => (w.step slot m).1) w).Staffed from h _ (staffed_new settings started)
  induction moves with
  | nil => exact fun w h => h
  | cons m moves ih => exact fun w h => ih _ (h.step slot m)

/-! ## Items for a processor -/

/-- As long as no clearing panicked, every cell that counts holds an item. -/
def Sound (w : Workshop α) : Prop := w.unwound = 0 → w.queue.Whole

section

variable {w w' : Workshop α}

/-- Uses of the queue other than clearings leave no empty cell. -/
theorem Sound.use (h : w.Sound) (u : Queue.Use α) (hqueue : w'.queue = w.queue.use u)
    (hunwound : w'.unwound = w.unwound) (hu : ∀ keep, u ≠ .clear keep) : w'.Sound := by
  intro hnone
  rw [hqueue]
  exact (h (hunwound.symm.trans hnone)).use fun keep hclear => absurd hclear (hu keep)

theorem Sound.clear (h : w.Sound) (keep : α → Except Panic Bool) : (w.clear keep).Sound := by
  intro hnone
  unfold Workshop.clear at hnone ⊢
  rcases hclear : w.queue.clear keep with ⟨q, panic | n⟩
  · rw [hclear] at hnone
    exact absurd hnone (Nat.succ_ne_zero _)
  · rw [hclear] at hnone
    have hwhole := (h hnone).clear (congrArg Prod.snd hclear)
    rw [hclear] at hwhole
    exact hwhole

theorem wake_frame (w : Workshop α) (wakes : Bool) :
    (w.wake wakes).queue = w.queue ∧ (w.wake wakes).unwound = w.unwound := by
  cases wakes <;> exact ⟨rfl, rfl⟩

theorem Sound.enqueue (h : w.Sound) (slot : Nat) (x : α) : (w.enqueue slot x).Sound := by
  unfold Workshop.enqueue
  split
  · exact h
  · rcases henqueue : w.queue.enqueue x with ⟨q, _ | wakes⟩
    · exact h.use (.enqueue x) (congrArg Prod.fst henqueue).symm rfl nofun
    · obtain ⟨hqueue, hunwound⟩ :=
        wake_frame { w with queue := q, orphaned := w.orphaned && !q.started } wakes
      exact h.use (.enqueue x) (hqueue.trans (congrArg Prod.fst henqueue).symm) hunwound nofun

theorem Sound.start (h : w.Sound) : w.start.Sound := by
  obtain ⟨hqueue, hunwound⟩ :=
    wake_frame { w with queue := w.queue.start.1, orphaned := false } w.queue.start.2
  exact h.use .start hqueue hunwound nofun

theorem Sound.take (h : w.Sound) (i : Nat) : (w.take i).1.Sound := by
  unfold Workshop.take
  rcases htake : w.queue.take with ⟨q, _ | batch⟩
  all_goals exact h.use .take (congrArg Prod.fst htake).symm rfl nofun

theorem Sound.finish (h : w.Sound) (i : Nat) : (w.finish i).1.Sound := by
  unfold Workshop.finish
  rcases hsettle : w.queue.settle with ⟨q, _ | _⟩
  all_goals exact h.use .settle (congrArg Prod.fst hsettle).symm rfl nofun

theorem Sound.step (h : w.Sound) (slot : Nat) (m : Move α) : (w.step slot m).1.Sound := by
  cases m with
  | enqueue x => exact h.enqueue slot x
  | clear keep => exact h.clear keep
  | start => exact h.start
  | stop => exact h.use .stop rfl rfl nofun
  | close => exact h.use .close rfl rfl nofun
  | take i =>
    simp only [Workshop.step]
    split
    · exact h.take i
    · exact h
  | finish i =>
    simp only [Workshop.step]
    split
    · exact h.finish i
    · exact h
  | fail i =>
    simp only [Workshop.step]
    split
    · exact h.use .abandon rfl rfl nofun
    · exact h
  | slip i =>
    simp only [Workshop.step]
    split
    · exact h.use .abandon rfl rfl nofun
    · exact h

end

theorem sound_run (slot : Nat) (settings : Settings) (started : Bool) (moves : List (Move α)) :
    (run slot settings started moves).Sound := by
  unfold run
  suffices h : ∀ w : Workshop α, w.Sound → (moves.foldl (fun w m => (w.step slot m).1) w).Sound from
    h _ fun _ => Queue.whole_new settings started
  induction moves with
  | nil => exact fun w h => h
  | cons m moves ih => exact fun w h => ih _ (h.step slot m)

/-! ## What callers see -/

theorem starts_wake (w : Workshop α) (wakes : Bool) :
    (w.wake wakes).starts = w.starts + if wakes then 1 else 0 := by
  cases wakes <;> rfl

theorem starts_start (w : Workshop α) :
    w.start.starts = w.starts + if !w.queue.processing && !w.queue.isEmpty then 1 else 0 := by
  unfold start
  rw [Queue.start_eq]
  exact starts_wake _ _

theorem starts_enqueue {w : Workshop α} {slot : Nat} (hmemory : w.queue.reserveSlot slot = .ok ())
    (hopen : w.queue.closed = false) (x : α) :
    (w.enqueue slot x).starts =
      w.starts + if w.queue.started && !w.queue.processing then 1 else 0 := by
  unfold enqueue
  rw [hmemory, Queue.enqueue_of_open hopen]
  exact starts_wake _ _

theorem starts_clear (w : Workshop α) (keep : α → Except Panic Bool) :
    (w.clear keep).starts = w.starts := by
  obtain ⟨unwound, hclear⟩ := clear_eq w keep
  rw [hclear]

theorem starts_take (w : Workshop α) (i : Nat) : (w.take i).1.starts = w.starts := by
  unfold take
  split <;> rfl

theorem starts_finish (w : Workshop α) (i : Nat) : (w.finish i).1.starts = w.starts := by
  unfold finish
  split <;> rfl

/-- A start is made while the queue says that nobody is at work, and only one. -/
theorem starts_step {slot : Nat} {w : Workshop α} {m : Move α}
    (hm : (w.step slot m).1.starts ≠ w.starts) :
    w.queue.processing = false ∧ (w.step slot m).1.starts = w.starts + 1 := by
  have hwoken : ∀ b : Bool, (b = true → w.queue.processing = false) →
      (w.step slot m).1.starts = w.starts + (if b then 1 else 0) →
      w.queue.processing = false ∧ (w.step slot m).1.starts = w.starts + 1 := by
    intro b hb hstarts
    cases b with
    | false => exact absurd hstarts hm
    | true => exact ⟨hb rfl, hstarts⟩
  cases m with
  | enqueue x =>
    cases hmemory : w.queue.reserveSlot slot with
    | error panic => exact absurd (by simp [Workshop.step, Workshop.enqueue, hmemory]) hm
    | ok u =>
      cases hc : w.queue.closed
      · exact hwoken _ (by simp) (starts_enqueue hmemory hc x)
      · exact absurd (by simp [Workshop.step, Workshop.enqueue, hmemory, Queue.enqueue_of_closed hc]) hm
  | start => exact hwoken _ (by simp +contextual) (starts_start w)
  | clear keep => exact absurd (starts_clear w keep) hm
  | stop => exact absurd rfl hm
  | close => exact absurd rfl hm
  | take i =>
    simp only [Workshop.step] at hm
    split at hm
    · exact absurd (starts_take w i) hm
    · exact absurd rfl hm
  | finish i =>
    simp only [Workshop.step] at hm
    split at hm
    · exact absurd (starts_finish w i) hm
    · exact absurd rfl hm
  | fail i =>
    simp only [Workshop.step] at hm
    split at hm <;> exact absurd rfl hm
  | slip i =>
    simp only [Workshop.step] at hm
    split at hm <;> exact absurd rfl hm

theorem answer_take {w : Workshop α} {i : Nat} {more : Bool} (h : (w.take i).2 = some more) :
    more = false ∧ (w.take i).1.queue.processing = false := by
  unfold take at h ⊢
  rcases w.queue.take_cases with ⟨htake, -⟩ | ⟨ring, batch, htake, -⟩
  · rw [htake] at h ⊢
    cases h
    exact ⟨rfl, rfl⟩
  · rw [htake] at h
    cases h

theorem answer_finish (w : Workshop α) (i : Nat) :
    (w.finish i).2 = some (!w.queue.isEmpty) ∧
      (w.finish i).1.queue = { w.queue with processing := w.queue.processing && !w.queue.isEmpty } := by
  unfold finish
  rw [Queue.settle_eq]
  cases w.queue.isEmpty <;> exact ⟨rfl, rfl⟩

/-- A dequeue that returned tells whether its processor goes on, and there are items for it then. Without
slips it tells what the queue says. -/
theorem Staffed.answer_step {w : Workshop α} (h : w.Staffed) {slot : Nat} {m : Move α} {more : Bool}
    (hm : (w.step slot m).2 = some more) :
    (more = false → (w.step slot m).1.queue.processing = false) ∧
      (w.slips = 0 → more = (w.step slot m).1.queue.processing) ∧
      (more = true → 0 < (w.step slot m).1.queue.len) := by
  cases m with
  | take i =>
    simp only [Workshop.step] at hm ⊢
    split at hm
    · obtain ⟨rfl, hprocessing⟩ := answer_take hm
      exact ⟨fun _ => hprocessing, fun _ => hprocessing.symm, fun hmore => absurd hmore Bool.false_ne_true⟩
    · cases hm
  | finish i =>
    simp only [Workshop.step] at hm ⊢
    split at hm
    · rename_i batch hi
      obtain ⟨hanswer, hqueue⟩ := answer_finish w i
      rw [hanswer] at hm
      cases hm
      rw [hqueue]
      refine ⟨fun hmore => ?_, fun hslips => ?_, fun hmore => ?_⟩
      · show (w.queue.processing && !w.queue.isEmpty) = false
        rw [hmore, Bool.and_false]
      · have hlt : i < w.processors.length := (List.getElem?_eq_some_iff.1 hi).1
        have hlength := h.length_eq hslips
        have hbit := Bool.toNat_le w.queue.processing
        have hprocessing : w.queue.processing = true := Bool.toNat_eq_one.1 (by omega)
        show (!w.queue.isEmpty) = (w.queue.processing && !w.queue.isEmpty)
        rw [hprocessing, Bool.true_and]
      · have hempty : w.queue.isEmpty = false := by simpa using hmore
        exact Queue.len_pos_of_isEmpty hempty
    · cases hm
  | fail i =>
    simp only [Workshop.step] at hm
    split at hm <;> cases hm
  | slip i =>
    simp only [Workshop.step] at hm
    split at hm <;> cases hm
  | _ => cases hm

/-- **There is one processor, and it misses nothing.** Whatever the order of calls, in the middle of a
batch as well, and whichever batches are abandoned: starts and releases balance but for the processors at
work. Each start and each accepted item that finds the flag of the queue down and work to do starts one
processor, and nothing else does. Whenever a queue that runs has items waiting, somebody is at work,
except between a batch that was abandoned with items left behind and the next start or accepted item,
which starts a processor. A dequeue that answers no has left the flag down; one that answers yes has left
something that counts, which is an item as long as no clearing panicked.

As long as no slot was released under a processor that goes on, there is one processor at work when the
flag says so and none otherwise, nobody is started beside it, and a dequeue answers what the flag says.
Each slip lets there be one processor more. -/
theorem single_processor (slot : Nat) (settings : Settings) (started : Bool)
    (moves : List (Move α)) :
    let w := run slot settings started moves
    w.starts = w.releases + w.processors.length ∧
      w.queue.processing.toNat ≤ w.processors.length ∧
      w.processors.length ≤ w.queue.processing.toNat + w.slips ∧
      (∀ m, (w.step slot m).1.starts ≠ w.starts →
        w.queue.processing = false ∧ (w.step slot m).1.starts = w.starts + 1) ∧
      (w.queue.closed = false → w.queue.started = true → w.queue.isEmpty = false →
        w.orphaned = false → w.processors ≠ []) ∧
      (w.orphaned = true → w.queue.isEmpty = false → w.start.starts = w.starts + 1) ∧
      (w.orphaned = true → w.queue.started = true → w.queue.closed = false →
        w.queue.reserveSlot slot = .ok () → ∀ x, (w.enqueue slot x).starts = w.starts + 1) ∧
      (∀ m more, (w.step slot m).2 = some more →
        (more = false → (w.step slot m).1.queue.processing = false) ∧
          (more = true → 0 < (w.step slot m).1.queue.len) ∧
          (more = true → (w.step slot m).1.unwound = 0 → (w.step slot m).1.queue.pending ≠ [])) ∧
      (w.slips = 0 →
        w.processors.length = (if w.queue.processing then 1 else 0) ∧
          (∀ m, (w.step slot m).1.starts ≠ w.starts → w.processors = []) ∧
          (w.queue.closed = false → w.queue.started = true → w.queue.isEmpty = false →
            w.orphaned = false → w.queue.processing = true) ∧
          (∀ m more, (w.step slot m).2 = some more → more = (w.step slot m).1.queue.processing)) := by
  intro w
  have h : w.Staffed := staffed_run slot settings started moves
  have hsound : w.Sound := sound_run slot settings started moves
  refine ⟨h.count, h.atLeast, h.atMost, fun m hm => starts_step hm, ?_, ?_, ?_, fun m more hm => ?_,
    fun hslips => ?_⟩
  · intro hclosed hstarted hempty ho
    exact List.ne_nil_of_length_pos (h.attended hclosed hstarted hempty ho)
  · intro ho hempty
    rw [starts_start, h.forsaken ho, hempty]
    rfl
  · intro ho hstarted hclosed hmemory x
    rw [starts_enqueue hmemory hclosed, h.forsaken ho, hstarted]
    rfl
  · obtain ⟨hno, -, hyes⟩ := h.answer_step hm
    refine ⟨hno, hyes, fun hmore hunwound => ?_⟩
    have hlen := hyes hmore
    rw [(hsound.step slot m hunwound).len_eq] at hlen
    exact List.ne_nil_of_length_pos hlen
  · have hlength := h.length_eq hslips
    refine ⟨?_, fun m hm => ?_, fun hclosed hstarted hempty ho => ?_,
      fun m more hm => (h.answer_step hm).2.1 hslips⟩
    · rw [hlength]
      cases w.queue.processing <;> rfl
    · rw [(starts_step hm).1] at hlength
      exact List.length_eq_zero_iff.1 hlength
    · have hsome := h.attended hclosed hstarted hempty ho
      have hbit := Bool.toNat_le w.queue.processing
      exact Bool.toNat_eq_one.1 (by omega)

/-- Two clearings that panic empty two cells and go on counting them. The processor is told that something
is left, but no item is. -/
theorem unwound_clears_promise_items :
    let keep : Nat → Except Panic Bool := fun _ => .error .remainderByZero
    let w := run 8 ⟨4, 4, 1, by decide, by decide⟩ true
      [.enqueue 1, .enqueue 2, .clear keep, .clear keep, .take 0]
    (w.step 8 (.finish 0)).2 = some true ∧ (w.step 8 (.finish 0)).1.queue.processing = true ∧
      (w.step 8 (.finish 0)).1.queue.pending = [] := by
  decide

/-- One item is lost with its batch and one is left behind, until a third one starts a processor. -/
example :
    let w := run 8 ⟨2, 1, 1, by decide, by decide⟩ true
      [.enqueue 'a', .enqueue 'b', .take 0, .stop, .start, .fail 0]
    w.orphaned = true ∧ w.queue.len = 1 ∧ (w.enqueue 8 'c').starts = 2 := by decide

/-- A slip takes the flag from a processor that is told to go on, and the next item starts another one. -/
example :
    let w := run 8 ⟨2, 1, 1, by decide, by decide⟩ true
      [.enqueue 'a', .enqueue 'b', .take 0, .slip 0, .finish 0]
    w.queue.processing = false ∧ w.processors.length = 1 ∧ (w.enqueue 8 'c').processors.length = 2 := by
  decide

end Workshop

end ChunkRouter.Work
