import ChunkRouter.Proofs.Lane.Serial

/-!
# Lanes take turns

A runtime that takes turns in the order in which they were spawned runs the tasks that `Shift.coming`
lists: for each turn in the line the task that its lane has first. Nothing that happens changes that
list but for its end, and what is begun is taken off its front (`Sound.continues_step`). On a runtime
that takes one turn at a time, `lanes_take_turns` concludes that a lane with more tasks waits for the
lanes that are in the line when its task is over, for one task of each, and for nothing else.
-/

namespace ChunkRouter.Lane

variable {τ : Type}

namespace Shift

/-! ## What the line holds -/

/-- The tasks that the turns in the line will run, in order. -/
def coming (s : Shift τ) : List (Token × τ) :=
  s.pool.turns.filterMap fun t => (s.pool.lane t).tasks.head?.map (t, ·)

/-- What is begun in `s'` goes on from what is begun in `s` as the line of `s` tells. -/
def Continues (s s' : Shift τ) : Prop :=
  ∃ later, s'.begun = s.begun ++ later ∧ s.coming <+: later ++ s'.coming

/-- A log that goes as planned, as far as either of them goes. -/
def Keeps (plan log : List (Token × τ)) : Prop := log <+: plan ∨ plan <+: log

section

variable {s s' s'' : Shift τ} {t : Token} {task : τ} {i : Nat}

theorem Continues.refl (s : Shift τ) : Continues s s := ⟨[], (List.append_nil _).symm, List.prefix_rfl⟩

theorem Continues.trans (h : Continues s s') (h' : Continues s' s'') : Continues s s'' := by
  obtain ⟨later, hbegun, hcoming⟩ := h
  obtain ⟨later', hbegun', hcoming'⟩ := h'
  refine ⟨later ++ later', by rw [hbegun', hbegun, List.append_assoc], hcoming.trans ?_⟩
  rw [List.append_assoc]
  exact (List.prefix_append_right_inj later).2 hcoming'

/-- What the line held when `s` was reached is what was begun since, in this order. -/
theorem Continues.keeps (h : Continues s s') {plan : List (Token × τ)} (hplan : plan <+: s.coming) :
    ∃ later, s'.begun = s.begun ++ later ∧ Keeps plan later := by
  obtain ⟨later, hbegun, hcoming⟩ := h
  exact ⟨later, hbegun, List.prefix_or_prefix_of_prefix (List.prefix_append _ _) (hplan.trans hcoming)⟩

/-- A plan that is kept is kept up to the first task of a lane that comes last in it. -/
theorem Keeps.eq_append {ahead later : List (Token × τ)} (h : Keeps (ahead ++ [(t, task)]) later)
    (hfirst : t ∉ ahead.map (·.1)) (hbegun : t ∈ later.map (·.1)) :
    ∃ rest, later = ahead ++ (t, task) :: rest := by
  rcases h with hshort | ⟨rest, hrest⟩
  · rcases List.prefix_concat_iff.1 hshort with heq | hahead
    · exact ⟨[], heq⟩
    · exact absurd ((hahead.map (·.1)).subset hbegun) hfirst
  · exact ⟨rest, by rw [← hrest, List.append_assoc]; rfl⟩

/-- What comes is told by the line and by the tasks that the lanes in it have first. -/
theorem coming_congr (hturns : s'.pool.turns = s.pool.turns)
    (htasks : ∀ t ∈ s.pool.turns,
      (s'.pool.lane t).tasks.head? = (s.pool.lane t).tasks.head?) : s'.coming = s.coming := by
  unfold coming
  rw [hturns]
  exact List.filterMap_congr fun t ht => by rw [htasks t ht]

/-- Every turn in the line has a task to run. -/
theorem Sound.map_coming (h : s.Sound) : s.coming.map (·.1) = s.pool.turns := by
  have hmap : ∀ turns : List Token, (∀ t ∈ turns, (s.pool.lane t).tasks ≠ []) →
      (turns.filterMap fun t => (s.pool.lane t).tasks.head?.map (t, ·)).map (·.1) = turns := by
    intro turns
    induction turns with
    | nil => exact fun _ => rfl
    | cons t turns ih =>
      intro hready
      obtain ⟨task, rest, htasks⟩ := List.exists_cons_of_ne_nil (hready t List.mem_cons_self)
      have hrest := ih fun u hu => hready u (List.mem_cons_of_mem t hu)
      simp only [List.filterMap_cons, htasks, List.head?_cons, Option.map_some, List.map_cons, hrest]
  exact hmap s.pool.turns h.sane.ready

/-! ## One move -/

theorem coming_dispatch (h : s.Sound) (t : Token) (task : τ) : (s.dispatch t task).coming = s.coming := by
  refine coming_congr (Pool.turns_setLane _ _ _) fun u hu => ?_
  show ((s.pool.setLane t ⟨(s.pool.lane t).tasks ++ [task], true⟩).lane u).tasks.head? = _
  rw [Pool.lane_setLane]
  by_cases hut : u = t
  · obtain ⟨first, rest, htasks⟩ := List.exists_cons_of_ne_nil (h.sane.ready u hu)
    rw [if_pos hut, ← hut, htasks]
    rfl
  · rw [if_neg hut]

theorem coming_spawn (s : Shift τ) (i : Nat) (t : Token) :
    (s.spawn i t).coming = s.coming ++ ((s.pool.lane t).tasks.head?.map (t, ·)).toList := by
  show (s.pool.turns ++ [t]).filterMap _ = _
  rw [List.filterMap_append]
  show s.coming ++ [t].filterMap (fun u => (s.pool.lane u).tasks.head?.map (u, ·)) = _
  cases htasks : (s.pool.lane t).tasks.head? <;> simp [htasks]

/-- The turn at the front of the line runs the task that comes first. -/
theorem begin_front (h : s.Sound) :
    (s.begin 0).begun = s.begun ++ s.coming.take 1 ∧ (s.begin 0).coming = s.coming.drop 1 ∧
      (s.begin 0).running = s.running ++ s.coming.take 1 ∧ (s.begin 0).ended = s.ended := by
  unfold Shift.begin
  cases hturns : s.pool.turns with
  | nil =>
    have hnone : s.pool.beginTurn 0 = none := Pool.beginTurn_of_none (hturns ▸ rfl)
    have hcoming : s.coming = [] := by rw [coming, hturns]; rfl
    rw [hnone]
    show s.begun = s.begun ++ s.coming.take 1 ∧ s.coming = s.coming.drop 1 ∧
      s.running = s.running ++ s.coming.take 1 ∧ s.ended = s.ended
    rw [hcoming]
    exact ⟨(List.append_nil _).symm, rfl, (List.append_nil _).symm, rfl⟩
  | cons t rest =>
    obtain ⟨task, tasks, htasks⟩ :=
      List.exists_cons_of_ne_nil (h.sane.ready t (hturns ▸ List.mem_cons_self))
    have hbegin := Pool.beginTurn_of_cons (p := s.pool) (i := 0) (hturns ▸ rfl) htasks
    have hnodup : (t :: rest).Nodup := hturns ▸ (List.nodup_append.1 h.turns).2.1
    have hcoming : s.coming =
        (t, task) :: rest.filterMap fun u => (s.pool.lane u).tasks.head?.map (u, ·) := by
      rw [coming, hturns, List.filterMap_cons, htasks]
      rfl
    rw [hbegin, hcoming]
    refine ⟨rfl, ?_, rfl, rfl⟩
    show List.filterMap _ (Pool.setLane _ t _).turns = _
    rw [Pool.turns_setLane, hturns]
    -- the lanes behind it are not touched, since none of them is this one
    refine List.filterMap_congr fun u hu => ?_
    have hne : u ≠ t := fun heq => (List.nodup_cons.1 hnodup).1 (heq ▸ hu)
    show ((Pool.setLane _ t _).lane u).tasks.head?.map (u, ·) = _
    rw [Pool.lane_setLane, if_neg hne]
    rfl

/-- The end of a task neither moves the line nor takes a task from any lane. -/
theorem finish_frame (s : Shift τ) (i : Nat) (panics : Bool) (t : Token) (task : τ) :
    (s.finish i panics t task).pool.turns = s.pool.turns ∧
      (∀ u, ((s.finish i panics t task).pool.lane u).tasks = (s.pool.lane u).tasks) ∧
      (s.finish i panics t task).due = s.due ++ if (s.pool.lane t).tasks = [] then [] else [t] := by
  have hpool : ∀ p : Pool τ, (p.finishTurn t).1.turns = p.turns ∧
      (∀ u, ((p.finishTurn t).1.lane u).tasks = (p.lane u).tasks) ∧
      (if (p.finishTurn t).2 then [t] else []) = if (p.lane t).tasks = [] then [] else [t] := by
    intro p
    unfold Pool.finishTurn
    by_cases hempty : (p.lane t).tasks = []
    · rw [if_pos (List.isEmpty_iff.2 hempty), if_pos hempty]
      refine ⟨Pool.turns_setLane _ _ _, fun u => ?_, rfl⟩
      rw [Pool.lane_setLane]
      by_cases hu : u = t
      · rw [if_pos hu, hu, hempty]
      · rw [if_neg hu]
    · rw [if_neg (mt List.isEmpty_iff.1 hempty), if_neg hempty]
      exact ⟨rfl, fun _ => rfl, rfl⟩
  cases panics with
  | false =>
    obtain ⟨hturns, htasks, hdue⟩ := hpool s.pool
    exact ⟨hturns, htasks, congrArg (s.due ++ ·) hdue⟩
  | true =>
    obtain ⟨hturns, htasks, hdue⟩ := hpool s.pool.reportPanic
    exact ⟨hturns, htasks, congrArg (s.due ++ ·) hdue⟩

/-- Whatever happens, the line is worked off from its front and grows at its end, as long as turns are
taken in order. -/
theorem Sound.continues_step (h : s.Sound) {m : Move τ} (horder : ∀ i, m = .begin i → i = 0) :
    Continues s (s.step m) := by
  have hkept : ∀ s' : Shift τ, s'.begun = s.begun → s'.coming = s.coming → Continues s s' := by
    intro s' hbegun hcoming
    exact ⟨[], hbegun.trans (List.append_nil _).symm, hcoming ▸ List.prefix_rfl⟩
  cases m with
  | dispatch t task => exact hkept _ rfl (coming_dispatch h t task)
  | spawn i =>
    simp only [Shift.step]
    split
    · rename_i t ht
      refine ⟨[], (List.append_nil _).symm, ?_⟩
      rw [coming_spawn]
      exact List.prefix_append _ _
    · exact .refl s
  | begin i =>
    cases horder i rfl
    obtain ⟨hbegun, hcoming, -, -⟩ := begin_front h
    have hline : s.coming.take 1 ++ (s.begin 0).coming = s.coming := by
      rw [hcoming, List.take_append_drop]
    exact ⟨s.coming.take 1, hbegun, hline.symm ▸ List.prefix_rfl⟩
  | finish i panics =>
    simp only [Shift.step]
    split
    · rename_i t task ht
      obtain ⟨hturns, htasks, -⟩ := finish_frame s i panics t task
      exact hkept _ rfl (coming_congr hturns fun u _ => by rw [htasks u])
    · exact .refl s
  | burst i =>
    simp only [Shift.step]
    split
    · exact hkept _ rfl rfl
    · exact .refl s
  | forget among =>
    refine hkept _ rfl (coming_congr rfl fun u _ => ?_)
    show ((s.pool.forget among).lane u).tasks.head? = _
    rw [h.sane.distinct.lane_forget]

theorem Sound.continues_foldl (h : s.Sound) (moves : List (Move τ))
    (horder : ∀ m ∈ moves, ∀ i, m = .begin i → i = 0) : Continues s (moves.foldl Shift.step s) := by
  induction moves generalizing s with
  | nil => exact .refl s
  | cons m moves ih =>
    exact (h.continues_step (horder m List.mem_cons_self)).trans
      (ih (h.step m) fun m' hm' => horder m' (List.mem_cons_of_mem m hm'))

end

end Shift

/-! ## One turn at a time -/

/-- What happens next on a runtime that takes one turn at a time, in the order in which they were
spawned. The end of a turn and the spawning of its lane's next one are one beat: a dispatch to another lane
that another thread makes between the two comes to the same as one made before both. -/
inductive Beat (τ : Type) where
  /-- Somebody, the running task perhaps, puts a task on a lane. -/
  | dispatch (lane : Token) (task : τ)
  /-- The `i`th turn that a dispatch asked for is spawned. -/
  | spawn (i : Nat)
  /-- The turn at the front of the line is taken, unless there is one under way. -/
  | begin
  /-- The running task returns, or panics, and its lane's next turn is spawned if it has more tasks. -/
  | finish (panics : Bool)
  /-- The running task panics, and so does the drop of what it panicked with. -/
  | burst
  /-- Somebody forgets the idle lanes. -/
  | prune

/-- The moves that a beat is made of. -/
def Beat.moves (s : Shift τ) : Beat τ → List (Move τ)
  | .dispatch t task => [.dispatch t task]
  | .spawn i => [.spawn i]
  | .begin => if s.running = [] then [.begin 0] else []
  | .finish panics => [.finish 0 panics, .spawn s.due.length]
  | .burst => [.burst 0]
  | .prune => [.forget fun _ => true]

namespace Shift

def beat (s : Shift τ) (b : Beat τ) : Shift τ := (b.moves s).foldl step s

/-- A runtime that takes one turn at a time, at work. -/
def work (beats : List (Beat τ)) : Shift τ := beats.foldl beat new

/-- One task runs at most, and those that were begun before it are over. -/
structure Solo (s : Shift τ) : Prop where
  sound : s.Sound
  single : s.running.length ≤ 1
  logged : s.begun = s.ended ++ s.running

section

variable {s : Shift τ} {t : Token} {task : τ}

theorem solo_new : (new : Shift τ).Solo := ⟨sound_new, Nat.zero_le _, rfl⟩

theorem Sound.beat (h : s.Sound) (b : Beat τ) : (s.beat b).Sound := h.foldl _

/-- A beat takes no turn but the one at the front of the line. -/
theorem Sound.continues_beat (h : s.Sound) (b : Beat τ) : Continues s (s.beat b) := by
  refine h.continues_foldl _ fun m hm i hi => ?_
  subst hi
  cases b with
  | begin =>
    change Move.begin i ∈ (if s.running = [] then [Move.begin 0] else []) at hm
    split at hm
    · exact Move.begin.inj (List.mem_singleton.1 hm)
    · cases hm
  | _ => simp [Beat.moves] at hm

/-- The spawning of a turn neither begins nor ends a task. -/
theorem spawn_frame (s : Shift τ) (i : Nat) :
    (s.step (.spawn i)).running = s.running ∧ (s.step (.spawn i)).begun = s.begun ∧
      (s.step (.spawn i)).ended = s.ended := by
  simp only [step]
  split <;> exact ⟨rfl, rfl, rfl⟩

/-- The turn that becomes due last is spawned. -/
theorem step_spawn_last {due : List Token} (hdue : s.due = due ++ [t]) :
    s.step (.spawn due.length) = s.spawn due.length t := by
  simp only [step]
  rw [hdue, List.getElem?_concat_length]

theorem beat_begin_nil (hrunning : s.running = []) : s.beat .begin = s.begin 0 := by
  show (if s.running = [] then [Move.begin 0] else []).foldl step s = s.begin 0
  rw [if_pos hrunning]
  rfl

theorem beat_begin_cons (hrunning : s.running ≠ []) : s.beat .begin = s := by
  show (if s.running = [] then [Move.begin 0] else []).foldl step s = s
  rw [if_neg hrunning]
  rfl

theorem beat_finish_nil (hrunning : s.running = []) (panics : Bool) : s.beat (.finish panics) = s := by
  show (s.step (.finish 0 panics)).step (.spawn s.due.length) = s
  have hstay : s.step (.finish 0 panics) = s := by simp only [step, hrunning, List.getElem?_nil]
  rw [hstay]
  simp only [step, List.getElem?_length]

/-- The task that runs is over, and if its lane has more its next turn is behind those in the line. -/
theorem beat_finish_cons (hrunning : s.running = [(t, task)]) (panics : Bool) :
    let s' := s.beat (.finish panics)
    s'.running = [] ∧ s'.begun = s.begun ∧ s'.ended = s.ended ++ [(t, task)] ∧
      s'.coming = s.coming ++ ((s.pool.lane t).tasks.head?.map (t, ·)).toList := by
  intro s'
  obtain ⟨hturns, htasks, hdue⟩ := finish_frame s 0 panics t task
  have hcoming : (s.finish 0 panics t task).coming = s.coming :=
    coming_congr hturns fun u _ => by rw [htasks u]
  have hfinish : s.step (.finish 0 panics) = s.finish 0 panics t task := by
    simp only [step, hrunning, List.getElem?_cons_zero]
  have hs' : s' = (s.finish 0 panics t task).step (.spawn s.due.length) :=
    congrArg (fun w : Shift τ => w.step (.spawn s.due.length)) hfinish
  have hframe := spawn_frame (s.finish 0 panics t task) s.due.length
  rw [← hs'] at hframe
  refine ⟨hframe.1.trans (congrArg (List.eraseIdx · 0) hrunning), hframe.2.1, hframe.2.2, ?_⟩
  by_cases hempty : (s.pool.lane t).tasks = []
  · rw [if_pos hempty, List.append_nil] at hdue
    have hstay : s' = s.finish 0 panics t task := by
      rw [hs', ← hdue]
      simp only [step, List.getElem?_length]
    rw [hstay, hcoming, hempty]
    exact (List.append_nil _).symm
  · rw [if_neg hempty] at hdue
    rw [hs', step_spawn_last hdue, coming_spawn, hcoming, htasks t]

theorem Solo.running_eq_singleton (h : s.Solo) {r : Token × τ} {rest : List (Token × τ)}
    (hrunning : s.running = r :: rest) : s.running = [r] := by
  have hsingle := h.single
  rw [hrunning, List.length_cons] at hsingle
  rw [hrunning, List.eq_nil_of_length_eq_zero (Nat.le_zero.1 (Nat.le_of_succ_le_succ hsingle))]

theorem Solo.beat (h : s.Solo) (b : Beat τ) : (s.beat b).Solo := by
  have hkept : ∀ s' : Shift τ, s'.Sound → s'.running = s.running → s'.begun = s.begun →
      s'.ended = s.ended → s'.Solo := by
    intro s' hsound hrunning hbegun hended
    exact ⟨hsound, hrunning ▸ h.single, by rw [hbegun, hended, hrunning, h.logged]⟩
  have hsound := h.sound.beat b
  cases b with
  | dispatch u task => exact hkept _ hsound rfl rfl rfl
  | spawn i =>
    obtain ⟨hrunning, hbegun, hended⟩ := spawn_frame s i
    exact hkept _ hsound hrunning hbegun hended
  | begin =>
    by_cases hrunning : s.running = []
    · obtain ⟨hbegun, -, hrun, hended⟩ := begin_front h.sound
      rw [← beat_begin_nil hrunning] at hbegun hrun hended
      refine ⟨hsound, ?_, ?_⟩
      · rw [hrun, hrunning]
        exact List.length_take_le 1 _
      · rw [hbegun, hended, hrun, h.logged, List.append_assoc]
    · rw [beat_begin_cons hrunning]
      exact h
  | finish panics =>
    cases hrunning : s.running with
    | nil =>
      rw [beat_finish_nil hrunning]
      exact h
    | cons r rest =>
      have hone := h.running_eq_singleton hrunning
      obtain ⟨hnone, hbegun, hended, -⟩ := beat_finish_cons hone panics
      refine ⟨hsound, ?_, ?_⟩
      · rw [hnone]
        exact Nat.zero_le _
      · rw [hbegun, hended, hnone, h.logged, hone, List.append_nil]
  | burst =>
    cases hrunning : s.running with
    | nil =>
      have hstay : s.beat .burst = s := by
        show s.step (.burst 0) = s
        simp only [step, hrunning, List.getElem?_nil]
      rw [hstay]
      exact h
    | cons r rest =>
      have hlost : s.beat .burst = s.burst 0 r.1 r.2 := by
        show s.step (.burst 0) = _
        simp only [step, hrunning, List.getElem?_cons_zero]
      have hone := h.running_eq_singleton hrunning
      rw [hlost] at hsound ⊢
      refine ⟨hsound, ?_, ?_⟩
      · show (s.running.eraseIdx 0).length ≤ 1
        rw [hone]
        exact Nat.zero_le _
      · show s.begun = s.ended ++ [r] ++ s.running.eraseIdx 0
        rw [h.logged, hone]
        exact (List.append_nil _).symm
  | prune => exact hkept _ hsound rfl rfl rfl

theorem Solo.foldl (h : s.Solo) (beats : List (Beat τ)) : (beats.foldl Shift.beat s).Solo := by
  induction beats generalizing s with
  | nil => exact h
  | cons b beats ih => exact ih (h.beat b)

theorem Solo.continues (h : s.Solo) (beats : List (Beat τ)) :
    Continues s (beats.foldl Shift.beat s) := by
  induction beats generalizing s with
  | nil => exact .refl s
  | cons b beats ih => exact (h.sound.continues_beat b).trans (ih (h.beat b))

/-- No lane is in the line twice, and none that is runs a task. -/
theorem Solo.line (h : s.Solo) : (s.running.map (·.1) ++ s.coming.map (·.1)).Nodup := by
  have hline := h.sound.turns
  rw [List.append_assoc] at hline
  rw [h.sound.map_coming]
  exact (List.nodup_append.1 hline).2.1

/-- A lane whose turn is in the line waits for the tasks ahead of it, one of each lane, and for the one
that runs. -/
theorem Solo.delay (h : s.Solo) {ahead behind : List (Token × τ)}
    (hcoming : s.coming = ahead ++ (t, task) :: behind) :
    ((s.running ++ ahead).map (·.1)).Nodup ∧ t ∉ (s.running ++ ahead).map (·.1) := by
  have hline := h.line
  rw [hcoming, ← List.map_append, ← List.append_assoc, List.map_append, List.map_cons] at hline
  have hparts := List.nodup_append.1 hline
  exact ⟨hparts.1, fun hmem => hparts.2.2 t hmem t List.mem_cons_self rfl⟩

/-- The next task of a lane whose task is over waits for what the line holds then. -/
theorem Solo.next_turn (h : s.Solo) (hrunning : s.running = [(t, task)]) {next : τ} {rest : List τ}
    (htasks : (s.pool.lane t).tasks = next :: rest) (panics : Bool) (after : List (Beat τ)) :
    ∃ later, ((Beat.finish panics :: after).foldl Shift.beat s).begun = s.begun ++ later ∧
      Keeps (s.coming ++ [(t, next)]) later ∧
      (t ∈ later.map (·.1) → ∃ more, later = s.coming ++ (t, next) :: more) := by
  obtain ⟨-, hbegun, -, hcoming⟩ := beat_finish_cons hrunning panics
  rw [htasks] at hcoming
  have hplan : s.coming ++ [(t, next)] <+: (s.beat (.finish panics)).coming :=
    hcoming.symm ▸ List.prefix_rfl
  obtain ⟨later, hlater, hkeeps⟩ := ((h.beat (.finish panics)).continues after).keeps hplan
  have hline := h.line
  rw [hrunning] at hline
  have hfirst : t ∉ s.coming.map (·.1) := (List.nodup_cons.1 hline).1
  exact ⟨later, hlater.trans (by rw [hbegun]), hkeeps, hkeeps.eq_append hfirst⟩

/-- A turn in the line is taken as soon as nothing runs. -/
theorem Solo.beat_begin (h : s.Solo) (hrunning : s.running = []) :
    (s.beat .begin).begun = s.begun ++ s.coming.take 1 := by
  rw [beat_begin_nil hrunning]
  exact (begin_front h.sound).1

end

/-- **Lanes take turns.** Whoever dispatches what to which lane at any time, the running task among them,
and whatever panics, a runtime that takes one turn at a time in the order in which they were spawned
begins a task only when all those begun before are over; the line holds a task of each lane that has
a turn in it, of each lane one, and of the lane that runs none. When the running task of a lane is over
and another one waits on this lane, what is begun from there on are the tasks that the line holds at
that moment, one of every lane whose turn is spawned, in the order of their turns, and then this other
task: no lane comes twice before it, and none that was not in the line. So a task that is next on a
lane whose turn is spawned waits for one task of each lane ahead of it, and for the one that runs, all
of them of different lanes; and while nothing runs, the first one in the line is begun. -/
theorem lanes_take_turns (before after : List (Beat τ)) :
    let s := work before
    (s.begun = s.ended ++ s.running ∧ s.running.length ≤ 1) ∧
      (s.coming.map (·.1) = s.pool.turns ∧ (s.running.map (·.1) ++ s.pool.turns).Nodup ∧
        ∀ t task, (t, task) ∈ s.coming → (s.pool.lane t).tasks.head? = some task) ∧
      (∀ t task next rest panics, s.running = [(t, task)] → (s.pool.lane t).tasks = next :: rest →
        ∃ later, ((Beat.finish panics :: after).foldl beat s).begun = s.begun ++ later ∧
          Keeps (s.coming ++ [(t, next)]) later ∧
          (t ∈ later.map (·.1) → ∃ more, later = s.coming ++ (t, next) :: more)) ∧
      (∀ ahead t next behind, s.coming = ahead ++ (t, next) :: behind →
        (∃ later, (after.foldl beat s).begun = s.begun ++ later ∧
          Keeps (ahead ++ [(t, next)]) later) ∧
        ((s.running ++ ahead).map (·.1)).Nodup ∧ t ∉ (s.running ++ ahead).map (·.1)) ∧
      (s.running = [] → (s.beat .begin).begun = s.begun ++ s.coming.take 1) := by
  intro s
  have h : s.Solo := solo_new.foldl before
  refine ⟨⟨h.logged, h.single⟩, ⟨h.sound.map_coming, h.sound.map_coming ▸ h.line, fun t task ht => ?_⟩,
    fun t task next rest panics hrunning htasks => h.next_turn hrunning htasks panics after,
    fun ahead t next behind hcoming => ⟨(h.continues after).keeps ?_, h.delay hcoming⟩, h.beat_begin⟩
  · obtain ⟨u, -, hu⟩ := List.mem_filterMap.1 ht
    obtain ⟨first, hfirst, heq⟩ := Option.map_eq_some_iff.1 hu
    cases heq
    exact hfirst
  · rw [hcoming]
    exact ⟨behind, List.append_assoc _ _ _⟩

/-- A busy lane and a quiet one, whose task comes between the first two of the busy one. -/
theorem lanes_take_turns_busy_and_quiet :
    let before : List (Beat Nat) := [.dispatch ⟨"busy"⟩ 1, .spawn 0, .dispatch ⟨"busy"⟩ 2,
      .dispatch ⟨"busy"⟩ 3, .dispatch ⟨"quiet"⟩ 4, .spawn 0, .begin]
    let after : List (Beat Nat) := [.begin, .dispatch ⟨"late"⟩ 5, .spawn 0, .finish true, .begin]
    let s := work before
    (s.running = [(⟨"busy"⟩, 1)] ∧ (s.pool.lane ⟨"busy"⟩).tasks = [2, 3] ∧
        s.coming = [(⟨"quiet"⟩, 4)]) ∧
      ∃ later, ((Beat.finish false :: after).foldl beat s).begun = s.begun ++ later ∧
        ∃ more, later = [(⟨"quiet"⟩, 4), (⟨"busy"⟩, 2)] ++ more := by
  intro before after s
  have hrunning : s.running = [(⟨"busy"⟩, 1)] := by decide
  have htasks : (s.pool.lane ⟨"busy"⟩).tasks = [2, 3] := by decide
  have hcoming : s.coming = [(⟨"quiet"⟩, 4)] := by decide
  obtain ⟨later, hlater, -, hnext⟩ :=
    (lanes_take_turns before after).2.2.1 ⟨"busy"⟩ 1 2 [3] false hrunning htasks
  have hdone : ((Beat.finish false :: after).foldl beat s).begun =
      s.begun ++ [(⟨"quiet"⟩, 4), (⟨"busy"⟩, 2)] := by decide
  have hsince : later = [(⟨"quiet"⟩, 4), (⟨"busy"⟩, 2)] :=
    List.append_cancel_left (hlater.symm.trans hdone)
  obtain ⟨more, hmore⟩ := hnext (hsince ▸ by decide)
  exact ⟨⟨hrunning, htasks, hcoming⟩, later, hlater, more, by rw [hmore, hcoming]; rfl⟩

end Shift

/-! ## Sessions -/

namespace Session

open Shift (beat step)

variable {s s' : Session} {w : Shift Task} {t : Token} {task : Task}

/-- What a task of a session does, and the end of its turn. -/
def taskBeats : Task → List (Beat Task)
  | .mk _ ds _ prunes failure =>
    (ds.flatMap fun d => [.dispatch d.1 d.2, .spawn 0]) ++ (if prunes then [.prune] else []) ++
      [.finish failure.isSome]

theorem foldl_taskBeats (hdue : w.due = []) (task : Task) :
    (taskBeats task).foldl beat w = (taskMoves task).foldl step w := by
  have hdispatches : ∀ (ds : List (Token × Task)) (w : Shift Task),
      (ds.flatMap fun d => [Beat.dispatch d.1 d.2, .spawn 0]).foldl beat w =
        (ds.flatMap fun d => [Move.dispatch d.1 d.2, .spawn 0]).foldl step w := by
    intro ds
    induction ds with
    | nil => exact fun _ => rfl
    | cons d ds ih =>
      intro w
      rw [List.flatMap_cons, List.foldl_append, List.flatMap_cons, List.foldl_append]
      exact ih _
  have hprune : ∀ (prunes : Bool) (w : Shift Task),
      (if prunes then [Beat.prune] else []).foldl beat w =
        (if prunes then [Move.forget fun _ => true] else []).foldl step w := by
    intro prunes w
    cases prunes <;> rfl
  have hfinish : ∀ (panics : Bool) {w : Shift Task}, w.due = [] →
      [Beat.finish panics].foldl beat w = [Move.finish 0 panics, .spawn 0].foldl step w := by
    intro panics w hdue
    show (Beat.moves w (.finish panics)).foldl step w = _
    rw [Beat.moves, hdue]
    rfl
  obtain ⟨label, ds, probes, prunes, failure⟩ := task
  unfold taskBeats taskMoves
  rw [List.foldl_append, List.foldl_append, List.foldl_append, List.foldl_append, hdispatches, hprune]
  refine hfinish _ ?_
  rw [foldl_dispatches hdue, foldl_prune]
  exact hdue

/-- A turn of a session is one of a runtime that takes one turn at a time. -/
theorem turn_beats (hsolo : w.Solo) (hpool : w.pool = s.pool) (hdue : w.due = [])
    (hrunning : w.running = []) (h : s.turn = some s') :
    ∃ beats : List (Beat Task), (beats.foldl beat w).pool = s'.pool ∧ (beats.foldl beat w).due = [] ∧
      (beats.foldl beat w).running = [] := by
  obtain ⟨⟨p, t, task⟩, hb, hs'⟩ := Option.map_eq_some_iff.1 h
  rw [← hpool] at hb
  subst hs'
  obtain ⟨p, t, task, heq, -⟩ := hsolo.sound.sane.beginTurn hb
  cases heq
  refine ⟨.begin :: taskBeats task, ?_⟩
  have hbegin : w.beat .begin =
      { w with pool := p, running := [(t, task)], begun := w.begun ++ [(t, task)] } :=
    (Shift.beat_begin_nil hrunning).trans (step_begin hrunning hb)
  rw [List.foldl_cons, hbegin, foldl_taskBeats (by exact hdue)]
  exact foldl_taskMoves (s := { s with pool := p }) rfl hdue rfl

/-- Waiting until a pool is idle takes its turns one at a time, in the order in which they were
spawned. -/
theorem turns_beats (fuel : Nat) (hsolo : w.Solo) (hpool : w.pool = s.pool) (hdue : w.due = [])
    (hrunning : w.running = []) :
    ∃ beats : List (Beat Task), (beats.foldl beat w).pool = (s.turns fuel).pool ∧
      (beats.foldl beat w).due = [] ∧ (beats.foldl beat w).running = [] := by
  induction fuel generalizing s w with
  | zero => exact ⟨[], hpool, hdue, hrunning⟩
  | succ fuel ih =>
    unfold turns
    cases hturn : s.turn with
    | none => exact ⟨[], hpool, hdue, hrunning⟩
    | some s' =>
      obtain ⟨first, hpool', hdue', hrunning'⟩ := turn_beats hsolo hpool hdue hrunning hturn
      obtain ⟨rest, hrest⟩ := ih (hsolo.foldl first) hpool' hdue' hrunning'
      refine ⟨first ++ rest, ?_⟩
      rw [List.foldl_append]
      exact hrest

end Session

end ChunkRouter.Lane
