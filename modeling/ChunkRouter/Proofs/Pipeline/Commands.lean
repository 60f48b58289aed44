import ChunkRouter.Pipeline.Session
import ChunkRouter.Proofs.Pipeline.Closing

/-!
# Commands are moves

A pipeline alone on a bench. What a command does to it, with all that its visitor calls, is a run of
moves, so what is known of runs of moves is known of sessions.
-/

namespace ChunkRouter.Pipeline

open Work

/-! ## Computations on sessions -/

namespace Session

/-- From `s` the computation comes back with an answer and a session as `Q` says, or panics as `E` says. -/
def Run.Meets {α : Type} (E : Panic → Prop) (m : Run α) (s : Session) (Q : α → Session → Prop) : Prop :=
  match m.run s with
  | (.ok a, s') => Q a s'
  | (.error panic, _) => E panic

open Run (Meets)

section

variable {α β : Type} {E : Panic → Prop} {m : Run α} {f : α → Run β} {s : Session}
  {Q Q' : α → Session → Prop} {R : β → Session → Prop}

theorem meets_pure {a : α} (h : Q a s) : Meets E (pure a) s Q := h

theorem meets_throw {panic : Panic} (h : E panic) : Meets E (throw panic : Run α) s Q := h

theorem run_bind (m : Run α) (f : α → Run β) (s : Session) :
    (m >>= f).run s =
      match m.run s with
      | (.ok a, s') => (f a).run s'
      | (.error panic, s') => (.error panic, s') := by
  show ExceptT.bindCont f (m.run s).1 (m.run s).2 = _
  rcases m.run s with ⟨panic | a, s'⟩
  · rfl
  · rfl

theorem Run.Meets.bind (h : Meets E m s fun a s' => Meets E (f a) s' R) : Meets E (m >>= f) s R := by
  unfold Meets at h ⊢
  rw [run_bind]
  rcases hm : m.run s with ⟨panic | a, s'⟩
  · rw [hm] at h
    exact h
  · rw [hm] at h
    exact h

theorem Run.Meets.mono (h : Meets E m s Q) (hQ : ∀ a s', Q a s' → Q' a s') : Meets E m s Q' := by
  unfold Meets at h ⊢
  rcases hm : m.run s with ⟨panic | a, s'⟩
  · rw [hm] at h
    exact h
  · rw [hm] at h
    exact hQ a s' h

theorem meets_get {Q : Session → Session → Prop} (h : Q s s) : Meets E (get : Run Session) s Q := h

theorem meets_set {Q : PUnit → Session → Prop} {s' : Session} (h : Q ⟨⟩ s') :
    Meets E (set s' : Run PUnit) s Q := h

theorem meets_modify {Q : PUnit → Session → Prop} {g : Session → Session} (h : Q ⟨⟩ (g s)) :
    Meets E (modify g : Run PUnit) s Q := h

theorem meets_tryCatch {handler : Panic → Run α} (h : Meets E m s Q)
    (hpanic : ∀ panic s', E panic → Meets E (handler panic) s' Q) :
    Meets E (tryCatch m handler) s Q := by
  unfold Meets at h ⊢
  have hcatch : (tryCatch m handler).run s =
      match m.run s with
      | (.ok a, s') => (.ok a, s')
      | (.error panic, s') => (handler panic).run s' := by
    simp only [tryCatch, tryCatchThe, MonadExceptOf.tryCatch, ExceptT.tryCatch, ExceptT.run, ExceptT.mk, bind,
      StateT.bind]
    rcases m s with ⟨panic | a, s'⟩
    · rfl
    · rfl
  rw [hcatch]
  rcases hm : m.run s with ⟨panic | a, s'⟩
  · rw [hm] at h
    exact hpanic panic s' h
  · rw [hm] at h
    exact h

/-- A loop, by what holds of the items that are left. -/
theorem meets_forM {g : α → Run PUnit} {I : List α → Session → Prop} {xs : List α}
    (hstep : ∀ x rest s, I (x :: rest) s → Meets E (g x) s fun _ s' => I rest s') (h : I xs s) :
    Meets E (xs.forM g) s fun _ s' => I [] s' := by
  induction xs generalizing s with
  | nil => exact h
  | cons x xs ih =>
    show Meets E (g x >>= fun _ => xs.forM g) s _
    exact .bind ((hstep x xs s h).mono fun _ s' h' => ih h')

/-- A loop that collects answers, by what holds of these and of the items that are left. -/
theorem meets_mapM {g : α → Run β} {I : List β → List α → Session → Prop} {xs : List α}
    (hstep : ∀ ys x rest s, I ys (x :: rest) s → Meets E (g x) s fun y s' => I (ys ++ [y]) rest s')
    (h : I [] xs s) : Meets E (xs.mapM g) s fun ys s' => I ys [] s' := by
  suffices hloop : ∀ ys s, I ys xs s → Meets E (xs.mapM g) s fun more s' => I (ys ++ more) [] s' from
    hloop [] s h
  clear h
  induction xs with
  | nil =>
    intro ys s h
    rw [List.mapM_nil]
    apply meets_pure
    rwa [List.append_nil]
  | cons x xs ih =>
    intro ys s h
    rw [List.mapM_cons]
    refine .bind ((hstep ys x xs s h).mono fun y s' h' => ?_)
    refine .bind ((ih (ys ++ [y]) s' h').mono fun more s'' h'' => ?_)
    apply meets_pure
    rwa [List.append_assoc] at h''

end

/-! ## One pipeline on a bench -/

section

variable {α : Type} {E : Panic → Prop} {s : Session} {slot : Slot}

/-- A step on the only pipeline, or on one that does not exist. -/
theorem meets_onPipe {p : Nat} {default : α} {step : Pipeline Item → Pipeline Item × α}
    {Q : α → Session → Prop} (hpipes : s.pipes = #[slot])
    (hown : p = 0 → Q (step slot.pipeline).2
      { s with pipes := #[{ slot with pipeline := (step slot.pipeline).1 }] })
    (hother : p ≠ 0 → Q default s) : Meets E (onPipe p default step) s Q := by
  show Q _ _
  rcases p with _ | p
  · have hown := hown rfl
    simpa [hpipes] using hown
  · have hother := hother (Nat.succ_ne_zero p)
    simpa [hpipes] using hother

theorem meets_onPipe_trivial {p : Nat} {default : α} {step : Pipeline Item → Pipeline Item × α} :
    Meets E (onPipe p default step) s fun _ _ => True := by
  show True
  trivial

theorem meets_holds {p : Nat} {Q : Bool → Session → Prop} (hpipes : s.pipes = #[slot])
    (hown : p = 0 → Q slot.held s) (hother : p ≠ 0 → Q false s) : Meets E (holds p) s Q := by
  show Q _ _
  rcases p with _ | p
  · have hown := hown rfl
    simpa [hpipes] using hown
  · have hother := hother (Nat.succ_ne_zero p)
    simpa [hpipes] using hother

end

theorem fuel_eq (s : Session) (weight : Nat) : s.fuel weight = 8 * (s.load + weight) + 8 := rfl

/-- The pipeline of `w` is alone in the session. Its tasks wait on a bench, but for those in `hand`, and
so many dispatches are due. -/
structure Shows (hand : List (Task Item)) (due : Nat) (w : Drainage Item) (s : Session) : Prop where
  pipes : ∃ held, s.pipes = #[⟨w.pipeline, held⟩]
  due_eq : w.due = due
  bench : ∃ n, w.tasks = hand ++ List.replicate n .parked ∧
    s.executor = .bench ⟨List.replicate n (w.pipeline.lane, 0), w.dispatched.reverse⟩

/-- Moves that did not panic left the pipeline as the session has it. -/
def Moved (p : Pipeline Item) (hand : List (Task Item)) (due : Nat) (s : Session) : Prop :=
  ∃ moves, (Drainage.run slotSize p moves).panics = 0 ∧
    Shows hand due (Drainage.run slotSize p moves) s

section

variable {E : Panic → Prop} {hand hand' : List (Task Item)} {due due' : Nat} {w w' : Drainage Item}
  {s s' : Session} {p₀ : Pipeline Item}

/-- One more move. -/
theorem Moved.step {moves : List (Move Item)} {m : Move Item}
    (hm : (Drainage.run slotSize p₀ moves).step slotSize m = w') (hclean : w'.panics = 0)
    (hshows : Shows hand' due' w' s') : Moved p₀ hand' due' s' := by
  have hrun : Drainage.run slotSize p₀ (moves ++ [m]) = w' := by
    rw [← hm, Drainage.run, List.foldl_append]
    rfl
  exact ⟨moves ++ [m], hrun ▸ hclean, hrun ▸ hshows⟩

/-- One more move, by which the tasks in hand come to `hand'`. -/
theorem Moved.use {moves : List (Move Item)} {m : Move Item} (held : Bool)
    (hshows : Shows hand due (Drainage.run slotSize p₀ moves) s)
    (hm : (Drainage.run slotSize p₀ moves).step slotSize m = w') (hclean : w'.panics = 0)
    (htasks : ∀ rest, (Drainage.run slotSize p₀ moves).tasks = hand ++ rest → w'.tasks = hand' ++ rest)
    (hdispatched : w'.dispatched = (Drainage.run slotSize p₀ moves).dispatched) (hdue : w'.due = due') :
    Moved p₀ hand' due' { s with pipes := #[⟨w'.pipeline, held⟩] } := by
  obtain ⟨-, -, n, hn, hbench⟩ := hshows
  have hlane : w'.pipeline.lane = (Drainage.run slotSize p₀ moves).pipeline.lane := by
    rw [← hm, Drainage.pipeline_step]
  refine .step hm hclean ⟨⟨held, rfl⟩, hdue, n, htasks _ hn, ?_⟩
  rw [hlane, hdispatched]
  exact hbench

/-- Nothing else of a session matters. -/
theorem Shows.notes (h : Shows hand due w s) (notes : List Note) (count : Nat) :
    Shows hand due w { s with notes := notes, noteCount := count } := ⟨h.pipes, h.due_eq, h.bench⟩

theorem Shows.dispatch (h : Shows hand 1 w s) (fuel : Nat) :
    Meets E (dispatch (fuel + 1) 0) s fun _ s' => Shows hand 0 (w.step slotSize .dispatch) s' := by
  obtain ⟨⟨held, hpipes⟩, hdue, n, hn, hbench⟩ := h
  simp only [Session.dispatch]
  apply Run.Meets.bind
  apply meets_get
  have hslot : s.pipes[0]? = some ⟨w.pipeline, held⟩ := by simp [hpipes]
  rw [hslot, hbench]
  refine .bind (meets_set ?_)
  apply meets_pure
  have hdispatch : w.step slotSize .dispatch = { w with
      due := w.due - 1, tasks := w.tasks ++ [.parked], dispatched := w.dispatched ++ [w.pipeline.lane] } := by
    simp only [Drainage.step, Drainage.dispatch]
    rw [if_neg (by omega)]
  rw [hdispatch]
  refine ⟨⟨held, hpipes⟩, by rw [hdue], n + 1, ?_, ?_⟩
  · show w.tasks ++ [.parked] = _
    rw [hn, List.append_assoc, List.replicate_succ']
  · show Lane.Executor.bench (Lane.Bench.dispatch _ _ _) = _
    simp [Lane.Bench.dispatch, List.replicate_succ']

theorem Moved.dispatch (h : Moved p₀ hand 1 s) (fuel : Nat) :
    Meets E (dispatch (fuel + 1) 0) s fun _ s' => Moved p₀ hand 0 s' := by
  obtain ⟨moves, hpanics, hshows⟩ := h
  refine (hshows.dispatch fuel).mono fun _ s' hs' => .step rfl ?_ hs'
  simp only [Drainage.step, Drainage.dispatch]
  split
  · exact hpanics
  · exact hpanics

/-- A step that uses the queue and asks for no dispatch. -/
theorem Moved.onPipe {α : Type} {p : Nat} {default : α} {step : Pipeline Item → Pipeline Item × α}
    (h : Moved p₀ hand due s)
    (hstep : ∀ w : Drainage Item, ∃ m, w.step slotSize m = { w with pipeline := (step w.pipeline).1 }) :
    Meets E (onPipe p default step) s fun _ s' => Moved p₀ hand due s' := by
  obtain ⟨moves, hpanics, hshows⟩ := h
  obtain ⟨held, hpipes⟩ := hshows.pipes
  refine meets_onPipe hpipes (fun _ => ?_) fun _ => ⟨moves, hpanics, hshows⟩
  obtain ⟨m, hm⟩ := hstep (Drainage.run slotSize p₀ moves)
  exact .use held hshows hm hpanics (fun _ => id) rfl hshows.due_eq

/-- A question about the pipeline. -/
theorem Moved.ask {α : Type} {p : Nat} {default : α} {answer : Pipeline Item → α}
    (h : Moved p₀ hand due s) :
    Meets E (Session.onPipe p default fun pipeline => (pipeline, answer pipeline)) s
      fun _ s' => Moved p₀ hand due s' := by
  obtain ⟨moves, hpanics, hshows⟩ := h
  obtain ⟨held, hpipes⟩ := hshows.pipes
  refine meets_onPipe hpipes (fun _ => ?_) fun _ => ⟨moves, hpanics, hshows⟩
  exact ⟨moves, hpanics, ⟨held, rfl⟩, hshows.due_eq, hshows.bench⟩

/-- A step that may ask for a dispatch, which is made then. -/
theorem Moved.wake {α : Type} {moves : List (Move Item)} {m : Move Item} {wakes : Bool} {a : α}
    (held : Bool) (fuel : Nat) (hshows : Shows hand 0 (Drainage.run slotSize p₀ moves) s)
    (hm : (Drainage.run slotSize p₀ moves).step slotSize m = w') (hclean : w'.panics = 0)
    (htasks : ∀ rest, (Drainage.run slotSize p₀ moves).tasks = hand ++ rest → w'.tasks = hand' ++ rest)
    (hdispatched : w'.dispatched = (Drainage.run slotSize p₀ moves).dispatched)
    (hdue : w'.due = (Drainage.run slotSize p₀ moves).due + wakes.toNat) :
    Meets E (if wakes then do
        Session.dispatch (fuel + 1) 0
        pure a
      else pure a) { s with pipes := #[⟨w'.pipeline, held⟩] } fun _ s' => Moved p₀ hand' 0 s' := by
  rw [hshows.due_eq, Nat.zero_add] at hdue
  have hmoved := Moved.use held hshows hm hclean htasks hdispatched hdue
  cases wakes with
  | false => exact meets_pure hmoved
  | true => exact .bind ((hmoved.dispatch fuel).mono fun _ _ h => meets_pure h)

theorem Moved.offer (h : Moved p₀ hand 0 s) (fuel p : Nat) (x : Item) :
    Meets (fun _ => True) (offer (fuel + 2) p x) s fun _ s' => Moved p₀ hand 0 s' := by
  obtain ⟨moves, hpanics, hshows⟩ := h
  obtain ⟨held, hpipes⟩ := hshows.pipes
  simp only [Session.offer]
  refine .bind (meets_onPipe hpipes (fun hp => ?_) fun hp => ?_)
  · subst hp
    cases hmemory : (Drainage.run slotSize p₀ moves).pipeline.queue.reserveSlot slotSize with
    | error panic => exact meets_throw trivial
    | ok u =>
      refine .bind (meets_pure (.bind (meets_onPipe rfl (fun _ => ?_) fun hp => absurd rfl hp)))
      dsimp only
      rcases henqueue : (Drainage.run slotSize p₀ moves).pipeline.enqueue x with ⟨p', _ | wakes⟩
      · have hstep : (Drainage.run slotSize p₀ moves).step slotSize (.enqueue x) =
            { Drainage.run slotSize p₀ moves with pipeline := p' } := by
          simp only [Drainage.step, Drainage.enqueue, hmemory, henqueue]
        exact meets_pure (.use held hshows hstep hpanics (fun _ => id) rfl hshows.due_eq)
      · have hstep : (Drainage.run slotSize p₀ moves).step slotSize (.enqueue x) =
            { Drainage.run slotSize p₀ moves with
              pipeline := p'
              accepted := (Drainage.run slotSize p₀ moves).accepted ++ [x]
              due := (Drainage.run slotSize p₀ moves).due + wakes.toNat } := by
          simp only [Drainage.step, Drainage.enqueue, hmemory, henqueue]
        exact Moved.wake held fuel hshows hstep hpanics (fun _ => id) rfl rfl
  · refine .bind (meets_pure (.bind (meets_onPipe hpipes (fun h => absurd h hp) fun _ => ?_)))
    exact meets_pure ⟨moves, hpanics, hshows⟩

theorem Moved.clear (h : Moved p₀ hand 0 s) (p : Nat) :
    Meets (fun _ => True) (do
      match ← Session.onPipe p (.ok 0) Pipeline.clear with
      | .error panic => throw panic
      | .ok n => pure (Answer.count n)) s fun _ s' => Moved p₀ hand 0 s' := by
  obtain ⟨moves, hpanics, hshows⟩ := h
  obtain ⟨held, hpipes⟩ := hshows.pipes
  refine .bind (meets_onPipe hpipes (fun _ => ?_) fun _ => meets_pure ⟨moves, hpanics, hshows⟩)
  dsimp only
  rcases hclear : (Drainage.run slotSize p₀ moves).pipeline.clear with ⟨p', panic | n⟩
  · exact meets_throw trivial
  · have hstep : (Drainage.run slotSize p₀ moves).step slotSize .clear =
        { Drainage.run slotSize p₀ moves with pipeline := p' } := by
      simp only [Drainage.step, Drainage.clear, hclear]
    exact meets_pure (.use held hshows hstep hpanics (fun _ => id) rfl hshows.due_eq)

theorem Moved.start (h : Moved p₀ hand 0 s) (fuel : Nat) :
    Meets E (do
      if ← Session.onPipe 0 false Pipeline.start then
        Session.dispatch (fuel + 1) 0
        pure Answer.done
      else pure Answer.done) s fun _ s' => Moved p₀ hand 0 s' := by
  obtain ⟨moves, hpanics, hshows⟩ := h
  obtain ⟨held, hpipes⟩ := hshows.pipes
  refine .bind (meets_onPipe hpipes (fun _ => ?_) fun h => absurd rfl h)
  exact Moved.wake (m := .start) held fuel hshows rfl hpanics (fun _ => id) rfl rfl

/-- A call that the visitor makes, or anybody else. -/
theorem Moved.call (h : Moved p₀ hand 0 s) (fuel : Nat) (c : Call) :
    Meets (fun _ => True) (call (fuel + 3) c) s fun _ s' => Moved p₀ hand 0 s' := by
  have hholds : Meets (fun _ => True) (holds c.pipe) s fun held s' =>
      s' = s ∧ (held = true → c.pipe = 0) := by
    obtain ⟨moves, hpanics, hshows⟩ := h
    obtain ⟨held, hpipes⟩ := hshows.pipes
    refine meets_holds hpipes (fun hp => ⟨rfl, fun _ => hp⟩) fun hp => ⟨rfl, fun h => ?_⟩
    cases h
  simp only [Session.call]
  refine .bind (hholds.mono fun held s' hs' => ?_)
  obtain ⟨rfl, hpipe⟩ := hs'
  cases held with
  | false => exact meets_pure h
  | true =>
    have hpipe := hpipe rfl
    cases c with
    | enqueue p items =>
      refine .bind ((meets_mapM (I := fun _ _ s => Moved p₀ hand 0 s) ?_ h).mono fun _ _ h => meets_pure h)
      intro _ x _ s h
      exact h.offer fuel p x
    | clear p => exact h.clear p
    | start p =>
      cases hpipe
      exact h.start (fuel + 1)
    | stop p =>
      refine .bind ((h.onPipe fun w => ?_).mono fun _ _ h => meets_pure h)
      exact ⟨.stop, rfl⟩
    | close p =>
      refine .bind ((h.onPipe fun w => ?_).mono fun _ _ h => meets_pure h)
      exact ⟨.close, rfl⟩
    | visited p => exact .bind (meets_get (meets_pure h))
    | lane p => exact .bind (h.ask.mono fun _ _ h => meets_pure h)
    | len p => exact .bind (h.ask.mono fun _ _ h => meets_pure h)
    | describe p => exact .bind (h.ask.mono fun _ _ h => meets_pure h)
    | drop p =>
      cases hpipe
      obtain ⟨moves, hpanics, hshows⟩ := h
      obtain ⟨held, hpipes⟩ := hshows.pipes
      refine .bind (meets_modify (meets_pure ⟨moves, hpanics, ⟨false, ?_⟩, hshows.due_eq, hshows.bench⟩))
      simp [hpipes]

/-- An item of the batch is visited. -/
theorem Moved.visit {x : Item} {rest : List Item} (h : Moved p₀ [.running (x :: rest)] 0 s) (fuel : Nat) :
    Meets (fun _ => True) (visit (fuel + 4) x) s fun _ s' => Moved p₀ [.running rest] 0 s' := by
  have hmoved : Moved p₀ [.running rest] 0 s := by
    obtain ⟨moves, hpanics, hshows⟩ := h
    obtain ⟨n, htasks, hbench⟩ := hshows.bench
    have hstep : (Drainage.run slotSize p₀ moves).step slotSize (.visit 0) =
        (Drainage.run slotSize p₀ moves).visit 0 x rest := by
      simp only [Drainage.step, htasks, List.cons_append, List.getElem?_cons_zero]
    have hset : ((Drainage.run slotSize p₀ moves).tasks.set 0 (.running rest)) =
        [.running rest] ++ List.replicate n .parked := by
      rw [htasks]
      rfl
    exact .step hstep hpanics ⟨hshows.pipes, hshows.due_eq, n, hset, hbench⟩
  have hwrite : ∀ {s : Session} (note : Note), Moved p₀ [.running rest] 0 s →
      Meets (fun _ => True) (write note) s fun _ s' => Moved p₀ [.running rest] 0 s' := by
    intro s note h
    obtain ⟨moves, hpanics, hshows⟩ := h
    exact meets_modify ⟨moves, hpanics, hshows.notes _ _⟩
  obtain ⟨id, calls, failure⟩ := x
  simp only [Session.visit]
  refine .bind ((hwrite _ hmoved).mono fun _ s₁ h₁ => .bind ?_)
  refine (meets_forM (I := fun _ s => Moved p₀ [.running rest] 0 s) ?_ h₁).mono fun _ s₂ h₂ => ?_
  · intro c _ s h
    exact .bind ((h.call fuel c).mono fun answer s' h' => hwrite (.nested c answer) h')
  · cases failure with
    | none => exact meets_pure h₂
    | some message => exact meets_throw trivial

/-- A drain task begins: it is gone, or has a batch in hand. -/
theorem Moved.beginDrain (h : Moved p₀ [.parked] 0 s) :
    Meets E (Session.onPipe 0 none Pipeline.beginDrain) s fun batch s' =>
      Moved p₀ (batch.elim [] fun batch => [.running batch]) 0 s' := by
  obtain ⟨moves, hpanics, hshows⟩ := h
  obtain ⟨held, hpipes⟩ := hshows.pipes
  obtain ⟨n, htasks, -⟩ := hshows.bench
  refine meets_onPipe hpipes (fun _ => ?_) fun h => absurd rfl h
  have hstep : (Drainage.run slotSize p₀ moves).step slotSize (.begin 0) =
      (Drainage.run slotSize p₀ moves).begin 0 := by
    simp only [Drainage.step, htasks, List.cons_append, List.getElem?_cons_zero]
  unfold Drainage.begin at hstep
  dsimp only
  rcases hbegin : (Drainage.run slotSize p₀ moves).pipeline.beginDrain with ⟨p', _ | batch⟩
  · rw [hbegin] at hstep
    exact .use held hshows hstep hpanics (fun _ h => congrArg (·.eraseIdx 0) h) rfl hshows.due_eq
  · rw [hbegin] at hstep
    exact .use held hshows hstep hpanics (fun _ h => congrArg (·.set 0 (.running batch)) h) rfl hshows.due_eq

/-- A drain task is done with its batch, and is dispatched again perhaps. -/
theorem Moved.endDrain (h : Moved p₀ [.running []] 0 s) (fuel : Nat) :
    Meets E (do
      if ← Session.onPipe 0 false Pipeline.endDrain then Session.dispatch (fuel + 1) 0 else pure ()) s
      fun _ s' => Moved p₀ [] 0 s' := by
  obtain ⟨moves, hpanics, hshows⟩ := h
  obtain ⟨held, hpipes⟩ := hshows.pipes
  obtain ⟨n, htasks, -⟩ := hshows.bench
  refine .bind (meets_onPipe hpipes (fun _ => ?_) fun h => absurd rfl h)
  have hstep : (Drainage.run slotSize p₀ moves).step slotSize (.finish 0) =
      (Drainage.run slotSize p₀ moves).finish 0 := by
    simp only [Drainage.step, htasks, List.cons_append, List.getElem?_cons_zero]
  unfold Drainage.finish at hstep
  dsimp only
  rcases hend : (Drainage.run slotSize p₀ moves).pipeline.endDrain with ⟨p', again⟩
  rw [hend] at hstep
  have hdue := hshows.due_eq
  have hmoved : Moved p₀ [] again.toNat { s with pipes := #[⟨p', held⟩] } :=
    .use held hshows hstep hpanics (fun _ h => congrArg (·.eraseIdx 0) h) rfl (by simp [hdue])
  cases again with
  | false => exact meets_pure hmoved
  | true => exact hmoved.dispatch fuel

/-- The drain task that was taken off the bench runs. -/
theorem Moved.drain (h : Moved p₀ [.parked] 0 s) (fuel : Nat) :
    Meets (fun _ => True) (drain (fuel + 5) 0) s fun _ s' => Moved p₀ [] 0 s' := by
  simp only [Session.drain]
  refine .bind (h.beginDrain.mono fun batch s₁ h₁ => ?_)
  cases batch with
  | none => exact meets_pure h₁
  | some batch =>
    have hloop : Meets (fun _ => True) (batch.forM (Session.visit (fuel + 4))) s₁
        fun _ s₂ => Moved p₀ [.running []] 0 s₂ :=
      meets_forM (I := fun rest s => Moved p₀ [.running rest] 0 s) (fun x rest s h => h.visit fuel) h₁
    refine .bind ((meets_tryCatch hloop fun panic s' _ => ?_).mono fun _ s₂ h₂ => h₂.endDrain (fuel + 3))
    exact .bind (meets_onPipe_trivial.mono fun _ _ _ => meets_throw trivial)

/-- A task that was taken off the bench runs, or there is none. -/
theorem Moved.runTaken (h : Moved p₀ [] 0 s) {taken : Option (Nat × Lane.Executor Nat)}
    (htaken : ∀ p executor, taken = some (p, executor) →
      p = 0 ∧ Moved p₀ [.parked] 0 { s with executor := executor }) :
    Meets (fun _ => True) (runTaken taken) s fun _ s' => Moved p₀ [] 0 s' := by
  rcases taken with _ | ⟨p, executor⟩
  · exact meets_pure h
  · obtain ⟨rfl, hmoved⟩ := htaken p executor rfl
    simp only [Session.runTaken]
    refine .bind (meets_get (.bind (meets_set ?_)))
    rw [fuel_eq]
    exact .bind ((hmoved.drain _).mono fun _ _ h => meets_pure h)

/-- Whichever task is asked for, it is the first of those that wait: they are all alike. -/
theorem Moved.taken (h : Moved p₀ [] 0 s) {taken : Option (Nat × Lane.Executor Nat)}
    (hnext : taken = s.executor.next ∨ ∃ lane, taken = s.executor.nextOn lane) {p : Nat}
    {executor : Lane.Executor Nat} (htaken : taken = some (p, executor)) :
    p = 0 ∧ Moved p₀ [.parked] 0 { s with executor := executor } := by
  obtain ⟨moves, hpanics, hpipes, hdue, n, htasks, hbench⟩ := h
  generalize hlane : (Drainage.run slotSize p₀ moves).pipeline.lane = own at hbench
  generalize hds : (Drainage.run slotSize p₀ moves).dispatched.reverse = ds at hbench
  rw [hbench, htaken] at hnext
  have hfirst : ∃ k, n = k + 1 ∧ p = 0 ∧ executor = .bench ⟨List.replicate k (own, 0), ds⟩ := by
    cases n with
    | zero => rcases hnext with hnext | ⟨lane, hnext⟩ <;> cases hnext
    | succ k =>
      refine ⟨k, rfl, ?_⟩
      rcases hnext with hnext | ⟨lane, hnext⟩
      · cases hnext
        exact ⟨rfl, rfl⟩
      · by_cases hl : own = lane
        · subst hl
          simpa [Lane.Executor.nextOn, Lane.Bench.nextOn, List.replicate_succ] using hnext
        · simp [Lane.Executor.nextOn, Lane.Bench.nextOn, hl] at hnext
  obtain ⟨k, rfl, rfl, rfl⟩ := hfirst
  subst hlane hds
  exact ⟨rfl, moves, hpanics, hpipes, hdue, k, htasks, rfl⟩

theorem Moved.runNext (h : Moved p₀ [] 0 s) :
    Meets (fun _ => True) runNext s fun _ s' => Moved p₀ [] 0 s' := by
  simp only [Session.runNext]
  exact .bind (meets_get (h.runTaken fun _ _ => h.taken (.inl rfl)))

theorem Moved.runUntilIdle (h : Moved p₀ [] 0 s) (fuel n : Nat) :
    Meets (fun _ => True) (runUntilIdle fuel n) s fun _ s' => Moved p₀ [] 0 s' := by
  induction fuel generalizing s n with
  | zero => exact meets_throw trivial
  | succ fuel ih =>
    simp only [Session.runUntilIdle]
    refine .bind (h.runNext.mono fun ran s' h' => ?_)
    cases ran with
    | false => exact meets_pure h'
    | true => exact ih h' (n + 1)

/-- A bench is no pool. -/
theorem Moved.onPool {α : Type} (h : Moved p₀ [] 0 s) (default : α)
    (step : Lane.Pool Nat → Lane.Pool Nat × α) :
    Meets E (onPool default step) s fun a s' => a = default ∧ Moved p₀ [] 0 s' := by
  have hsame : (Session.onPool default step).run s = (.ok default, s) := by
    obtain ⟨moves, hpanics, hpipes, hdue, n, htasks, hbench⟩ := h
    cases s
    cases hbench
    rfl
  unfold Meets
  rw [hsame]
  exact ⟨rfl, h⟩

/-- **Every command makes moves**, if it does not panic. -/
theorem Moved.perform (h : Moved p₀ [] 0 s) (c : Command) :
    Meets (fun _ => True) (perform c) s fun _ s' => Moved p₀ [] 0 s' := by
  cases c with
  | call c =>
    refine .bind (meets_get ?_)
    rw [fuel_eq]
    exact h.call _ c
  | runNext => exact .bind (h.runNext.mono fun _ _ h => meets_pure h)
  | runNextOn lane =>
    refine .bind (meets_get (.bind ((h.runTaken fun _ _ => ?_).mono fun _ _ h => meets_pure h)))
    exact h.taken (.inr ⟨lane, rfl⟩)
  | runUntilIdle =>
    exact .bind (meets_get (.bind ((h.runUntilIdle _ 0).mono fun _ _ h => meets_pure h)))
  | dispatched => exact .bind (meets_get (meets_pure h))
  | describeExecutor => exact .bind (meets_get (meets_pure h))
  | waitIdle =>
    refine .bind (meets_get (.bind ?_))
    rw [fuel_eq]
    refine .bind ((h.onPool none _).mono fun turn s' h' => ?_)
    obtain ⟨rfl, h'⟩ := h'
    exact meets_pure (meets_pure h')
  | prune => exact .bind ((h.onPool 0 _).mono fun _ _ h => meets_pure h.2)
  | pending lane => exact .bind ((h.onPool 0 _).mono fun _ _ h => meets_pure h.2)

/-- What a command comes to, from what its computation does. -/
theorem command_of_meets {c : Command} {Q : Answer → Session → Prop}
    (h : Meets E (perform c) { s with notes := [] } Q) {result : Except Panic Answer}
    (hc : s.command c = (s', result)) :
    (∃ answer, result = .ok answer ∧ Q answer s') ∨ ∃ panic, result = .error panic ∧ E panic := by
  unfold Session.command at hc
  unfold Meets at h
  rcases hperform : (perform c).run { s with notes := [] } with ⟨panic | answer, s''⟩
  · rw [hperform] at h hc
    cases hc
    exact .inr ⟨panic, rfl, h⟩
  · rw [hperform] at h hc
    cases hc
    exact .inl ⟨answer, rfl, h⟩

theorem Moved.command (h : Moved p₀ [] 0 s) {c : Command} {answer : Answer}
    (hc : s.command c = (s', .ok answer)) : Moved p₀ [] 0 s' := by
  obtain ⟨moves, hpanics, hshows⟩ := h
  have hforgot : Moved p₀ [] 0 { s with notes := [] } := ⟨moves, hpanics, hshows.notes [] s.noteCount⟩
  obtain ⟨answer, -, hmoved⟩ | ⟨panic, herror, -⟩ := command_of_meets (hforgot.perform c) hc
  · exact hmoved
  · cases herror

end

/-! ## Runs -/

/-- A session with one pipeline, on an empty bench. -/
def alone (slot : Slot) : Session := ⟨#[slot], .bench .empty, [], 0⟩

/-- Carry commands out in order, if none of them panics. -/
def follow (s : Session) : List Command → Option Session
  | [] => some s
  | c :: commands =>
    match s.command c with
    | (s, .ok _) => s.follow commands
    | (_, .error _) => none

theorem Moved.follow {p₀ : Pipeline Item} {s s' : Session} {commands : List Command}
    (h : Moved p₀ [] 0 s) (hs : s.follow commands = some s') : Moved p₀ [] 0 s' := by
  induction commands generalizing s with
  | nil =>
    cases hs
    exact h
  | cons c commands ih =>
    unfold Session.follow at hs
    rcases hc : s.command c with ⟨next, panic | answer⟩
    · rw [hc] at hs
      cases hs
    · rw [hc] at hs
      exact ih (h.command hc) hs

/-- **A session is a run of moves.** If a pipeline is alone on a bench and no command panics, moves that
do not panic lead to the pipeline that the session has, and the tasks that wait there are those on the
bench. -/
theorem moved_of_follow {lane : Lane.Token} {settings : Settings} {started : Bool}
    {keep : Nat → Except Panic Bool} {slot : Slot} (hslot : Slot.tryNew lane settings started keep = .ok slot)
    {commands : List Command} {s : Session} (hs : (alone slot).follow commands = some s) :
    Moved (opened lane settings started fun x => keep x.id) [] 0 s := by
  have hnew : slot = ⟨opened lane settings started fun x => keep x.id, true⟩ := by
    unfold Slot.tryNew Queue.tryNew at hslot
    cases hmemory : Memory.reserve slotSize settings.initialCapacity with
    | error panic =>
      rw [hmemory] at hslot
      cases hslot
    | ok u =>
      rw [hmemory] at hslot
      cases hslot
      rfl
  subst hnew
  refine Moved.follow ?_ hs
  exact ⟨[], rfl, ⟨true, rfl⟩, rfl, 0, rfl, rfl⟩

end Session

end ChunkRouter.Pipeline
