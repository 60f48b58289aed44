import ChunkRouter.Proofs.Pipeline.Commands
import ChunkRouter.Proofs.Pipeline.Steady

/-!
# Running until idle

On a bench a drain task runs when it is told to, hands one batch over and goes back behind the others
while items are left. `Attended` says that the pipeline has its task whenever there is something to do,
and every turn keeps that, so running until idle comes to every item.
-/

namespace ChunkRouter

open Work

variable {α : Type}

namespace Pipeline

/-! ## Turns -/

namespace Session

open Run (Meets)

/-- The pipeline is alone on a bench, open and running, and `items` wait in it. Its drain task is at
work, or else it waits on the bench if there is something to do. -/
structure Attended (lane : Lane.Token) (bulk : Nat) (held atWork : Bool) (items : List Item)
    (dispatched : List Lane.Token) (s : Session) : Prop where
  pipes : ∃ p, s.pipes = #[⟨p, held⟩] ∧ Flows lane bulk p items ∧
    p.queue.processing = (atWork || !items.isEmpty)
  executor : s.executor = .bench ⟨List.replicate (!atWork && !items.isEmpty).toNat (lane, 0), dispatched⟩

section

variable {E : Panic → Prop} {lane : Lane.Token} {bulk : Nat} {held atWork : Bool} {items : List Item}
  {ds : List Lane.Token} {s : Session}

/-- What was written down does not matter. -/
theorem Attended.notes (h : Attended lane bulk held atWork items ds s) (notes : List Note) (count : Nat) :
    Attended lane bulk held atWork items ds { s with notes := notes, noteCount := count } :=
  ⟨h.pipes, h.executor⟩

theorem Attended.write (h : Attended lane bulk held atWork items ds s) (note : Note) :
    Meets E (write note) s fun _ s' =>
      Attended lane bulk held atWork items ds s' ∧ s'.notes = note :: s.notes :=
  meets_modify ⟨h.notes _ _, rfl⟩

/-- The drain task has visited its batch: it goes back on the bench if items are left. -/
theorem Attended.endDrain (h : Attended lane bulk held true items ds s) (fuel : Nat) :
    Meets E (do
      if ← onPipe 0 false Pipeline.endDrain then dispatch (fuel + 1) 0 else pure ()) s
      fun _ s' => Attended lane bulk held false items (if items = [] then ds else lane :: ds) s' ∧
        s'.notes = s.notes := by
  obtain ⟨⟨p, hpipes, hflows, hprocessing⟩, hbench⟩ := h
  obtain ⟨p', hend, hflows', hprocessing'⟩ := hflows.endDrain hprocessing
  refine .bind (meets_onPipe hpipes (fun _ => ?_) fun h => absurd rfl h)
  dsimp only
  rw [hend]
  cases items with
  | nil =>
    rw [if_pos rfl]
    exact meets_pure ⟨⟨⟨p', rfl, hflows', hprocessing'⟩, hbench⟩, rfl⟩
  | cons x items =>
    rw [if_neg (List.cons_ne_nil x items)]
    simp only [dispatch]
    refine .bind (meets_get ?_)
    rw [hbench]
    refine .bind (meets_set (meets_pure ⟨⟨⟨p', rfl, hflows', hprocessing'⟩, ?_⟩, rfl⟩))
    show Lane.Executor.bench ⟨[(p'.lane, 0)], p'.lane :: ds⟩ = _
    rw [hflows'.lane_eq]
    rfl

/-- The drain task takes its turn: what the visits of its batch keep is kept. -/
theorem Attended.drain (h : Attended lane bulk held true items ds s) (hne : items ≠ []) (fuel : Nat)
    {R : List Item → List Note → Prop}
    (hvisits : ∀ s₁, Attended lane bulk held true (items.drop bulk) ds s₁ → s₁.notes = s.notes →
      Meets E ((items.take bulk).forM (visit (fuel + 1))) s₁ fun _ s₂ =>
        ∃ left, Attended lane bulk held true left ds s₂ ∧ R left s₂.notes) :
    Meets E (drain (fuel + 2) 0) s fun _ s' =>
      ∃ left, Attended lane bulk held false left (if left = [] then ds else lane :: ds) s' ∧
        R left s'.notes := by
  obtain ⟨⟨p, hpipes, hflows, hprocessing⟩, hbench⟩ := h
  obtain ⟨p', hbegin, hflows', hprocessing'⟩ := hflows.beginDrain hne
  simp only [Session.drain]
  refine .bind (meets_onPipe hpipes (fun _ => ?_) fun h => absurd rfl h)
  dsimp only
  rw [hbegin]
  have hbatch := hvisits { s with pipes := #[⟨p', held⟩] }
    ⟨⟨p', rfl, hflows', hprocessing'.trans hprocessing⟩, hbench⟩ rfl
  refine .bind ((meets_tryCatch hbatch fun panic s' hpanic => ?_).mono fun _ s₂ h₂ => ?_)
  · exact .bind (meets_onPipe_trivial.mono fun _ _ _ => meets_throw hpanic)
  · obtain ⟨left, hleft, hR⟩ := h₂
    refine (hleft.endDrain fuel).mono fun _ s' h' => ⟨left, h'.1, ?_⟩
    rw [h'.2]
    exact hR

/-- The next task on the bench is the drain task, if there is one. -/
theorem Attended.runNext (h : Attended lane bulk held false items ds s) (hne : items ≠ [])
    {R : List Item → List Note → Prop}
    (hvisits : ∀ fuel s₁, Attended lane bulk held true (items.drop bulk) ds s₁ → s₁.notes = s.notes →
      Meets E ((items.take bulk).forM (visit (fuel + 4))) s₁ fun _ s₂ =>
        ∃ left, Attended lane bulk held true left ds s₂ ∧ R left s₂.notes) :
    Meets E runNext s fun ran s' => ran = true ∧
      ∃ left, Attended lane bulk held false left (if left = [] then ds else lane :: ds) s' ∧
        R left s'.notes := by
  obtain ⟨⟨p, hpipes, hflows, hprocessing⟩, hbench⟩ := h
  have hnext : s.executor.next = some (0, .bench ⟨[], ds⟩) := by
    rw [hbench, List.isEmpty_eq_false_iff.2 hne]
    rfl
  simp only [Session.runNext]
  refine .bind (meets_get ?_)
  rw [hnext]
  simp only [runTaken]
  refine .bind (meets_get (.bind (meets_set ?_)))
  rw [fuel_eq]
  have hwork : Attended lane bulk held true items ds { s with executor := .bench ⟨[], ds⟩ } := by
    refine ⟨⟨p, hpipes, hflows, ?_⟩, rfl⟩
    rw [hprocessing, List.isEmpty_eq_false_iff.2 hne]
    rfl
  have hturn := hwork.drain hne _ (hvisits (8 * s.load + 3))
  exact .bind (hturn.mono fun _ s' h' => meets_pure ⟨rfl, h'⟩)

theorem Attended.runNext_nil (h : Attended lane bulk held false [] ds s) :
    Meets E Session.runNext s fun ran s' => ran = false ∧ s' = s := by
  simp only [Session.runNext]
  refine .bind (meets_get ?_)
  rw [h.executor]
  exact meets_pure ⟨rfl, rfl⟩

/-- **Running until idle** is turn after turn: what each keeps is kept, to the last. -/
theorem Attended.runUntilIdle {J : List Item → List Note → List Lane.Token → Nat → Prop}
    {m : List Item → Nat}
    (hvisits : ∀ items notes ds n, items ≠ [] → J items notes ds n → ∀ fuel s₁,
      Attended lane bulk held true (items.drop bulk) ds s₁ → s₁.notes = notes →
      Meets E ((items.take bulk).forM (visit (fuel + 4))) s₁ fun _ s₂ =>
        ∃ left, Attended lane bulk held true left ds s₂ ∧ m left < m items ∧
          J left s₂.notes (if left = [] then ds else lane :: ds) (n + 1))
    {n fuel : Nat} (h : Attended lane bulk held false items ds s) (hJ : J items s.notes ds n)
    (hfuel : m items < fuel) :
    Meets E (runUntilIdle fuel n) s fun n' s' =>
      ∃ ds', Attended lane bulk held false [] ds' s' ∧ J [] s'.notes ds' n' := by
  induction fuel generalizing s items ds n with
  | zero => exact absurd hfuel (Nat.not_lt_zero _)
  | succ fuel ih =>
    simp only [Session.runUntilIdle]
    by_cases hne : items = []
    · subst hne
      refine .bind (h.runNext_nil.mono fun ran s' h' => ?_)
      obtain ⟨rfl, rfl⟩ := h'
      exact meets_pure ⟨ds, h, hJ⟩
    · have hturn := h.runNext hne (R := fun left notes => m left < m items ∧
        J left notes (if left = [] then ds else lane :: ds) (n + 1)) (hvisits items s.notes ds n hne hJ)
      refine .bind (hturn.mono fun ran s' h' => ?_)
      obtain ⟨rfl, left, hleft, hless, hJ'⟩ := h'
      exact ih hleft hJ' (by omega)

end

/-! ## Visitors that call nothing -/

end Session

/-- Whether the visit of the item calls nothing, and does not panic. -/
def Item.silent : Item → Bool
  | .mk _ [] none => true
  | .mk _ _ _ => false

/-- The turns that it takes to hand `n` items over, `bulk` at a time. -/
def turnsFor (bulk n : Nat) : Nat := (n + bulk - 1) / bulk

theorem turnsFor_drop {bulk : Nat} (hbulk : 0 < bulk) {items : List α} (hne : items ≠ []) :
    turnsFor bulk items.length = turnsFor bulk (items.drop bulk).length + 1 := by
  have hpos := List.length_pos_iff.2 hne
  unfold turnsFor
  rw [List.length_drop]
  by_cases hle : items.length ≤ bulk
  · have hlast : items.length + bulk - 1 = items.length - 1 + bulk := by omega
    rw [hlast, Nat.add_div_right _ hbulk, Nat.div_eq_of_lt (by omega), Nat.sub_eq_zero_of_le hle,
      Nat.div_eq_of_lt (by omega)]
  · have hmore : items.length + bulk - 1 = items.length - bulk + bulk - 1 + bulk := by omega
    rw [hmore, Nat.add_div_right _ hbulk]

/-- Items are left after so many turns as do not hand them all over. -/
theorem lt_turnsFor_iff {bulk n k : Nat} (hbulk : 0 < bulk) : k < turnsFor bulk n ↔ k * bulk < n := by
  have hiff : k < turnsFor bulk n ↔ (k + 1) * bulk ≤ n + bulk - 1 := Nat.le_div_iff_mul_le hbulk
  rw [hiff, Nat.succ_mul]
  omega

theorem turnsFor_zero {bulk : Nat} (hbulk : 0 < bulk) : turnsFor bulk 0 = 0 :=
  Nat.div_eq_of_lt (by omega)

namespace Session

open Run (Meets)

section

variable {E : Panic → Prop} {lane : Lane.Token} {bulk : Nat} {held : Bool} {items batch : List Item}
  {ds : List Lane.Token} {s : Session}

/-- A batch whose visits call nothing is visited, item after item. -/
theorem Attended.visits_silent (h : Attended lane bulk held true items ds s)
    (hsilent : ∀ x ∈ batch, x.silent = true) (fuel : Nat) :
    Meets E (batch.forM (visit (fuel + 4))) s fun _ s' => Attended lane bulk held true items ds s' ∧
      s'.notes.reverse = s.notes.reverse ++ batch.map fun x => .visited x.id := by
  refine (meets_forM (I := fun rest s' => ∃ done, batch = done ++ rest ∧
    Attended lane bulk held true items ds s' ∧
    s'.notes.reverse = s.notes.reverse ++ done.map fun x => .visited x.id) ?_ ?_).mono ?_
  · rintro x rest s₁ ⟨done, rfl, h₁, hnotes⟩
    have hx : x.silent = true := hsilent x (List.mem_append_right _ List.mem_cons_self)
    unfold Item.silent at hx
    split at hx
    swap
    · cases hx
    simp only [visit]
    refine .bind ((h₁.write _).mono fun _ s₂ h₂ => ?_)
    obtain ⟨h₂, hwritten⟩ := h₂
    refine meets_pure ⟨done ++ [_], (List.append_assoc done [_] rest).symm, h₂, ?_⟩
    rw [hwritten, List.reverse_cons, hnotes, List.append_assoc, List.map_append]
    rfl
  · exact ⟨[], rfl, h, (List.append_nil _).symm⟩
  · rintro _ s' ⟨done, hdone, h', hnotes⟩
    rw [List.append_nil] at hdone
    exact ⟨h', hdone ▸ hnotes⟩

/-- One turn after another hands all items over. -/
theorem Attended.runUntilIdle_silent (h : Attended lane bulk held false items ds s) (hbulk : 0 < bulk)
    (hsilent : ∀ x ∈ items, x.silent = true) {fuel : Nat} (hfuel : items.length < fuel) :
    Meets E (Session.runUntilIdle fuel 0) s fun n s' => n = turnsFor bulk items.length ∧
      Attended lane bulk held false [] (List.replicate (turnsFor bulk items.length - 1) lane ++ ds) s' ∧
      s'.notes.reverse = s.notes.reverse ++ items.map fun x => .visited x.id := by
  have hloop := h.runUntilIdle (E := E) (n := 0) (m := List.length) (J := fun left notes ds' n =>
    n + turnsFor bulk left.length = turnsFor bulk items.length ∧ (∀ x ∈ left, x.silent = true) ∧
    List.replicate (turnsFor bulk left.length - 1) lane ++ ds' =
      List.replicate (turnsFor bulk items.length - 1) lane ++ ds ∧
    (notes.reverse ++ left.map fun x => .visited x.id) =
      s.notes.reverse ++ items.map fun x => .visited x.id) ?_ ⟨Nat.zero_add _, hsilent, rfl, rfl⟩ hfuel
  · refine hloop.mono fun n s' h' => ?_
    obtain ⟨ds', hidle, hcount, -, hds, hnotes⟩ := h'
    rw [List.length_nil, turnsFor_zero hbulk] at hcount hds
    rw [List.map_nil, List.append_nil] at hnotes
    rw [← hds]
    exact ⟨hcount, hidle, hnotes⟩
  · intro left notes ds' n hne hJ fuel s₁ h₁ hs₁
    obtain ⟨hcount, hleft, hds, hnotes⟩ := hJ
    have hturn := turnsFor_drop hbulk hne
    refine (h₁.visits_silent (fun x hx => hleft x (List.mem_of_mem_take hx)) fuel).mono fun _ s₂ h₂ => ?_
    obtain ⟨h₂, hs₂⟩ := h₂
    refine ⟨_, h₂, ?_, by omega, fun x hx => hleft x (List.mem_of_mem_drop hx), ?_, ?_⟩
    · have hpos := List.length_pos_iff.2 hne
      rw [List.length_drop]
      omega
    · rw [← hds, hturn, Nat.add_sub_cancel]
      by_cases hlast : left.drop bulk = []
      · rw [if_pos hlast, hlast, List.length_nil, turnsFor_zero hbulk]
      · rw [if_neg hlast, turnsFor_drop hbulk hlast, Nat.add_sub_cancel, List.replicate_succ']
        exact List.append_cons _ lane ds'
    · rw [hs₂, hs₁, List.append_assoc, ← List.map_append, List.take_append_drop]
      exact hnotes

end

end Session

/-! ## Visitors that offer items -/

mutual

/-- Whether the visit of the item offers items like it, and does nothing else. -/
def Item.feeds : Item → Bool
  | .mk _ calls failure => Call.allOffer calls && failure.isNone

def Item.allFeed : List Item → Bool
  | [] => true
  | x :: xs => x.feeds && Item.allFeed xs

/-- Whether the call offers such items. -/
def Call.offers : Call → Bool
  | .enqueue p items => p == 0 && Item.allFeed items
  | _ => false

def Call.allOffer : List Call → Bool
  | [] => true
  | c :: cs => c.offers && Call.allOffer cs

end

theorem Item.allFeed_iff {items : List Item} : Item.allFeed items = true ↔ ∀ x ∈ items, x.feeds = true := by
  induction items with
  | nil => exact ⟨fun _ _ hx => absurd hx List.not_mem_nil, fun _ => rfl⟩
  | cons x items ih => rw [Item.allFeed, Bool.and_eq_true, ih, List.forall_mem_cons]

theorem Call.allOffer_iff {calls : List Call} :
    Call.allOffer calls = true ↔ ∀ c ∈ calls, c.offers = true := by
  induction calls with
  | nil => exact ⟨fun _ _ hc => absurd hc List.not_mem_nil, fun _ => rfl⟩
  | cons c calls ih => rw [Call.allOffer, Bool.and_eq_true, ih, List.forall_mem_cons]

theorem Call.of_offers {c : Call} (h : c.offers = true) :
    ∃ items, c = .enqueue 0 items ∧ ∀ x ∈ items, x.feeds = true := by
  cases c with
  | enqueue p items =>
    rw [Call.offers, Bool.and_eq_true, beq_iff_eq, Item.allFeed_iff] at h
    obtain ⟨rfl, hfeeds⟩ := h
    exact ⟨items, rfl, hfeeds⟩
  | _ => cases h

theorem Item.of_feeds {id : Nat} {calls : List Call} {failure : Option String}
    (h : (Item.mk id calls failure).feeds = true) : failure = none ∧ ∀ c ∈ calls, c.offers = true := by
  rw [Item.feeds, Bool.and_eq_true, Call.allOffer_iff, Option.isNone_iff_eq_none] at h
  exact h.symm

theorem Item.weights_append (xs ys : List Item) :
    Item.weights (xs ++ ys) = Item.weights xs + Item.weights ys := by
  induction xs with
  | nil => rw [List.nil_append, Item.weights, Nat.zero_add]
  | cons x xs ih => rw [List.cons_append, Item.weights, Item.weights, ih, Nat.add_assoc]

/-- The number of the item whose visit was written down. -/
def Note.visited? : Note → Option Nat
  | .visited id => some id
  | .nested _ _ => none

/-- The items that were accepted, by the answer to a call that was written down. -/
def Note.accepted : Note → List Item
  | .nested (.enqueue _ items) (.flags flags) => ((items.zip flags).filter (·.2)).map (·.1)
  | _ => []

/-- What was written down between `notes` and `notes'`, each the latest first: visits of the items with
the numbers `ids`, and calls that accepted the items `taken`. -/
def Wrote (notes notes' : List Note) (ids : List Nat) (taken : List Item) : Prop :=
  ∃ new, notes' = new ++ notes ∧ new.reverse.filterMap Note.visited? = ids ∧
    new.reverse.flatMap Note.accepted = taken

theorem wrote_nil (notes : List Note) : Wrote notes notes [] [] := ⟨[], rfl, rfl, rfl⟩

theorem wrote_visited (notes : List Note) (id : Nat) : Wrote notes (.visited id :: notes) [id] [] :=
  ⟨[.visited id], rfl, rfl, rfl⟩

theorem wrote_nested (notes : List Note) (c : Call) (answer : Answer) :
    Wrote notes (.nested c answer :: notes) [] (Note.accepted (.nested c answer)) :=
  ⟨[.nested c answer], rfl, rfl, List.append_nil _⟩

theorem Wrote.trans {notes notes' notes'' : List Note} {ids ids' : List Nat} {taken taken' : List Item}
    (h : Wrote notes notes' ids taken) (h' : Wrote notes' notes'' ids' taken') :
    Wrote notes notes'' (ids ++ ids') (taken ++ taken') := by
  obtain ⟨new, rfl, rfl, rfl⟩ := h
  obtain ⟨new', rfl, rfl, rfl⟩ := h'
  refine ⟨new' ++ new, (List.append_assoc new' new notes).symm, ?_, ?_⟩
  · rw [List.reverse_append, List.filterMap_append]
  · rw [List.reverse_append, List.flatMap_append]

theorem accepted_all (p : Nat) (items : List Item) :
    Note.accepted (.nested (.enqueue p items) (.flags (items.map fun _ => true))) = items := by
  induction items with
  | nil => rfl
  | cons x items ih => exact congrArg (x :: ·) ih

namespace Session

open Run (Meets)

section

variable {E : Panic → Prop} {lane : Lane.Token} {bulk : Nat} {held : Bool} {items batch : List Item}
  {ds : List Lane.Token} {s : Session}

/-- An item is accepted if there is memory for it. -/
theorem Attended.offer (h : Attended lane bulk held true items ds s) (hcapacity : E .capacityOverflow)
    (hsum : E .sumOverflow) (fuel : Nat) (x : Item) :
    Meets E (offer (fuel + 1) 0 x) s fun ok s' => ok = true ∧
      Attended lane bulk held true (items ++ [x]) ds s' ∧ s'.notes = s.notes := by
  obtain ⟨⟨p, hpipes, hflows, hprocessing⟩, hbench⟩ := h
  obtain ⟨p', henqueue, hflows', hprocessing'⟩ := hflows.enqueue hprocessing x
  simp only [Session.offer]
  refine .bind (meets_onPipe hpipes (fun _ => ?_) fun h => absurd rfl h)
  cases hmemory : p.queue.reserveSlot slotSize with
  | error panic =>
    rcases Queue.of_reserveSlot_error hmemory with rfl | rfl
    · exact meets_throw hcapacity
    · exact meets_throw hsum
  | ok u =>
    refine .bind (meets_pure (.bind (meets_onPipe rfl (fun _ => ?_) fun h => absurd rfl h)))
    dsimp only
    rw [henqueue]
    exact meets_pure ⟨rfl, ⟨⟨p', rfl, hflows', hprocessing'⟩, hbench⟩, rfl⟩

/-- All items of an offer are accepted, if the handle is held. -/
theorem Attended.call (h : Attended lane bulk held true items ds s) (hcapacity : E .capacityOverflow)
    (hsum : E .sumOverflow) (fuel : Nat) {c : Call} (hc : c.offers = true) :
    Meets E (call (fuel + 2) c) s fun answer s' => ∃ taken,
      Attended lane bulk held true (items ++ taken) ds s' ∧ s'.notes = s.notes ∧
      Note.accepted (.nested c answer) = taken ∧ (∀ x ∈ taken, x.feeds = true) ∧
      Item.weights taken < c.weight := by
  obtain ⟨offered, rfl, hfeeds⟩ := Call.of_offers hc
  obtain ⟨p, hpipes, -, -⟩ := h.pipes
  simp only [Session.call, Call.pipe]
  refine .bind (meets_holds hpipes (fun _ => ?_) fun h => absurd rfl h)
  cases held with
  | false =>
    refine meets_pure ⟨[], ?_, rfl, rfl, fun _ hx => absurd hx List.not_mem_nil, ?_⟩
    · rw [List.append_nil]
      exact h
    · rw [Item.weights, Call.weight]
      exact Nat.lt_of_lt_of_le Nat.zero_lt_one (Nat.le_add_right 1 _)
  | true =>
    refine .bind ((meets_mapM (I := fun oks rest s' => ∃ done, offered = done ++ rest ∧
      oks = (done.map fun _ => true) ∧ Attended lane bulk true true (items ++ done) ds s' ∧
      s'.notes = s.notes) ?_ ?_).mono ?_)
    · rintro oks x rest s₁ ⟨done, rfl, rfl, h₁, hnotes⟩
      refine (h₁.offer hcapacity hsum fuel x).mono fun ok s₂ h₂ => ?_
      obtain ⟨rfl, h₂, hsame⟩ := h₂
      refine ⟨done ++ [x], (List.append_assoc done [x] rest).symm, ?_, ?_, hsame.trans hnotes⟩
      · rw [List.map_append]
        rfl
      · rw [← List.append_assoc]
        exact h₂
    · exact ⟨[], rfl, rfl, by rw [List.append_nil]; exact h, rfl⟩
    · rintro oks s₁ ⟨done, hdone, rfl, h₁, hnotes⟩
      rw [List.append_nil] at hdone
      subst hdone
      refine meets_pure ⟨offered, h₁, hnotes, accepted_all 0 offered, hfeeds, ?_⟩
      rw [Call.weight]
      exact Nat.lt_add_of_pos_left Nat.one_pos

/-- A visit: what it offers waits behind the others. -/
theorem Attended.visit (h : Attended lane bulk held true items ds s) (hcapacity : E .capacityOverflow)
    (hsum : E .sumOverflow) (fuel : Nat) {x : Item} (hx : x.feeds = true) :
    Meets E (visit (fuel + 3) x) s fun _ s' => ∃ taken,
      Attended lane bulk held true (items ++ taken) ds s' ∧ Wrote s.notes s'.notes [x.id] taken ∧
      (∀ y ∈ taken, y.feeds = true) ∧ Item.weights taken + 1 ≤ x.weight := by
  obtain ⟨id, calls, failure⟩ := x
  obtain ⟨rfl, hoffers⟩ := Item.of_feeds hx
  simp only [Session.visit]
  refine .bind ((h.write _).mono fun _ s₁ h₁ => .bind ((meets_forM (I := fun rest s' => ∃ taken,
    (∀ c ∈ rest, c.offers = true) ∧ Attended lane bulk held true (items ++ taken) ds s' ∧
    Wrote s.notes s'.notes [id] taken ∧ (∀ y ∈ taken, y.feeds = true) ∧
    Item.weights taken + Call.weights rest ≤ Call.weights calls) ?_ ?_).mono ?_))
  · rintro c rest s₂ ⟨taken, hrest, h₂, hwrote, hfeeds, hweights⟩
    have hcall := h₂.call hcapacity hsum fuel (hrest c List.mem_cons_self)
    refine .bind (hcall.mono fun answer s₃ h₃ => ?_)
    obtain ⟨more, h₃, hsame, haccepted, hmore, hless⟩ := h₃
    refine (h₃.write _).mono fun _ s₄ h₄ => ?_
    obtain ⟨h₄, hwritten⟩ := h₄
    refine ⟨taken ++ more, fun c hc => hrest c (List.mem_cons_of_mem _ hc), ?_, ?_, ?_, ?_⟩
    · rw [← List.append_assoc]
      exact h₄
    · rw [hwritten, ← haccepted, hsame]
      exact hwrote.trans (wrote_nested s₂.notes c answer)
    · exact List.forall_mem_append.2 ⟨hfeeds, hmore⟩
    · rw [Call.weights] at hweights
      rw [Item.weights_append]
      omega
  · refine ⟨[], hoffers, ?_, ?_, fun _ hy => absurd hy List.not_mem_nil, ?_⟩
    · rw [List.append_nil]
      exact h₁.1
    · rw [h₁.2]
      exact wrote_visited s.notes id
    · exact Nat.le_of_eq (Nat.zero_add _)
  · rintro _ s₂ ⟨taken, -, h₂, hwrote, hfeeds, hweights⟩
    refine meets_pure ⟨taken, h₂, hwrote, hfeeds, ?_⟩
    rw [Call.weights] at hweights
    rw [Item.weight]
    omega

/-- The visits of a batch. -/
theorem Attended.visits (h : Attended lane bulk held true items ds s) (hcapacity : E .capacityOverflow)
    (hsum : E .sumOverflow) (fuel : Nat) (hbatch : ∀ x ∈ batch, x.feeds = true) :
    Meets E (batch.forM (Session.visit (fuel + 3))) s fun _ s' => ∃ taken,
      Attended lane bulk held true (items ++ taken) ds s' ∧
      Wrote s.notes s'.notes (batch.map Item.id) taken ∧ (∀ y ∈ taken, y.feeds = true) ∧
      Item.weights taken + batch.length ≤ Item.weights batch := by
  refine (meets_forM (I := fun rest s' => ∃ done taken, batch = done ++ rest ∧
    Attended lane bulk held true (items ++ taken) ds s' ∧
    Wrote s.notes s'.notes (done.map Item.id) taken ∧ (∀ y ∈ taken, y.feeds = true) ∧
    Item.weights taken + done.length ≤ Item.weights done) ?_ ?_).mono ?_
  · rintro x rest s₁ ⟨done, taken, rfl, h₁, hwrote, hfeeds, hweights⟩
    have hx : x.feeds = true := hbatch x (List.mem_append_right _ List.mem_cons_self)
    refine (h₁.visit hcapacity hsum fuel hx).mono fun _ s₂ h₂ => ?_
    obtain ⟨more, h₂, hwrote', hmore, hless⟩ := h₂
    refine ⟨done ++ [x], taken ++ more, (List.append_assoc done [x] rest).symm, ?_, ?_, ?_, ?_⟩
    · rw [← List.append_assoc]
      exact h₂
    · rw [List.map_append]
      exact hwrote.trans hwrote'
    · exact List.forall_mem_append.2 ⟨hfeeds, hmore⟩
    · rw [Item.weights_append, Item.weights_append, List.length_append, List.length_singleton,
        Item.weights, Item.weights]
      omega
  · exact ⟨[], [], rfl, by rw [List.append_nil]; exact h, wrote_nil s.notes,
      fun _ hy => absurd hy List.not_mem_nil, Nat.le_refl _⟩
  · rintro _ s₁ ⟨done, taken, hdone, h₁, hwrote, hfeeds, hweights⟩
    rw [List.append_nil] at hdone
    subst hdone
    exact ⟨taken, h₁, hwrote, hfeeds, hweights⟩

/-- Turn after turn hands over all that waited and all that was accepted since, in order. -/
theorem Attended.runUntilIdle_feeds (h : Attended lane bulk held false items ds s)
    (hcapacity : E .capacityOverflow) (hsum : E .sumOverflow) (hbulk : 0 < bulk)
    (hfeeds : ∀ x ∈ items, x.feeds = true) {fuel : Nat} (hfuel : Item.weights items < fuel) :
    Meets E (Session.runUntilIdle fuel 0) s fun _ s' => ∃ ids taken ds',
      Attended lane bulk held false [] ds' s' ∧ Wrote s.notes s'.notes ids taken ∧
      ids = (items ++ taken).map Item.id := by
  have hloop := h.runUntilIdle (E := E) (n := 0) (m := Item.weights) (J := fun left notes _ _ =>
    (∀ x ∈ left, x.feeds = true) ∧ ∃ ids taken, Wrote s.notes notes ids taken ∧
      ids ++ left.map Item.id = (items ++ taken).map Item.id) ?_
    ⟨hfeeds, [], [], wrote_nil s.notes, by rw [List.append_nil, List.nil_append]⟩ hfuel
  · refine hloop.mono fun n s' h' => ?_
    obtain ⟨ds', hidle, -, ids, taken, hwrote, hids⟩ := h'
    rw [List.map_nil, List.append_nil] at hids
    exact ⟨ids, taken, ds', hidle, hwrote, hids⟩
  · rintro left notes ds' n hne ⟨hleft, ids, taken, hwrote, hids⟩ fuel s₁ h₁ hs₁
    have hbatch : ∀ x ∈ left.take bulk, x.feeds = true := fun x hx => hleft x (List.mem_of_mem_take hx)
    refine (h₁.visits hcapacity hsum (fuel + 1) hbatch).mono fun _ s₂ h₂ => ?_
    obtain ⟨more, h₂, hwrote', hmore, hweights⟩ := h₂
    refine ⟨_, h₂, ?_, ?_, ids ++ (left.take bulk).map Item.id, taken ++ more, ?_, ?_⟩
    · have hpos : 0 < (left.take bulk).length :=
        List.length_pos_iff.2 fun hnil => (List.take_eq_nil_iff.1 hnil).elim (Nat.ne_of_gt hbulk) hne
      have hsplit := Item.weights_append (left.take bulk) (left.drop bulk)
      rw [List.take_append_drop] at hsplit
      rw [Item.weights_append]
      omega
    · exact List.forall_mem_append.2 ⟨fun x hx => hleft x (List.mem_of_mem_drop hx), hmore⟩
    · rw [hs₁] at hwrote'
      exact hwrote.trans hwrote'
    · rw [List.map_append, List.append_assoc, ← List.append_assoc (List.map Item.id (left.take bulk)),
        ← List.map_append, List.take_append_drop, ← List.append_assoc, hids, ← List.map_append,
        List.append_assoc]

end

/-! ## What callers see -/

section

variable {lane : Lane.Token} {settings : Settings} {started : Bool} {p : Pipeline Item} {bulk : Nat}
  {held : Bool} {items : List Item} {ds : List Lane.Token} {s : Session}

/-- What waits in a pipeline that is open and runs has a task on the bench, if nothing panicked. -/
theorem Moved.attended {keep : Item → Except Panic Bool}
    (h : Moved (opened lane settings started keep) [] 0 s) (hp : s.pipes = #[⟨p, held⟩])
    (hopen : p.queue.closed = false) (hstarted : p.queue.started = true) (hne : p.queue.pending ≠ []) :
    ∃ ds, Attended lane settings.bulkSize held false p.queue.pending ds s := by
  obtain ⟨moves, hpanics, ⟨held', hpipes⟩, hdue, n, htasks, hbench⟩ := h
  have hm := Drainage.manned_run slotSize lane settings started keep moves
  have hsteady := Drainage.steady_run slotSize lane settings started keep hpanics
  have hbulk := Drainage.bulkSize_run slotSize lane settings started keep moves
  generalize Drainage.run slotSize (opened lane settings started keep) moves = w at *
  cases hp.symm.trans hpipes
  obtain ⟨pending, hlists, -⟩ := hsteady.whole
  have hpending := hlists.pending_eq
  rw [hpending] at hne ⊢
  have hempty : w.pipeline.queue.isEmpty = false := by
    rw [hlists.isEmpty_eq]
    exact List.isEmpty_eq_false_iff.2 hne
  have hprocessing := hsteady.attended hopen hstarted hempty
  have hexact := hm.exact hopen
  rw [hdue, htasks, hprocessing, List.nil_append, List.length_replicate, Nat.zero_add] at hexact
  subst hexact
  refine ⟨w.dispatched.reverse, ⟨w.pipeline, hpipes, ⟨hlists, hopen, hstarted, ?_, hbulk, hm.lane_eq⟩, ?_⟩, ?_⟩
  · refine eq_false_of_ne_true fun hcancelled => ?_
    cases hopen.symm.trans (hm.cancelled hcancelled)
  · rw [hprocessing, List.isEmpty_eq_false_iff.2 hne]
    rfl
  · rw [hbench, hm.lane_eq, List.isEmpty_eq_false_iff.2 hne]
    rfl

/-- The session after so many turns, each by a command of its own. -/
def turns (s : Session) : Nat → Session
  | 0 => s
  | k + 1 => ((s.turns k).command .runNext).1

/-- A turn hands over a batch whose visits call nothing. -/
theorem Attended.turn (h : Attended lane bulk held false items ds s) (hsilent : ∀ x ∈ items, x.silent = true)
    (hne : items ≠ []) : ∃ s' ds', s.command .runNext = (s', .ok (.flag true)) ∧
      Attended lane bulk held false (items.drop bulk) ds' s' ∧
      s'.notes.reverse = (items.take bulk).map fun x => .visited x.id := by
  have hbatch : ∀ x ∈ items.take bulk, x.silent = true := fun x hx => hsilent x (List.mem_of_mem_take hx)
  have hturn := (h.notes [] s.noteCount).runNext (E := fun _ => False) hne
    (R := fun left notes => left = items.drop bulk ∧
      notes.reverse = (items.take bulk).map fun x => .visited x.id) fun fuel s₁ h₁ hs₁ =>
    (h₁.visits_silent hbatch fuel).mono fun _ s₂ h₂ => ⟨_, h₂.1, rfl, by rw [h₂.2, hs₁]; rfl⟩
  rcases hc : s.command .runNext with ⟨s', result⟩
  have hperform : Meets (fun _ => False) (perform .runNext) { s with notes := [] } fun answer s' =>
      answer = .flag true ∧ ∃ ds', Attended lane bulk held false (items.drop bulk) ds' s' ∧
        s'.notes.reverse = (items.take bulk).map fun x => .visited x.id := by
    refine .bind (hturn.mono fun ran s' h' => ?_)
    obtain ⟨rfl, left, hleft, rfl, hnotes⟩ := h'
    exact meets_pure ⟨rfl, _, hleft, hnotes⟩
  obtain ⟨answer, rfl, rfl, ds', hleft, hnotes⟩ | ⟨panic, -, hpanic⟩ := command_of_meets hperform hc
  · exact ⟨s', ds', rfl, hleft, hnotes⟩
  · exact hpanic.elim

/-- Turn `k` finds what the turns before it left. -/
theorem Attended.turns (h : Attended lane bulk held false items ds s) (hsilent : ∀ x ∈ items, x.silent = true)
    {k : Nat} (hk : k * bulk < items.length) :
    ∃ ds', Attended lane bulk held false (items.drop (k * bulk)) ds' (s.turns k) := by
  induction k with
  | zero =>
    rw [Nat.zero_mul]
    exact ⟨ds, h⟩
  | succ k ih =>
    rw [Nat.succ_mul] at hk ⊢
    obtain ⟨ds', h'⟩ := ih (by omega)
    have hne : items.drop (k * bulk) ≠ [] := by
      rw [ne_eq, List.drop_eq_nil_iff]
      omega
    obtain ⟨s', ds'', hturn, hnext, -⟩ := h'.turn (fun x hx => hsilent x (List.mem_of_mem_drop hx)) hne
    rw [List.drop_drop] at hnext
    refine ⟨ds'', ?_⟩
    show Attended lane bulk held false _ ds'' ((s.turns k).command .runNext).1
    rw [hturn]
    exact hnext

theorem Attended.le_load (h : Attended lane bulk held atWork items ds s) :
    items.length + Item.weights items ≤ s.load := by
  obtain ⟨p, hpipes, hflows, -⟩ := h.pipes
  unfold load
  rw [hpipes]
  show _ ≤ _ + (p.queue.len + Item.weights p.queue.pending + 0)
  rw [hflows.lists.len_eq, hflows.lists.pending_eq]
  omega

/-- Nothing is left to do. -/
theorem Attended.idle (h : Attended lane bulk held false [] ds s) :
    s.executor.parkedCount = 0 ∧ ∃ p, s.pipes = #[⟨p, held⟩] ∧ p.queue.pending = [] ∧ p.queue.len = 0 ∧
      p.queue.processing = false := by
  obtain ⟨⟨p, hpipes, hflows, hprocessing⟩, hbench⟩ := h
  constructor
  · rw [hbench]
    rfl
  · exact ⟨p, hpipes, hflows.lists.pending_eq, hflows.lists.len_eq, hprocessing⟩

/-- A session in which a test of its pipeline holds. -/
theorem exists_follow {keep : Nat → Except Panic Bool} {slot : Slot}
    (hslot : Slot.tryNew lane settings started keep = .ok slot) (commands : List Command)
    (test : Session → Pipeline Item → Bool)
    (h : ((alone slot).follow commands).any (fun s => s.pipes.toList.all fun own => test s own.pipeline)
      = true) :
    ∃ s p held, (alone slot).follow commands = some s ∧ s.pipes = #[⟨p, held⟩] ∧ test s p = true := by
  rw [Option.any_eq_true] at h
  obtain ⟨s, hrun, htest⟩ := h
  obtain ⟨moves, -, ⟨held, hp⟩, -⟩ := moved_of_follow hslot hrun
  rw [hp] at htest
  exact ⟨s, _, held, hrun, hp, (List.all_eq_true.1 htest) _ List.mem_cons_self⟩

/-- **Running until idle drains.** Whatever commands led to it, if none panicked: a pipeline that is
alone on a bench, open and running, with items waiting, has one task there. If the visits of these items
call nothing, running until idle takes as many turns as it takes to hand them over, the one that was
asked for already and then one dispatch for each of the others; all items are visited in order, and
nothing is left to do. Turn by turn, each hands the next batch over, and all but the last have the full
size. If visits offer items, and these visits again, running until idle comes to its end unless memory
runs out; then every item that waited or was accepted since was visited, in the order of acceptance. An
item says what its visit offers, so the items of any run that ends are of this kind. -/
theorem run_until_idle_drains {keep : Nat → Except Panic Bool} {slot : Slot}
    (hslot : Slot.tryNew lane settings started keep = .ok slot) {commands : List Command}
    (hrun : (alone slot).follow commands = some s) (hp : s.pipes = #[⟨p, held⟩])
    (hopen : p.queue.closed = false) (hstarted : p.queue.started = true) (hne : p.queue.pending ≠ []) :
    let items := p.queue.pending
    let bulk := settings.bulkSize
    let turns := (items.length + bulk - 1) / bulk
    s.executor.parkedCount = 1 ∧
      ((∀ x ∈ items, x.silent = true) →
        (∃ s' p', s.command .runUntilIdle = (s', .ok (.count turns)) ∧ s'.pipes = #[⟨p', held⟩] ∧
          p'.queue.pending = [] ∧ p'.queue.len = 0 ∧ p'.queue.processing = false ∧
          s'.executor.parkedCount = 0 ∧
          s'.executor.dispatched = s.executor.dispatched ++ List.replicate (turns - 1) lane ∧
          s'.notes.reverse = items.map fun x => .visited x.id) ∧
        ∀ k < turns,
          ((s.turns k).command .runNext).2 = .ok (.flag true) ∧
          (s.turns (k + 1)).notes.reverse =
            ((items.drop (k * bulk)).take bulk).map (fun x => .visited x.id) ∧
          (k + 1 < turns → ((items.drop (k * bulk)).take bulk).length = bulk)) ∧
      ((∀ x ∈ items, x.feeds = true) → ∀ s' result, s.command .runUntilIdle = (s', result) →
        result = .error .capacityOverflow ∨ result = .error .sumOverflow ∨
          ∃ n p', result = .ok (.count n) ∧ s'.pipes = #[⟨p', held⟩] ∧ p'.queue.pending = [] ∧
            p'.queue.len = 0 ∧ p'.queue.processing = false ∧ s'.executor.parkedCount = 0 ∧
            s'.notes.reverse.filterMap Note.visited? =
              (items ++ s'.notes.reverse.flatMap Note.accepted).map Item.id) := by
  intro items bulk turns
  have hmoved := moved_of_follow hslot hrun
  obtain ⟨ds, h⟩ := hmoved.attended hp hopen hstarted hne
  have hbulk : 0 < bulk := settings.bulkSize_pos
  have hparked : s.executor.parkedCount = 1 := by
    rw [h.executor, List.isEmpty_eq_false_iff.2 hne]
    rfl
  have hload := h.le_load
  have hfuel := s.fuel_eq 0
  refine ⟨hparked, fun hsilent => ⟨?_, fun k hk => ?_⟩, fun hfeeds s' result hc => ?_⟩
  · have henough : p.queue.pending.length < s.fuel 0 := by omega
    have hidle := (h.notes [] s.noteCount).runUntilIdle_silent (E := fun _ => False) hbulk hsilent henough
    have hperform : Meets (fun _ => False) (perform .runUntilIdle) { s with notes := [] } fun answer s' =>
        answer = .count turns ∧
        Attended lane bulk held false [] (List.replicate (turns - 1) lane ++ ds) s' ∧
        s'.notes.reverse = items.map fun x => .visited x.id := by
      refine .bind (meets_get (.bind (hidle.mono fun n s' h' => ?_)))
      obtain ⟨rfl, hend, hnotes⟩ := h'
      exact meets_pure ⟨rfl, hend, hnotes⟩
    rcases hc : s.command .runUntilIdle with ⟨s', result⟩
    obtain ⟨answer, rfl, rfl, hend, hnotes⟩ | ⟨panic, -, hpanic⟩ := command_of_meets hperform hc
    · obtain ⟨hparked', p', hpipes', hpending', hlen', hprocessing'⟩ := hend.idle
      refine ⟨s', p', rfl, hpipes', hpending', hlen', hprocessing', hparked', ?_, hnotes⟩
      rw [hend.executor, h.executor]
      show (List.replicate (turns - 1) lane ++ ds).reverse = ds.reverse ++ _
      rw [List.reverse_append, List.reverse_replicate]
    · exact hpanic.elim
  · have hk' := (lt_turnsFor_iff hbulk).1 hk
    have hleft : items.drop (k * bulk) ≠ [] := by
      rw [ne_eq, List.drop_eq_nil_iff]
      exact Nat.not_le.2 hk'
    obtain ⟨ds', hturns⟩ := h.turns hsilent hk'
    obtain ⟨s', ds'', hturn, -, hnotes⟩ := hturns.turn (fun x hx => hsilent x (List.mem_of_mem_drop hx)) hleft
    refine ⟨congrArg Prod.snd hturn, ?_, fun hnext => ?_⟩
    · show (((s.turns k).command .runNext).1).notes.reverse = _
      rw [hturn]
      exact hnotes
    · have hnext' := (lt_turnsFor_iff hbulk).1 hnext
      rw [Nat.succ_mul] at hnext'
      rw [List.length_take, List.length_drop]
      exact Nat.min_eq_left (Nat.le_sub_of_add_le (by rw [Nat.add_comm]; exact Nat.le_of_lt hnext'))
  · have hperform : Meets (fun panic => panic = .capacityOverflow ∨ panic = .sumOverflow)
        (perform .runUntilIdle) { s with notes := [] } fun answer s' => ∃ n ids taken ds',
          answer = .count n ∧ Attended lane bulk held false [] ds' s' ∧ Wrote [] s'.notes ids taken ∧
          ids = (items ++ taken).map Item.id := by
      refine .bind (meets_get (.bind (((h.notes [] s.noteCount).runUntilIdle_feeds (.inl rfl) (.inr rfl)
        hbulk hfeeds ?_).mono fun n s' h' => ?_)))
      · show Item.weights p.queue.pending < s.fuel 0
        omega
      · obtain ⟨ids, taken, ds', hidle, hwrote, hids⟩ := h'
        exact meets_pure ⟨n, ids, taken, ds', rfl, hidle, hwrote, hids⟩
    obtain ⟨answer, rfl, n, ids, taken, ds', rfl, hidle, hwrote, hids⟩ | ⟨panic, rfl, rfl | rfl⟩ :=
      command_of_meets hperform hc
    · obtain ⟨hparked', p', hpipes', hpending', hlen', hprocessing'⟩ := hidle.idle
      obtain ⟨new, hnew, rfl, rfl⟩ := hwrote
      rw [List.append_nil] at hnew
      rw [hnew]
      exact .inr (.inr ⟨n, p', rfl, hpipes', hpending', hlen', hprocessing', hparked', hids⟩)
    · exact .inl rfl
    · exact .inr (.inl rfl)

/-- Ten items, four at a time, take three turns. Two items of which one offers two more, of which one
offers another, take two. -/
theorem run_until_idle_drains_four_at_a_time :
    let settings : Settings := ⟨2, 3, 4, by decide, by decide⟩
    let slot : Slot := ⟨opened ⟨"conn-1"⟩ settings true fun _ => .ok false, true⟩
    let ten : List Item := (List.range 10).map fun i => .mk i [] none
    let feeding : List Item := [.mk 1 [.enqueue 0 [.mk 3 [] none,
      .mk 4 [.enqueue 0 [.mk 5 [] none]] none]] none, .mk 2 [] none]
    (∃ s s', (alone slot).follow [.call (.enqueue 0 ten)] = some s ∧
      s.command .runUntilIdle = (s', .ok (.count 3)) ∧ s'.executor.parkedCount = 0 ∧
      s'.executor.dispatched.length = 3 ∧
      s'.notes.reverse.filterMap Note.visited? = List.range 10) ∧
    ∃ s s' n, (alone slot).follow [.call (.enqueue 0 feeding)] = some s ∧
      s.command .runUntilIdle = (s', .ok (.count n)) ∧ s'.executor.parkedCount = 0 ∧
      s'.notes.reverse.filterMap Note.visited? = [1, 2] ++
        (s'.notes.reverse.flatMap Note.accepted).map Item.id := by
  intro settings slot ten feeding
  have hslot : Slot.tryNew ⟨"conn-1"⟩ settings true (fun _ => .ok false) = .ok slot := by rfl
  constructor
  · obtain ⟨s, p, held, hrun, hp, htest⟩ := exists_follow hslot [.call (.enqueue 0 ten)] (fun s p =>
      !p.queue.closed && p.queue.started && p.queue.pending.all Item.silent &&
      p.queue.pending.map Item.id == List.range 10 && s.executor.dispatched.length == 1) (by decide +kernel)
    simp only [Bool.and_eq_true, Bool.not_eq_true', beq_iff_eq, List.all_eq_true] at htest
    obtain ⟨⟨⟨⟨hopen, hstarted⟩, hsilent⟩, hids⟩, hasked⟩ := htest
    have hlength : p.queue.pending.length = 10 := by rw [← List.length_map, hids, List.length_range]
    have hne : p.queue.pending ≠ [] := List.ne_nil_of_length_pos (by omega)
    obtain ⟨-, hdrains, -⟩ := run_until_idle_drains hslot hrun hp hopen hstarted hne
    obtain ⟨⟨s', p', hidle, -, -, -, -, hparked, hdispatched, hnotes⟩, -⟩ := hdrains hsilent
    have hturns : (10 + settings.bulkSize - 1) / settings.bulkSize = 3 := by decide
    rw [hlength, hturns] at hidle hdispatched
    refine ⟨s, s', hrun, hidle, hparked, ?_, ?_⟩
    · rw [hdispatched, List.length_append, hasked]
      rfl
    · rw [hnotes, ← hids]
      simp [Note.visited?, List.filterMap_map, Function.comp_def]
  · obtain ⟨s, p, held, hrun, hp, htest⟩ := exists_follow hslot [.call (.enqueue 0 feeding)] (fun s p =>
      !p.queue.closed && p.queue.started && p.queue.pending.all Item.feeds &&
      p.queue.pending.map Item.id == [1, 2] && (s.command .runUntilIdle).2.toBool) (by decide +kernel)
    simp only [Bool.and_eq_true, Bool.not_eq_true', beq_iff_eq, List.all_eq_true] at htest
    obtain ⟨⟨⟨⟨hopen, hstarted⟩, hfeeds⟩, hids⟩, hok⟩ := htest
    have hne : p.queue.pending ≠ [] := by
      intro hnil
      rw [hnil] at hids
      cases hids
    obtain ⟨-, -, hdrains⟩ := run_until_idle_drains hslot hrun hp hopen hstarted hne
    rcases hc : s.command .runUntilIdle with ⟨s', result⟩
    rw [hc] at hok
    obtain rfl | rfl | ⟨n, p', rfl, -, -, -, -, hparked, hvisited⟩ := hdrains hfeeds s' result hc
    · cases hok
    · cases hok
    · rw [List.map_append, hids] at hvisited
      exact ⟨s, s', n, hrun, hc, hparked, hvisited⟩

end

end Session

end Pipeline

end ChunkRouter
