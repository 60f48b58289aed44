import ChunkRouter.Proofs.Work.Unwinding

/-!
# Closed queues

What closing does to a queue: nothing else closes it, nothing opens it again, and nothing is done to its ring
any more. `Whole` says that no cell is empty, as in every queue none of whose clearings unwound; of such a
queue closing drops all items, and else those up to the first empty cell.
-/

namespace ChunkRouter.Work.Queue

variable {α : Type} {q : Queue α}

/-! ## Uses that close -/

def Use.closes : Use α → Bool
  | .close => true
  | _ => false

/-- Nothing but closing closes, and nothing opens again. -/
theorem closed_use (q : Queue α) (u : Use α) : (q.use u).closed = (q.closed || u.closes) := by
  cases u with
  | enqueue x =>
    cases hclosed : q.closed
    · rw [use, enqueue_of_open hclosed]
      exact hclosed
    · rw [use, enqueue_of_closed hclosed]
      exact hclosed
  | take => rcases q.take_cases with ⟨htake, -⟩ | ⟨ring, batch, htake, -⟩ <;> simp [use, htake, Use.closes]
  | settle => simp [use, settle_eq, Use.closes]
  | abandon => exact (Bool.or_false _).symm
  | clear keep => exact (congrArg Queue.closed (clear_eq q keep)).trans (Bool.or_false _).symm
  | start => simp [use, start_eq, Use.closes]
  | stop => exact (Bool.or_false _).symm
  | close => exact (congrArg Queue.closed (close_eq q)).trans (Bool.or_true _).symm

/-- A clearing that finds no slots leaves the queue as it is, and drops nothing. -/
theorem clear_of_slotless (h : q.capacity = 0) (keep : α → Except Panic Bool) :
    q.clear keep = (q, if q.len = 0 then .ok 0 else .error .remainderByZero) := by
  rw [clear, retain_of_capacity_eq_zero h, len]
  by_cases hlen : q.ring.len = 0
  · rw [if_pos hlen]
    rfl
  · rw [if_neg hlen]

/-- The ring of a closed queue stays as it was left. -/
theorem ring_use_of_closed (hclosed : q.closed = true) (hslots : q.capacity = 0) (u : Use α) :
    (q.use u).ring = q.ring := by
  cases u with
  | enqueue x => rw [use, enqueue_of_closed hclosed]
  | take =>
    rcases q.take_cases with ⟨htake, -⟩ | ⟨ring, batch, htake, hopen, -⟩
    · rw [use, htake]
    · exact Bool.noConfusion (hopen.symm.trans hclosed)
  | settle => rw [use, settle_eq]
  | abandon => rfl
  | clear keep => rw [use, clear_of_slotless hslots]
  | start => rw [use, start_eq]
  | stop => rfl
  | close => rw [use, close, if_pos hclosed]

/-! ## Queues without empty cells -/

/-- No cell is empty, and a closed queue has none. -/
def Whole (q : Queue α) : Prop := ∃ items, q.Lists items ∧ (q.closed = true → items = [])

theorem whole_new (settings : Settings) (started : Bool) : (new settings started : Queue α).Whole :=
  ⟨[], lists_new settings started, fun _ => rfl⟩

theorem Whole.len_eq (h : q.Whole) : q.len = q.pending.length := by
  obtain ⟨items, hlists, -⟩ := h
  rw [hlists.len_eq, hlists.pending_eq]

theorem Whole.len_of_closed (h : q.Whole) (hclosed : q.closed = true) : q.len = 0 := by
  obtain ⟨items, hlists, hnone⟩ := h
  rw [hlists.len_eq, hnone hclosed, List.length_nil]

/-- Uses that do not touch the ring. -/
theorem Whole.mono (h : q.Whole) {q' : Queue α} (hring : q'.ring = q.ring) (hclosed : q'.closed = q.closed) :
    q'.Whole := by
  obtain ⟨items, hlists, hnone⟩ := h
  refine ⟨items, ?_, hclosed ▸ hnone⟩
  rw [Lists, hring]
  exact hlists

/-- A clearing that comes back leaves no empty cell. -/
theorem Whole.clear (h : q.Whole) {keep : α → Except Panic Bool} {n : Nat}
    (hok : (q.clear keep).2 = .ok n) : (q.clear keep).1.Whole := by
  obtain ⟨items, hlists, hnone⟩ := h
  have hclosed : (q.clear keep).1.closed = q.closed := by rw [clear_eq]
  obtain ⟨ring, kept, ⟨hsift, hretain, hkept⟩ | ⟨panic, _, _, _, -, hretain, -⟩⟩ :=
    Ring.Holds.retain_cases hlists keep
  · have hsub := Ring.sift_sublist keep ((items.map some).filterMap id)
    rw [hsift] at hsub
    have hring : (q.clear keep).1.ring = ring := by
      unfold Queue.clear
      rw [hretain]
    refine ⟨kept, ?_, fun hc => ?_⟩
    · rw [Lists, hring]
      exact hkept
    · rw [hnone (hclosed.symm.trans hc)] at hsub
      exact (List.append_eq_nil_iff.1 (List.sublist_nil.1 hsub)).1
  · unfold Queue.clear at hok
    rw [hretain] at hok
    cases hok

/-- Only clearings that unwind leave empty cells. -/
theorem Whole.use (h : q.Whole) {u : Use α}
    (hkeep : ∀ keep, u = .clear keep → ∃ p : α → Bool, keep = fun x => .ok (p x)) : (q.use u).Whole := by
  have hwhole := h
  obtain ⟨items, hlists, hnone⟩ := h
  cases u with
  | enqueue x =>
    cases hclosed : q.closed with
    | true =>
      rw [Queue.use, enqueue_of_closed hclosed]
      exact hwhole.mono rfl rfl
    | false =>
      refine ⟨items ++ [x], hlists.enqueue hclosed x, fun hclosed' => ?_⟩
      rw [closed_use, hclosed] at hclosed'
      cases hclosed'
  | take =>
    rcases q.take_cases with ⟨htake, -⟩ | ⟨ring, batch, htake, hopen, -⟩
    · rw [Queue.use, htake]
      exact hwhole.mono rfl rfl
    · obtain ⟨rest, -, hrest, -⟩ := hlists.take htake
      rw [Queue.use, htake]
      exact ⟨rest, hrest, fun hclosed => Bool.noConfusion (hopen.symm.trans hclosed)⟩
  | settle =>
    rw [Queue.use, settle_eq]
    exact hwhole.mono rfl rfl
  | abandon => exact hwhole.mono rfl rfl
  | clear keep =>
    obtain ⟨p, rfl⟩ := hkeep keep rfl
    exact hwhole.clear (hlists.clear p).1
  | start =>
    rw [Queue.use, start_eq]
    exact hwhole.mono rfl rfl
  | stop => exact hwhole.mono rfl rfl
  | close => exact ⟨[], (hlists.close hnone).2.1, fun _ => rfl⟩

/-! ## What closing answers -/

/-- Cells are the cells of their items, or have a first empty one. -/
theorem items_or_hole (cells : List (Option α)) :
    cells = (cells.filterMap id).map some ∨ ∃ (items : List α) (rest : List (Option α)),
      cells = items.map some ++ none :: rest := by
  induction cells with
  | nil => exact .inl rfl
  | cons cell cells ih =>
    rcases cell with _ | x
    · exact .inr ⟨[], cells, rfl⟩
    · rcases ih with hitems | ⟨items, rest, rfl⟩
      · exact .inl (congrArg (some x :: ·) hitems)
      · exact .inr ⟨x :: items, rest, rfl⟩

theorem pending_of_slotless (h : q.capacity = 0) : q.pending = [] := by
  have hslots : q.ring.slots = #[] := Array.eq_empty_of_size_eq_zero h
  simp [pending, Ring.toList, Ring.get?, hslots]

/-- Closing answers how many items wait, if as many are counted; otherwise it gives up what is behind
the first empty cell, and goes on counting that. -/
theorem Worn.close_answer (h : q.Worn) :
    (q.len = q.pending.length → q.close.2 = q.pending.length ∧ q.close.1.len = 0) ∧
      (q.closed = false → q.len ≠ q.pending.length → q.close.2 + q.close.1.len + 1 = q.len) := by
  cases hclosed : q.closed with
  | true =>
    constructor
    · intro hlen
      rw [pending_of_slotless (h.slots hclosed), List.length_nil] at hlen ⊢
      rw [Queue.close, if_pos hclosed]
      exact ⟨rfl, hlen⟩
    · intro hopen
      cases hopen
  | false =>
    obtain ⟨cells, hcells⟩ := h.cells hclosed
    have hlen : q.len = cells.length := hcells.len_eq
    have hpending : q.pending = cells.filterMap id := hcells.toList_eq
    rcases items_or_hole cells with hitems | ⟨items, rest, rfl⟩
    · have hlists : q.Lists q.pending := by
        rw [Lists, hpending, ← hitems]
        exact hcells
      obtain ⟨hanswer, hleft, -⟩ := hlists.close fun h => Bool.noConfusion (hclosed.symm.trans h)
      exact ⟨fun _ => ⟨hanswer, hleft.len_eq⟩, fun _ hne => absurd hlists.len_eq hne⟩
    · obtain ⟨hanswer, hleft, -⟩ := close_of_hole hclosed hcells
      rw [filterMap_hole] at hpending
      rw [List.length_append, List.length_map, List.length_cons] at hlen
      have hfew := List.length_filterMap_le id rest
      refine ⟨fun heq => ?_, fun _ _ => ?_⟩
      · rw [hpending, List.length_append] at heq
        omega
      · rw [hanswer, hleft, hlen]
        omega

end ChunkRouter.Work.Queue
