import ChunkRouter.Proofs.Work.Conservation

/-!
# Clearings that unwind

A predicate that panics leaves a clearing half-way. The items it kept and those it did not come to are
all there, in order, but there are empty cells among them, and these count: the length is too large, a
batch ends at an empty cell and takes it along, and closing gives up what is behind one. `cut` says
what a batch takes off the cells, and `unwound_clear` what is left to see of a clearing that unwound.
-/

namespace ChunkRouter.Work

variable {α : Type}

/-! ## Cells -/

namespace Ring

/-- What a batch of at most `n` items takes off the cells, and what it leaves. An empty cell ends the
batch and is taken off too. -/
def cut : Nat → List (Option α) → List α × List (Option α)
  | 0, cells => ([], cells)
  | _ + 1, [] => ([], [])
  | _ + 1, none :: cells => ([], cells)
  | n + 1, some x :: cells => (x :: (cut n cells).1, (cut n cells).2)

section

variable {r : Ring α} {cells rest : List (Option α)} {items : List α} {n : Nat}

theorem Holds.popLoop_eq_cut (h : r.Holds cells) (n : Nat) (acc : List α) :
    ∃ r', r.popLoop n acc = (r', acc.reverse ++ (cut n cells).1) ∧ r'.Holds (cut n cells).2 := by
  induction n generalizing r cells acc with
  | zero => exact ⟨r, by simp [Ring.popLoop, cut], h⟩
  | succ n ih =>
    rcases cells with _ | ⟨_ | x, cells⟩
    · exact ⟨r, by simp [Ring.popLoop, pop_of_len_eq_zero h.len_eq, cut], h⟩
    · obtain ⟨hpop, hrest⟩ := h.pop
      exact ⟨r.rest, by simp [Ring.popLoop, hpop, cut], hrest⟩
    · obtain ⟨hpop, hrest⟩ := h.pop
      obtain ⟨r', hloop, hcut⟩ := ih hrest (x :: acc)
      exact ⟨r', by simp [Ring.popLoop, hpop, hloop, cut], hcut⟩

/-- A batch takes items off the front, and loses none. -/
theorem cut_conserves (n : Nat) (cells : List (Option α)) :
    (cut n cells).1 ++ (cut n cells).2.filterMap id = cells.filterMap id := by
  fun_induction cut n cells with
  | case1 => rfl
  | case2 => rfl
  | case3 => rfl
  | case4 n x cells ih => simpa using ih

/-- A batch takes off at least one cell. -/
theorem length_cut_lt (hn : 0 < n) (hne : cells ≠ []) : (cut n cells).2.length < cells.length := by
  have hle : ∀ (n : Nat) (cells : List (Option α)), (cut n cells).2.length ≤ cells.length := by
    intro n cells
    fun_induction cut n cells with
    | case1 => exact Nat.le_refl _
    | case2 => exact Nat.le_refl _
    | case3 => exact Nat.le_succ _
    | case4 n x cells ih => exact Nat.le_succ_of_le ih
  obtain ⟨n, rfl⟩ := Nat.exists_eq_succ_of_ne_zero (Nat.ne_of_gt hn)
  rcases cells with _ | ⟨_ | x, cells⟩
  · exact absurd rfl hne
  · exact Nat.lt_succ_self _
  · exact Nat.lt_succ_of_le (hle n cells)

/-- A batch that comes to an empty cell is shorter than it may be. -/
theorem cut_of_lt (h : items.length < n) : cut n (items.map some ++ none :: rest) = (items, rest) := by
  induction items generalizing n with
  | nil =>
    obtain ⟨n, rfl⟩ := Nat.exists_eq_succ_of_ne_zero (Nat.ne_of_gt h)
    rfl
  | cons x items ih =>
    obtain ⟨n, rfl⟩ := Nat.exists_eq_succ_of_ne_zero (Nat.ne_of_gt (Nat.lt_of_le_of_lt (Nat.zero_le _) h))
    have hcut := ih (Nat.lt_of_succ_lt_succ h)
    simp [cut, hcut]

theorem cut_of_le (h : n ≤ items.length) :
    cut n (items.map some ++ rest) = (items.take n, (items.drop n).map some ++ rest) := by
  induction items generalizing n with
  | nil =>
    cases Nat.le_zero.1 h
    rfl
  | cons x items ih =>
    cases n with
    | zero => rfl
    | succ n =>
      have hcut := ih (Nat.le_of_succ_le_succ h)
      simp [cut, hcut]

/-- A ring that gives its items away stops at an empty cell, and still counts what is behind it. -/
theorem Holds.release (h : r.Holds cells) :
    r.release.2 = (cut cells.length cells).1 ∧ r.release.1.capacity = 0 ∧
      r.release.1.len = (cut cells.length cells).2.length := by
  obtain ⟨r', hloop, hrest⟩ := h.popLoop_eq_cut r.len []
  rw [Ring.release, popMany, hloop, ← h.len_eq]
  exact ⟨rfl, rfl, hrest.len_eq⟩

end

/-! ## Sifting -/

/-- Whether a predicate keeps an item. -/
def keeps (keep : α → Except Panic Bool) (x : α) : Bool :=
  match keep x with
  | .ok kept => kept
  | .error _ => false

/-- A sifting that panics had come to an item, and kept what it was to keep of those before. -/
theorem sift_panic {keep : α → Except Panic Bool} {items kept rest : List α} {panic : Panic}
    (h : sift keep items = (kept, some (panic, rest))) :
    ∃ before x, items = before ++ x :: rest ∧ keep x = .error panic ∧
      (∀ y ∈ before, ∃ k, keep y = .ok k) ∧ kept = before.filter (keeps keep) := by
  induction items generalizing kept with
  | nil => cases h
  | cons y items ih =>
    rw [sift] at h
    rcases hy : keep y with panic' | _ | _ <;> rw [hy] at h
    · cases h
      exact ⟨[], y, rfl, hy, fun _ hmem => absurd hmem List.not_mem_nil, rfl⟩
    · obtain ⟨before, x, rfl, hx, hok, rfl⟩ := ih h
      refine ⟨y :: before, x, rfl, hx, fun z hz => ?_, ?_⟩
      · rcases List.mem_cons.1 hz with rfl | hz
        · exact ⟨_, hy⟩
        · exact hok z hz
      · rw [List.filter_cons_of_neg (by simp [keeps, hy])]
    · obtain ⟨hkept, hrest⟩ := Prod.mk.inj h
      obtain ⟨before, x, rfl, hx, hok, hbefore⟩ := ih (Prod.ext rfl hrest)
      refine ⟨y :: before, x, rfl, hx, fun z hz => ?_, ?_⟩
      · rcases List.mem_cons.1 hz with rfl | hz
        · exact ⟨_, hy⟩
        · exact hok z hz
      · rw [List.filter_cons_of_pos (by simp [keeps, hy]), ← hbefore]
        exact hkept.symm

/-- What a clearing that unwinds leaves in the ring: the items kept, an empty cell, and cells with the
items it did not come to. -/
theorem Holds.retain_panic {r r' : Ring α} {cells : List (Option α)} (h : r.Holds cells)
    {keep : α → Except Panic Bool} {panic : Panic} (hretain : r.retain keep = (r', .error panic)) :
    ∃ before x rest cells', cells.filterMap id = before ++ x :: rest ∧ keep x = .error panic ∧
      (∀ y ∈ before, ∃ k, keep y = .ok k) ∧ cells'.filterMap id = rest ∧
      r'.Holds ((before.filter (keeps keep)).map some ++ none :: cells') ∧ r'.len = r.len := by
  obtain ⟨ring, kept, ⟨-, hok, -⟩ | ⟨panic', items, gap, cells', hsift, herror, hholds, hgap, hitems, hlen⟩⟩ :=
    h.retain_cases keep
  · cases hok.symm.trans hretain
  · cases herror.symm.trans hretain
    obtain ⟨before, x, hsplit, hx, hok, hkept⟩ := sift_panic hsift
    obtain ⟨gap, rfl⟩ := Nat.exists_eq_succ_of_ne_zero (Nat.ne_of_gt hgap)
    refine ⟨before, x, items, List.replicate gap none ++ cells', hsplit, hx, hok, ?_, ?_, hlen⟩
    · rw [List.filterMap_append, List.filterMap_replicate]
      exact hitems
    · rw [← hkept, ← partway_hole]
      exact hholds

end Ring

/-! ## Running queues -/

namespace Queue

/-- The queue hands batches out, and its ring holds `cells`. -/
structure Runs (q : Queue α) (cells : List (Option α)) : Prop where
  holds : q.ring.Holds cells
  isOpen : q.closed = false
  started : q.started = true
  bulk : 0 < q.bulkSize

/-- Take `n` times; the batches come back. -/
def takes : Nat → Queue α → Queue α × List (List α)
  | 0, q => (q, [])
  | n + 1, q =>
    match q.take with
    | (q, none) => takes n q
    | (q, some batch) => ((takes n q).1, batch :: (takes n q).2)

section

variable {q : Queue α} {cells rest : List (Option α)} {items : List α}

theorem Runs.len_eq (h : q.Runs cells) : q.len = cells.length := h.holds.len_eq

/-- A batch is what is cut off the cells. -/
theorem Runs.take (h : q.Runs cells) (hne : cells ≠ []) :
    ∃ q', q.take = (q', some (Ring.cut (min q.bulkSize cells.length) cells).1) ∧
      q'.Runs (Ring.cut (min q.bulkSize cells.length) cells).2 ∧ q'.bulkSize = q.bulkSize := by
  obtain ⟨ring, hloop, hrest⟩ := h.holds.popLoop_eq_cut (min q.bulkSize cells.length) []
  have hsome : q.ring.isEmpty = false := by
    rw [h.holds.isEmpty_eq]
    exact List.isEmpty_eq_false_iff.2 hne
  refine ⟨{ q with ring := ring }, ?_, ⟨hrest, h.isOpen, h.started, h.bulk⟩, rfl⟩
  rw [Queue.take, h.isOpen, h.started, hsome, h.holds.len_eq, Ring.popMany, hloop]
  rfl

theorem Runs.take_nil (h : q.Runs []) : ∃ q', q.take = (q', none) ∧ q'.Runs [] := by
  have hempty : q.ring.isEmpty = true := h.holds.isEmpty_eq
  refine ⟨{ q with processing := false }, ?_, h.holds, h.isOpen, h.started, h.bulk⟩
  rw [Queue.take, hempty, Bool.or_true, if_pos rfl]

/-- Taking often enough hands all items over in order, whatever cells are empty. -/
theorem Runs.takes_all (h : q.Runs cells) {n : Nat} (hn : cells.length ≤ n) :
    (q.takes n).1.isEmpty = true ∧ (q.takes n).2.flatten = cells.filterMap id := by
  induction n generalizing q cells with
  | zero =>
    cases List.eq_nil_of_length_eq_zero (Nat.le_zero.1 hn)
    exact ⟨h.holds.isEmpty_eq, rfl⟩
  | succ n ih =>
    by_cases hne : cells = []
    · subst hne
      obtain ⟨q', htake, hq'⟩ := h.take_nil
      rw [takes, htake]
      exact ih hq' (Nat.zero_le n)
    · obtain ⟨q', htake, hq', -⟩ := h.take hne
      have hpos := List.length_pos_iff.2 hne
      have hless := Ring.length_cut_lt (n := min q.bulkSize cells.length)
        (Nat.lt_min.2 ⟨h.bulk, hpos⟩) hne
      obtain ⟨hempty, hall⟩ := ih hq' (by omega)
      rw [takes, htake]
      refine ⟨hempty, ?_⟩
      rw [List.flatten_cons, hall, Ring.cut_conserves]

/-- Up to an empty cell batches are as long as they may be. -/
theorem Runs.takes_full (h : q.Runs (items.map some ++ none :: rest)) (m : Nat)
    (hm : m * q.bulkSize ≤ items.length) :
    (q.takes m).1.Runs ((items.drop (m * q.bulkSize)).map some ++ none :: rest) ∧
      (q.takes m).1.bulkSize = q.bulkSize := by
  induction m generalizing q items with
  | zero =>
    rw [Nat.zero_mul]
    exact ⟨h, rfl⟩
  | succ m ih =>
    rw [Nat.succ_mul] at hm
    obtain ⟨q', htake, hq', hbulk⟩ := h.take (by simp)
    have hmin : min q.bulkSize (items.map some ++ none :: rest).length = q.bulkSize := by
      rw [List.length_append, List.length_map]
      omega
    rw [hmin, Ring.cut_of_le (by omega)] at htake hq'
    have hlater := ih hq' (by rw [hbulk, List.length_drop]; omega)
    rw [hbulk, List.drop_drop] at hlater
    rw [takes, htake, Nat.succ_mul, Nat.add_comm]
    exact hlater

/-- The batch that comes to an empty cell is what is left of the items before it. -/
theorem Runs.take_short (h : q.Runs (items.map some ++ none :: rest)) :
    ((q.takes (items.length / q.bulkSize)).1.take).2 =
        some (items.drop (items.length / q.bulkSize * q.bulkSize)) ∧
      (items.drop (items.length / q.bulkSize * q.bulkSize)).length <
        min q.bulkSize (q.takes (items.length / q.bulkSize)).1.len := by
  obtain ⟨hruns, hbulk⟩ := h.takes_full (items.length / q.bulkSize) (Nat.div_mul_le_self _ _)
  have hmod := Nat.mod_lt items.length h.bulk
  have hsplit := Nat.div_add_mod' items.length q.bulkSize
  generalize hitems : items.drop (items.length / q.bulkSize * q.bulkSize) = short at hruns ⊢
  have hshort : short.length < q.bulkSize := by
    rw [← hitems, List.length_drop]
    omega
  have hlen : (short.map some ++ none :: rest).length = short.length + 1 + rest.length := by
    rw [List.length_append, List.length_map, List.length_cons]
    omega
  obtain ⟨q', htake, -, -⟩ := hruns.take (by simp)
  rw [hbulk, Ring.cut_of_lt (by omega)] at htake
  rw [hruns.len_eq, htake]
  exact ⟨rfl, by omega⟩

end

/-! ## Any use of a queue -/

/-- A use of a queue; the predicate of a clearing may panic. -/
inductive Use (α : Type) where
  | enqueue (x : α)
  | take
  | settle
  | abandon
  | clear (keep : α → Except Panic Bool)
  | start
  | stop
  | close

def use (q : Queue α) : Use α → Queue α
  | .enqueue x => (q.enqueue x).1
  | .take => q.take.1
  | .settle => q.settle.1
  | .abandon => q.abandon
  | .clear keep => (q.clear keep).1
  | .start => q.start.1
  | .stop => q.stop
  | .close => q.close.1

/-- A queue after any uses. -/
def used (settings : Settings) (started : Bool) (uses : List (Use α)) : Queue α :=
  uses.foldl use (new settings started)

/-- An open queue has cells, empty ones perhaps, and a closed one has no slots. -/
structure Worn (q : Queue α) : Prop where
  bulk : 0 < q.bulkSize
  cells : q.closed = false → ∃ cells, q.ring.Holds cells
  slots : q.closed = true → q.capacity = 0

section

variable {q q' : Queue α} {keep : α → Except Panic Bool} {panic : Panic}

theorem worn_new (settings : Settings) (started : Bool) : (new settings started : Queue α).Worn where
  bulk := settings.bulkSize_pos
  cells := fun _ => ⟨[], Ring.holds_new _ _⟩
  slots := fun h => nomatch h

/-- Clearing a ring without slots: it panics by itself if its length was not corrected. -/
theorem retain_of_capacity_eq_zero {r : Ring α} (h : r.capacity = 0) (keep : α → Except Panic Bool) :
    r.retain keep = (r, if r.len = 0 then .ok 0 else .error .remainderByZero) := by
  unfold Ring.retain
  by_cases hlen : r.len = 0
  · obtain ⟨slots, first, len, bucket⟩ := r
    cases hlen
    rw [if_neg fun hboth => hboth.1 rfl, if_pos rfl]
    rfl
  · rw [if_pos ⟨hlen, h⟩, if_neg hlen]

theorem Worn.clear (h : q.Worn) (keep : α → Except Panic Bool) : (q.clear keep).1.Worn := by
  have hring : (q.clear keep).1.ring = (q.ring.retain keep).1 := by
    unfold Queue.clear
    split <;> rename_i heq <;> rw [heq]
  rw [clear_eq]
  refine ⟨h.bulk, fun hopen => ?_, fun hclosed => ?_⟩
  · obtain ⟨cells, hcells⟩ := h.cells hopen
    obtain ⟨cells', hcells', -⟩ := hcells.retain_sublist keep
    exact ⟨cells', hring ▸ hcells'⟩
  · show (q.clear keep).1.ring.capacity = 0
    rw [hring, retain_of_capacity_eq_zero (h.slots hclosed)]
    exact h.slots hclosed

theorem Worn.close (h : q.Worn) : q.close.1.Worn := by
  rw [close_eq]
  refine ⟨h.bulk, fun hopen => (nomatch hopen), fun _ => ?_⟩
  show q.close.1.ring.capacity = 0
  unfold Queue.close
  split
  · rename_i hclosed
    exact h.slots hclosed
  · rfl

theorem Worn.use (h : q.Worn) (u : Use α) : (q.use u).Worn := by
  cases u with
  | enqueue x =>
    cases hclosed : q.closed with
    | true =>
      rw [Queue.use, enqueue_of_closed hclosed]
      exact ⟨h.bulk, fun hopen => (nomatch hclosed.symm.trans hopen), fun _ => h.slots hclosed⟩
    | false =>
      obtain ⟨cells, hcells⟩ := h.cells hclosed
      rw [Queue.use, enqueue_of_open hclosed]
      exact ⟨h.bulk, fun _ => ⟨_, hcells.push x⟩, fun hopen => nomatch hclosed.symm.trans hopen⟩
  | take =>
    rcases q.take_cases with ⟨htake, -⟩ | ⟨ring, batch, htake, hopen, -⟩
    · rw [Queue.use, htake]
      exact ⟨h.bulk, h.cells, h.slots⟩
    · obtain ⟨cells, hcells⟩ := h.cells hopen
      obtain ⟨k, hrest, -⟩ := take_cells htake hcells
      rw [Queue.use, htake]
      exact ⟨h.bulk, fun _ => ⟨_, hrest⟩, fun hclosed => nomatch hopen.symm.trans hclosed⟩
  | settle =>
    rw [Queue.use, settle_eq]
    exact ⟨h.bulk, h.cells, h.slots⟩
  | abandon => exact ⟨h.bulk, h.cells, h.slots⟩
  | clear keep => exact h.clear keep
  | start =>
    rw [Queue.use, start_eq]
    exact ⟨h.bulk, h.cells, h.slots⟩
  | stop => exact ⟨h.bulk, h.cells, h.slots⟩
  | close => exact h.close

theorem worn_used (settings : Settings) (started : Bool) (uses : List (Use α)) :
    (used settings started uses).Worn := by
  have hall : ∀ q : Queue α, q.Worn → (uses.foldl Queue.use q).Worn := by
    induction uses with
    | nil => exact fun q hq => hq
    | cons u uses ih => exact fun q hq => ih _ (hq.use u)
  exact hall _ (worn_new settings started)

/-- Closing hands over what is in front of the first empty cell. What is behind it is gone, and still
counted. -/
theorem close_of_hole {items : List α} {rest : List (Option α)} (hopen : q.closed = false)
    (h : q.ring.Holds (items.map some ++ none :: rest)) :
    q.close.2 = items.length ∧ q.close.1.len = rest.length ∧ q.close.1.capacity = 0 := by
  obtain ⟨hitems, hcapacity, hlen⟩ := h.release
  have hcut : Ring.cut (items.map some ++ none :: rest).length (items.map some ++ none :: rest) =
      (items, rest) := by
    refine Ring.cut_of_lt ?_
    rw [List.length_append, List.length_map, List.length_cons]
    omega
  rw [hcut] at hitems hlen
  rw [Queue.close, hopen, if_neg Bool.false_ne_true]
  exact ⟨congrArg List.length hitems, hlen, hcapacity⟩

theorem of_clear_error {q' : Queue α} (h : q.clear keep = (q', .error panic)) :
    ∃ ring, q.ring.retain keep = (ring, .error panic) ∧ q' = { q with ring := ring } := by
  unfold Queue.clear at h
  split at h
  · rename_i ring panic' hretain
    cases h
    exact ⟨ring, hretain, rfl⟩
  · cases h

theorem filterMap_hole (items : List α) (cells : List (Option α)) :
    (items.map some ++ none :: cells).filterMap id = items ++ cells.filterMap id :=
  Ring.filterMap_partway items 1 cells

/-- **What a clearing that unwinds leaves behind.** After any uses of a queue, clearings that unwound
among them, a clearing unwinds by itself only on a closed queue that still counts cells, and then
changes nothing. Otherwise its predicate panicked on a waiting item, which is lost. The items kept
before and those behind wait in their order, and taking often enough hands all of them over; but the
length is what it was before, so it is more than their number, and the batch that comes to the first
empty cell is shorter than the bulk size and the length allow, or empty. Closing drops only the items
kept, gives up the others uncounted, and unless there was just one cell more makes every later clearing
unwind by itself. -/
theorem clear_unwinds (settings : Settings) (started : Bool) (uses : List (Use α))
    (keep : α → Except Panic Bool) (panic : Panic)
    (h : ((used settings started uses).clear keep).2 = .error panic) :
    let q := used settings started uses
    let q' := (q.clear keep).1
    (q.closed = true ∧ q.len ≠ 0 ∧ panic = .remainderByZero ∧ q' = q) ∨
      q.closed = false ∧ ∃ before x behind,
        q.pending = before ++ x :: behind ∧ keep x = .error panic ∧
        (∀ y ∈ before, ∃ k, keep y = .ok k) ∧
        let kept := before.filter (Ring.keeps keep)
        let bulk := q.bulkSize
        let full := (q'.start.1.takes (kept.length / bulk)).1
        q'.pending = kept ++ behind ∧ q'.len = q.len ∧ kept.length + behind.length < q'.len ∧
        (∀ n, q'.len ≤ n → (q'.start.1.takes n).1.isEmpty = true ∧
          (q'.start.1.takes n).2.flatten = kept ++ behind) ∧
        (∃ batch, full.take.2 = some batch ∧ batch.length = kept.length % bulk ∧
          batch.length < min bulk full.len) ∧
        q'.close.2 = kept.length ∧
        ∀ later, (q'.close.1.clear later).2 =
          if q'.len = kept.length + 1 then .ok 0 else .error .remainderByZero := by
  intro q q'
  have hworn : q.Worn := worn_used settings started uses
  obtain ⟨ring, hretain, hq'⟩ : ∃ ring, q.ring.retain keep = (ring, .error panic) ∧
      q' = { q with ring := ring } := of_clear_error (Prod.ext rfl h)
  cases hclosed : q.closed with
  | true =>
    left
    rw [retain_of_capacity_eq_zero (hworn.slots hclosed)] at hretain
    by_cases hlen : q.ring.len = 0
    · rw [if_pos hlen] at hretain
      cases hretain
    · rw [if_neg hlen] at hretain
      cases hretain
      exact ⟨rfl, hlen, rfl, hq'⟩
  | false =>
    right
    obtain ⟨cells, hcells⟩ := hworn.cells hclosed
    obtain ⟨before, x, behind, cells', hsplit, hx, hok, hbehind, hholds, hlen⟩ :=
      hcells.retain_panic hretain
    refine ⟨rfl, before, x, behind, hcells.toList_eq.trans hsplit, hx, hok, ?_⟩
    have hholds' : q'.ring.Holds ((before.filter (Ring.keeps keep)).map some ++ none :: cells') := by
      rw [hq']
      exact hholds
    have hopen' : q'.closed = false := by rw [hq']; exact hclosed
    have hpending := filterMap_hole (before.filter (Ring.keeps keep)) cells'
    rw [hbehind] at hpending
    have hruns : q'.start.1.Runs ((before.filter (Ring.keeps keep)).map some ++ none :: cells') := by
      rw [start_eq]
      exact ⟨hholds', hopen', rfl, by rw [hq']; exact hworn.bulk⟩
    have hbulk : q'.start.1.bulkSize = q.bulkSize := by rw [start_eq, hq']
    have hcount : q'.len = (before.filter (Ring.keeps keep)).length + 1 + cells'.length := by
      rw [Queue.len, hholds'.len_eq, List.length_append, List.length_map, List.length_cons]
      omega
    have hfew : behind.length ≤ cells'.length := by
      rw [← hbehind]
      exact List.length_filterMap_le _ _
    obtain ⟨htake, hshort⟩ := hruns.take_short
    rw [hbulk] at htake hshort
    have hlength : ((before.filter (Ring.keeps keep)).drop
        ((before.filter (Ring.keeps keep)).length / q.bulkSize * q.bulkSize)).length =
          (before.filter (Ring.keeps keep)).length % q.bulkSize := by
      rw [List.length_drop]
      have := Nat.div_add_mod' (before.filter (Ring.keeps keep)).length q.bulkSize
      omega
    obtain ⟨hdropped, hleft, hcapacity⟩ := close_of_hole hopen' hholds'
    refine ⟨hholds'.toList_eq.trans hpending, ?_, by omega, fun n hn => ?_, ⟨_, htake, hlength, hshort⟩,
      hdropped, fun later => ?_⟩
    · rw [hq']
      exact hlen
    · rw [← hpending]
      refine hruns.takes_all ?_
      rw [← hruns.len_eq, start_eq]
      exact hn
    · have hleft : q'.close.1.ring.len = cells'.length := hleft
      rw [Queue.clear, retain_of_capacity_eq_zero hcapacity]
      by_cases hone : cells'.length = 0
      · rw [if_pos (hleft.trans hone), if_pos (by omega)]
      · rw [if_neg fun hzero => hone (hleft.symm.trans hzero), if_neg (by omega)]

/-- The predicate panics on the first of two items: the other one waits, and comes behind an empty batch. -/
theorem clear_unwinds_at_once :
    let q : Queue Nat := used ⟨2, 1, 2, by decide, by decide⟩ false [.enqueue 1, .enqueue 2]
    let q' := (q.clear fun _ => .error .remainderByZero).1
    (q.clear fun _ => .error .remainderByZero).2 = .error .remainderByZero ∧ q'.len = 2 ∧
      q'.pending = [2] ∧ (q'.start.1.takes 2).2 = [[], [2]] ∧ q'.start.1.take.2 = some [] ∧
      q'.close.2 = 0 ∧ (q'.close.1.clear fun _ => .ok false).2 = .error .remainderByZero := by
  intro q q'
  have hpanic : (q.clear fun _ => .error .remainderByZero).2 = .error .remainderByZero := rfl
  rcases clear_unwinds ⟨2, 1, 2, by decide, by decide⟩ false [.enqueue 1, .enqueue 2]
    (fun _ => .error .remainderByZero) .remainderByZero hpanic with ⟨hclosed, -⟩ | ⟨-, before, x,
      behind, hpending, -, hok, hleft, hlen, -, -, ⟨batch, htake, hbatch, -⟩, hclose, hlater⟩
  · cases hclosed
  have hbefore : before = [] := by
    rcases before with _ | ⟨y, before⟩
    · rfl
    · obtain ⟨k, hk⟩ := hok y List.mem_cons_self
      cases hk
  subst hbefore
  have hitems : [1, 2] = x :: behind := hpending
  cases hitems
  have hempty : batch = [] := List.eq_nil_of_length_eq_zero hbatch
  subst hempty
  exact ⟨hpanic, hlen, hleft, by decide, htake, hclose, hlater fun _ => .ok false⟩

/-- The predicate keeps the first of three items and panics on the second. Two items are left and three
counted, there is a batch of one where two were to be had, and on closing the last item is neither
dropped nor taken off the count, so that the next clearing panics by itself. -/
theorem unwound_clear_miscounts :
    let q : Queue Nat := used ⟨2, 1, 2, by decide, by decide⟩ false [.enqueue 1, .enqueue 2, .enqueue 3]
    let q' := (q.clear fun x => if x = 2 then .error .capacityOverflow else .ok true).1
    (q.clear fun x => if x = 2 then .error .capacityOverflow else .ok true).2 =
        .error .capacityOverflow ∧
      q'.pending = [1, 3] ∧ q'.len = 3 ∧ (q'.start.1.takes 3).2 = [[1], [3]] ∧
      q'.close.2 = 1 ∧ q'.close.1.pending = [] ∧ q'.close.1.len = 1 ∧
      (q'.close.1.clear fun _ => .ok true).2 = .error .remainderByZero :=
  ⟨rfl, by decide, by decide, by decide, by decide, by decide, by decide, rfl⟩

end

end Queue

end ChunkRouter.Work
