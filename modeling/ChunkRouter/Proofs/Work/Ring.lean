import ChunkRouter.Work.Ring

/-!
# Rings as lists

The slots of a ring that are in use, from the first on, make a list of cells: `Ring.Holds`. Each
operation is one on that list, wherever the ring wraps around and whenever it grows. A cell that holds
nothing is left behind by a clearing that was abandoned; it is passed over by reading and clearing, and
ends a batch.
-/

namespace ChunkRouter.Work.Ring

variable {α : Type}

/-- The slots in use hold `cells`, in order. -/
structure Holds (r : Ring α) (cells : List (Option α)) : Prop where
  bucket_pos : 0 < r.bucket
  len_eq : r.len = cells.length
  len_le : r.len ≤ r.capacity
  first_lt : 0 < r.capacity → r.first < r.capacity
  slot : ∀ i x, cells[i]? = some x → r.slots[r.index i]? = some x

theorem holds_new (capacity bucket : Nat) : (new capacity bucket : Ring α).Holds [] where
  bucket_pos := Nat.lt_of_lt_of_le Nat.zero_lt_one (Nat.le_max_right _ _)
  len_eq := rfl
  len_le := Nat.zero_le _
  first_lt := fun h => h
  slot := fun i x h => by simp at h

/-! ## Places -/

theorem index_eq (r : Ring α) {i : Nat} (hfirst : r.first < r.capacity) (hi : i < r.capacity) :
    r.index i = if r.first + i < r.capacity then r.first + i else r.first + i - r.capacity := by
  unfold index
  split
  · exact Nat.mod_eq_of_lt (by assumption)
  · rw [Nat.mod_eq_sub_mod (by omega), Nat.mod_eq_of_lt (by omega)]

theorem index_lt (r : Ring α) {i : Nat} (hi : i < r.capacity) : r.index i < r.slots.size :=
  Nat.mod_lt _ (Nat.lt_of_le_of_lt (Nat.zero_le i) hi)

/-- Different items have different slots. -/
theorem index_ne (r : Ring α) {i j : Nat} (hfirst : r.first < r.capacity) (hi : i < r.capacity)
    (hj : j < r.capacity) (hij : i ≠ j) : r.index i ≠ r.index j := by
  rw [index_eq r hfirst hi, index_eq r hfirst hj]
  split <;> split <;> omega

/-! ## Reading -/

section

variable {r : Ring α} {cells : List (Option α)}

theorem Holds.lt_capacity (h : r.Holds cells) {i : Nat} (hi : i < cells.length) : i < r.capacity :=
  Nat.lt_of_lt_of_le (h.len_eq ▸ hi) h.len_le

theorem Holds.first_lt_of_lt (h : r.Holds cells) {i : Nat} (hi : i < r.capacity) :
    r.first < r.capacity := h.first_lt (Nat.lt_of_le_of_lt (Nat.zero_le i) hi)

theorem Holds.cells_eq (h : r.Holds cells) : (List.range r.len).map r.get? = cells := by
  apply List.ext_getElem
  · rw [List.length_map, List.length_range, h.len_eq]
  · intro i _ hi
    rw [List.getElem_map, List.getElem_range, get?, h.slot i cells[i] (List.getElem?_eq_getElem hi),
      Option.join_some]

/-- The items of a ring are those that its slots hold. -/
theorem Holds.toList_eq (h : r.Holds cells) : r.toList = cells.filterMap id := by
  rw [toList, ← h.cells_eq, List.filterMap_map]
  rfl

theorem Holds.toList_of_items {items : List α} (h : r.Holds (items.map some)) : r.toList = items := by
  rw [h.toList_eq, List.filterMap_map]
  exact List.filterMap_some

theorem Holds.isEmpty_eq (h : r.Holds cells) : r.isEmpty = cells.isEmpty := by
  rw [isEmpty, h.len_eq]
  cases cells <;> rfl

/-! ## Writing -/

def setSlot (r : Ring α) (i : Nat) (v : Option α) : Ring α :=
  { r with slots := r.slots.setIfInBounds i v }

@[simp] theorem capacity_setSlot (r : Ring α) (i : Nat) (v : Option α) :
    (r.setSlot i v).capacity = r.capacity := Array.size_setIfInBounds

@[simp] theorem index_setSlot (r : Ring α) (i : Nat) (v : Option α) (k : Nat) :
    (r.setSlot i v).index k = r.index k := by
  rw [index, capacity_setSlot]
  rfl

/-- A slot in use may be overwritten. -/
theorem Holds.setSlot {before after : List (Option α)} {old : Option α}
    (h : r.Holds (before ++ old :: after)) (v : Option α) :
    (r.setSlot (r.index before.length) v).Holds (before ++ v :: after) where
  bucket_pos := h.bucket_pos
  len_eq := by
    show r.len = _
    simpa using h.len_eq
  len_le := by
    rw [capacity_setSlot]
    exact h.len_le
  first_lt := by
    rw [capacity_setSlot]
    exact h.first_lt
  slot := by
    intro i x hi
    have hlen : (before ++ old :: after).length = (before ++ v :: after).length := by simp
    have hlt : i < (before ++ old :: after).length := hlen ▸ (List.getElem?_eq_some_iff.1 hi).1
    have hcapacity := h.lt_capacity hlt
    have hplace : before.length < r.capacity := h.lt_capacity (by simp)
    rw [index_setSlot, Ring.setSlot, Array.getElem?_setIfInBounds]
    by_cases hne : before.length = i
    · subst hne
      rw [if_pos rfl, if_pos (index_lt r hplace)]
      simpa using hi
    · rw [if_neg (index_ne r (h.first_lt_of_lt hcapacity) hplace hcapacity hne)]
      refine h.slot i x ?_
      rw [← hi, List.getElem?_append, List.getElem?_append]
      split
      · rfl
      · have hpos : i - before.length = i - before.length - 1 + 1 := by omega
        rw [hpos, List.getElem?_cons_succ, List.getElem?_cons_succ]

/-- With a slot to spare an item is put behind the others. -/
theorem Holds.put (h : r.Holds cells) (hroom : r.len < r.capacity) (x : α) :
    (r.put x).Holds (cells ++ [some x]) where
  bucket_pos := h.bucket_pos
  len_eq := by simp [Ring.put, h.len_eq]
  len_le := by simpa [Ring.put, capacity] using Nat.succ_le_of_lt hroom
  first_lt := by simpa [Ring.put, capacity] using h.first_lt
  slot := by
    intro i y hi
    have hlt : i < r.len + 1 := by
      have := (List.getElem?_eq_some_iff.1 hi).1
      rwa [List.length_append, List.length_singleton, ← h.len_eq] at this
    have hindex : index (r.put x) i = r.index i := by simp [Ring.put, index, capacity]
    have hfirst := h.first_lt_of_lt hroom
    rw [hindex]
    show (r.slots.setIfInBounds (r.index r.len) (some x))[r.index i]? = some y
    rw [Array.getElem?_setIfInBounds]
    by_cases hne : r.len = i
    · subst hne
      rw [if_pos rfl, if_pos (index_lt r hroom)]
      rw [h.len_eq, List.getElem?_concat_length] at hi
      exact hi
    · rw [if_neg (index_ne r hfirst hroom (by omega) hne)]
      refine h.slot i y ?_
      rw [← hi, List.getElem?_append_left (by rw [← h.len_eq]; omega)]

/-- The slots that a growing ring takes over, in order. -/
def occupied (r : Ring α) : Array (Option α) :=
  (r.slots.extract r.first r.capacity ++ r.slots.extract 0 r.first).extract 0 r.len

theorem grow_eq (r : Ring α) :
    r.grow =
      { r with
        slots := r.occupied ++ Array.replicate (r.capacity + r.bucket - r.occupied.size) none
        first := 0 } := rfl

theorem size_occupied_le (r : Ring α) : r.occupied.size ≤ r.capacity := by
  simp only [occupied, capacity, Array.size_extract, Array.size_append]
  omega

theorem capacity_grow (r : Ring α) : r.grow.capacity = r.capacity + r.bucket := by
  have hle := r.size_occupied_le
  simp only [grow_eq, capacity, Array.size_append, Array.size_replicate] at hle ⊢
  omega

theorem capacity_put (r : Ring α) (x : α) : (r.put x).capacity = r.capacity :=
  Array.size_setIfInBounds

theorem getElem?_occupied (r : Ring α) (hfirst : r.first < r.capacity) (hlen : r.len ≤ r.capacity)
    {i : Nat} (hi : i < r.len) : r.occupied[i]? = r.slots[r.index i]? := by
  have hsize : r.slots.size = r.capacity := rfl
  rw [index_eq r hfirst (Nat.lt_of_lt_of_le hi hlen), occupied, Array.getElem?_extract]
  rw [if_pos (by simp only [Array.size_append, Array.size_extract]; omega), Nat.zero_add,
    Array.getElem?_append, Array.getElem?_extract, Array.getElem?_extract]
  simp only [Array.size_extract, hsize, Nat.min_self]
  split
  · rw [if_pos (by omega)]
  · rw [if_pos (by omega), if_neg (by omega), Nat.zero_add]
    congr 1
    omega

theorem Holds.size_occupied (h : r.Holds cells) : r.occupied.size = r.len := by
  have hsize : r.slots.size = r.capacity := rfl
  have hlen := h.len_le
  have hfirst := h.first_lt
  simp only [occupied, Array.size_extract, Array.size_append, hsize]
  omega

/-- A ring that grows keeps its items and has a slot to spare. -/
theorem Holds.grow (h : r.Holds cells) : r.grow.Holds cells ∧ r.grow.len < r.grow.capacity := by
  have hbucket := h.bucket_pos
  have hlen := h.len_le
  have hsize := h.size_occupied
  have hcapacity : r.grow.capacity = r.capacity + r.bucket := by
    simp only [grow_eq, capacity, Array.size_append, Array.size_replicate, hsize]
    simp only [capacity] at hlen
    omega
  refine ⟨⟨hbucket, h.len_eq, ?_, ?_, ?_⟩, ?_⟩
  · show r.len ≤ r.grow.capacity
    omega
  · exact fun hpos => hpos
  · intro i x hi
    have hlt : i < r.len := h.len_eq ▸ (List.getElem?_eq_some_iff.1 hi).1
    have hindex : r.grow.index i = i := by
      rw [index, hcapacity]
      show (0 + i) % (r.capacity + r.bucket) = i
      rw [Nat.zero_add, Nat.mod_eq_of_lt (by omega)]
    rw [hindex, grow_eq]
    show (r.occupied ++ _)[i]? = some x
    rw [Array.getElem?_append_left (by omega),
      getElem?_occupied r (h.first_lt (by omega)) hlen hlt, h.slot i x hi]
  · show r.len < r.grow.capacity
    omega

/-- An item that is pushed comes behind the others. -/
theorem Holds.push (h : r.Holds cells) (x : α) : (r.push x).Holds (cells ++ [some x]) := by
  unfold Ring.push
  split
  · exact h.grow.1.put h.grow.2 x
  · exact h.put (Nat.lt_of_le_of_ne h.len_le (by assumption)) x

/-! ## Taking -/

theorem pop_of_len_eq_zero (h : r.len = 0) : r.pop = (r, none) := by
  rw [pop, if_pos h]

/-- The ring without its first slot. -/
def rest (r : Ring α) : Ring α :=
  { r with
    slots := r.slots.setIfInBounds r.first none
    first := (r.first + 1) % r.capacity
    len := r.len - 1 }

theorem pop_of_len_pos (h : 0 < r.len) : r.pop = (r.rest, r.slots[r.first]?.join) := by
  rw [pop, if_neg (by omega)]
  rfl

theorem capacity_rest (r : Ring α) : r.rest.capacity = r.capacity := Array.size_setIfInBounds

theorem index_rest (r : Ring α) (i : Nat) : r.rest.index i = r.index (i + 1) := by
  rw [index, capacity_rest]
  show ((r.first + 1) % r.capacity + i) % r.capacity = (r.first + (i + 1)) % r.capacity
  rw [Nat.mod_add_mod, Nat.add_assoc, Nat.add_comm 1 i]

/-- The first cell is removed, whatever it holds. -/
theorem Holds.pop {x : Option α} (h : r.Holds (x :: cells)) :
    r.pop = (r.rest, x) ∧ r.rest.Holds cells := by
  have hlen : r.len = cells.length + 1 := h.len_eq
  have hle := h.len_le
  have hfirst : r.first < r.capacity := h.first_lt (by omega)
  have hindex : r.index 0 = r.first := by
    rw [index_eq r hfirst (by omega), if_pos (by omega), Nat.add_zero]
  have hslot : r.slots[r.first]? = some x := hindex ▸ h.slot 0 x rfl
  refine ⟨by rw [pop_of_len_pos (by omega), hslot, Option.join_some], h.bucket_pos, ?_, ?_, ?_, ?_⟩
  · show r.len - 1 = cells.length
    omega
  · rw [capacity_rest]
    exact Nat.le_trans (Nat.sub_le _ _) hle
  · intro _
    rw [capacity_rest]
    exact Nat.mod_lt _ (by omega)
  · intro i y hi
    have hlt : i < cells.length := (List.getElem?_eq_some_iff.1 hi).1
    have hne := index_ne r hfirst (i := 0) (j := i + 1) (by omega) (by omega) (by omega)
    rw [hindex] at hne
    rw [index_rest]
    show (r.slots.setIfInBounds r.first none)[r.index (i + 1)]? = some y
    rw [Array.getElem?_setIfInBounds, if_neg hne]
    exact h.slot (i + 1) y hi

/-- Taking items removes cells from the front, and yields the items in them. -/
theorem Holds.popLoop (h : r.Holds cells) (n : Nat) (acc : List α) :
    ∃ k r', r.popLoop n acc = (r', acc.reverse ++ (cells.take k).filterMap id) ∧
      r'.Holds (cells.drop k) := by
  induction n generalizing r cells acc with
  | zero => exact ⟨0, r, by simp [Ring.popLoop], h⟩
  | succ n ih =>
    rcases cells with _ | ⟨_ | x, cells⟩
    · exact ⟨0, r, by simp [Ring.popLoop, pop_of_len_eq_zero h.len_eq], h⟩
    · obtain ⟨hpop, hrest⟩ := h.pop
      exact ⟨1, r.rest, by simp [Ring.popLoop, hpop], hrest⟩
    · obtain ⟨hpop, hrest⟩ := h.pop
      obtain ⟨k, r', hloop, hdrop⟩ := ih hrest (x :: acc)
      exact ⟨k + 1, r', by simp [Ring.popLoop, hpop, hloop], hdrop⟩

/-- Items with no empty cell among them are taken as many at a time as are wanted. -/
theorem Holds.popLoop_of_items {items : List α} {n : Nat} (h : r.Holds (items.map some))
    (hn : n ≤ items.length) (acc : List α) :
    ∃ r', r.popLoop n acc = (r', acc.reverse ++ items.take n) ∧
      r'.Holds ((items.drop n).map some) := by
  induction n generalizing r items acc with
  | zero => exact ⟨r, by simp [Ring.popLoop], h⟩
  | succ n ih =>
    rcases items with _ | ⟨x, items⟩
    · exact absurd hn (Nat.not_succ_le_zero n)
    · obtain ⟨hpop, hrest⟩ := h.pop
      obtain ⟨r', hloop, hdrop⟩ := ih hrest (Nat.le_of_succ_le_succ hn) (x :: acc)
      exact ⟨r', by simp [Ring.popLoop, hpop, hloop], hdrop⟩

theorem Holds.release_of_items {items : List α} (h : r.Holds (items.map some)) :
    r.release.2 = items ∧ r.release.1.Holds ([] : List (Option α)) := by
  have hlen : r.len = items.length := by rw [h.len_eq, List.length_map]
  obtain ⟨r', hloop, hrest⟩ := h.popLoop_of_items (Nat.le_of_eq hlen) []
  rw [hlen, List.drop_length] at hrest
  rw [release, popMany, hloop, hlen, List.take_length]
  exact ⟨rfl, hrest.bucket_pos, hrest.len_eq, Nat.le_of_eq hrest.len_eq,
    fun hpos => absurd hpos (Nat.lt_irrefl 0), fun i x hi => by simp at hi⟩

/-! ## Clearing -/

/-- How far a clearing has come: the items kept, the empty cells behind them, and the cells to come. -/
def partway (kept : List α) (gap : Nat) (cells : List (Option α)) : List (Option α) :=
  kept.map some ++ (List.replicate gap none ++ cells)

theorem partway_empty (kept : List α) (gap : Nat) (cells : List (Option α)) :
    partway kept gap (none :: cells) = partway kept (gap + 1) cells := by
  simp [partway, List.replicate_succ']

/-- The cells that were come to, and those to come. -/
theorem partway_next (kept : List α) (gap : Nat) (cells : List (Option α)) :
    partway kept gap cells = (kept.map some ++ List.replicate gap none) ++ cells := by
  rw [partway, List.append_assoc]

theorem partway_hole (kept : List α) (gap : Nat) (cells : List (Option α)) :
    partway kept (gap + 1) cells = kept.map some ++ none :: (List.replicate gap none ++ cells) := rfl

theorem partway_kept (kept : List α) (x : α) (gap : Nat) (cells : List (Option α)) :
    kept.map some ++ some x :: (List.replicate gap none ++ cells) = partway (kept ++ [x]) gap cells := by
  simp [partway]

/-- No item is in the gap. -/
theorem filterMap_partway (kept : List α) (gap : Nat) (cells : List (Option α)) :
    (partway kept gap cells).filterMap id = kept ++ cells.filterMap id := by
  rw [partway, List.filterMap_append, List.filterMap_append, List.filterMap_map,
    List.filterMap_replicate]
  exact congrArg (· ++ cells.filterMap id) List.filterMap_some

/-- The cell that comes next. -/
theorem Holds.next {kept : List α} {gap : Nat} {cell : Option α}
    (h : r.Holds (partway kept gap (cell :: cells))) :
    r.slots[r.index (kept.length + gap)]? = some cell := by
  have hlen : (kept.map some ++ List.replicate gap (none : Option α)).length = kept.length + gap := by
    simp
  rw [partway_next] at h
  refine h.slot _ _ ?_
  rw [List.getElem?_append_right (Nat.le_of_eq hlen), hlen, Nat.sub_self]
  rfl

/-- The cell that comes next is emptied. -/
theorem Holds.takeOut {kept : List α} {gap : Nat} {cell : Option α}
    (h : r.Holds (partway kept gap (cell :: cells))) :
    (r.setSlot (r.index (kept.length + gap)) none).Holds (partway kept (gap + 1) cells) := by
  have hlen : (kept.map some ++ List.replicate gap (none : Option α)).length = kept.length + gap := by
    simp
  rw [partway_next] at h
  have hset := h.setSlot none
  rwa [hlen, ← partway_next, partway_empty] at hset

/-- An item that is kept goes behind those kept before. -/
theorem Holds.putBack {kept : List α} {gap : Nat} (h : r.Holds (partway kept (gap + 1) cells))
    (x : α) : (r.setSlot (r.index kept.length) (some x)).Holds (partway (kept ++ [x]) gap cells) := by
  rw [partway_hole] at h
  have hset := h.setSlot (some x)
  rwa [List.length_map, partway_kept] at hset

/-- Slots at the end are given up. -/
theorem Holds.truncate {front back : List (Option α)} (h : r.Holds (front ++ back)) :
    Holds { r with len := front.length } front where
  bucket_pos := h.bucket_pos
  len_eq := rfl
  len_le := by
    have hle := h.len_le
    rw [h.len_eq, List.length_append] at hle
    exact Nat.le_trans (Nat.le_add_right _ _) hle
  first_lt := h.first_lt
  slot := fun i x hi => h.slot i x (by
    rw [List.getElem?_append_left (List.getElem?_eq_some_iff.1 hi).1, hi])

/-- What clearing does to items, one after another: those that are kept, and the panic that ends it, if
one does, with the items it did not come to. -/
def sift (keep : α → Except Panic Bool) : List α → List α × Option (Panic × List α)
  | [] => ([], none)
  | x :: items =>
    match keep x with
    | .error panic => ([], some (panic, items))
    | .ok false => sift keep items
    | .ok true => (x :: (sift keep items).1, (sift keep items).2)

theorem sift_of_total (p : α → Bool) (items : List α) :
    sift (fun x => .ok (p x)) items = (items.filter p, none) := by
  induction items with
  | nil => rfl
  | cons x items ih => cases hp : p x <;> simp [sift, hp, ih]

theorem sift_sublist (keep : α → Except Panic Bool) (items : List α) :
    ((sift keep items).1 ++ ((sift keep items).2.map (·.2)).getD []).Sublist items := by
  induction items with
  | nil => exact List.Sublist.slnil
  | cons x items ih =>
    unfold sift
    rcases keep x with panic | _ | _
    · exact List.sublist_cons_self x items
    · exact ih.cons x
    · exact ih.cons_cons x

/-- Clearing sifts the items; an abandoned clearing leaves at least one empty cell between what is kept
and what it did not come to. -/
theorem Holds.retainLoop {kept : List α} {gap : Nat} (h : r.Holds (partway kept gap cells))
    (keep : α → Except Panic Bool) :
    ∃ r' gap' cells',
      r'.Holds (partway (kept ++ (sift keep (cells.filterMap id)).1) gap' cells') ∧
      match (sift keep (cells.filterMap id)).2 with
      | none => cells' = [] ∧
          Ring.retainLoop keep cells.length (kept.length + gap) kept.length r =
            (r', .ok (kept ++ (sift keep (cells.filterMap id)).1).length)
      | some (panic, items) => 0 < gap' ∧ cells'.filterMap id = items ∧
          Ring.retainLoop keep cells.length (kept.length + gap) kept.length r =
            (r', .error panic) := by
  induction cells generalizing r kept gap with
  | nil => exact ⟨r, gap, [], by simpa [sift] using h, rfl, by simp [Ring.retainLoop, sift]⟩
  | cons cell cells ih =>
    have hnext := h.next
    rcases cell with _ | x
    · rw [partway_empty] at h
      have hrest := ih h
      simp only [List.length_cons, Ring.retainLoop, hnext, Option.join_some, Nat.add_assoc] at hrest ⊢
      exact hrest
    · have htaken := h.takeOut
      simp only [List.length_cons, Ring.retainLoop, hnext, Option.join_some, List.filterMap_cons, id,
        sift]
      rcases keep x with panic | _ | _
      · exact ⟨_, gap + 1, cells, by rw [List.append_nil]; exact htaken, Nat.succ_pos gap, rfl, rfl⟩
      · have hrest := ih htaken
        rw [← Nat.add_assoc] at hrest
        exact hrest
      · have hput := htaken.putBack x
        rw [index_setSlot] at hput
        have hrest := ih hput
        simp only [List.length_append, List.length_singleton, List.append_assoc,
          List.singleton_append, Nat.add_right_comm _ 1 gap] at hrest
        simp only [List.length_append]
        exact hrest

theorem len_retainLoop (keep : α → Except Panic Bool) (todo step kept : Nat) (r : Ring α) :
    (Ring.retainLoop keep todo step kept r).1.len = r.len := by
  fun_induction Ring.retainLoop keep todo step kept r with
  | case1 => rfl
  | case2 step kept r todo i hslot ih => exact ih
  | case3 => rfl
  | case4 step kept r todo i x hslot taken hkeep ih => exact ih
  | case5 step kept r todo i x hslot target taken hkeep ih => exact ih

/-- However far a clearing comes, it only moves items. -/
theorem retainLoop_frame (keep : α → Except Panic Bool) (todo step kept : Nat) (r : Ring α) :
    (Ring.retainLoop keep todo step kept r).1.first = r.first ∧
      (Ring.retainLoop keep todo step kept r).1.bucket = r.bucket ∧
      (Ring.retainLoop keep todo step kept r).1.capacity = r.capacity := by
  fun_induction Ring.retainLoop keep todo step kept r with
  | case1 => exact ⟨rfl, rfl, rfl⟩
  | case2 step kept r todo i hslot ih => exact ih
  | case3 => exact ⟨rfl, rfl, capacity_setSlot _ _ _⟩
  | case4 step kept r todo i x hslot taken hkeep ih =>
    exact ⟨ih.1, ih.2.1, ih.2.2.trans (capacity_setSlot _ _ _)⟩
  | case5 step kept r todo i x hslot target taken hkeep ih =>
    exact ⟨ih.1, ih.2.1, ih.2.2.trans ((capacity_setSlot taken target (some x)).trans
      (capacity_setSlot _ _ _))⟩

/-- A clearing comes to its end, with the items that are kept, or is abandoned part of the way. -/
theorem Holds.retain_cases (h : r.Holds cells) (keep : α → Except Panic Bool) :
    ∃ r' kept,
      (sift keep (cells.filterMap id) = (kept, none) ∧
        r.retain keep = (r', .ok (cells.length - kept.length)) ∧ r'.Holds (kept.map some)) ∨
      ∃ panic items gap cells', sift keep (cells.filterMap id) = (kept, some (panic, items)) ∧
        r.retain keep = (r', .error panic) ∧ r'.Holds (partway kept gap cells') ∧ 0 < gap ∧
        cells'.filterMap id = items ∧ r'.len = r.len := by
  have hbounds : ¬ (r.len ≠ 0 ∧ r.capacity = 0) := by
    have := h.len_le
    omega
  have hstart : r.Holds (partway [] 0 cells) := h
  obtain ⟨r', gap, cells', hholds, hloop⟩ := hstart.retainLoop keep
  have hlen := len_retainLoop keep cells.length 0 0 r
  simp only [List.nil_append, List.length_nil, Nat.add_zero] at hholds hloop
  rw [Ring.retain, if_neg hbounds, h.len_eq]
  rcases hsift : sift keep (cells.filterMap id) with ⟨kept, _ | ⟨panic, items⟩⟩
  · rw [hsift] at hloop hholds
    obtain ⟨rfl, hloop⟩ := hloop
    rw [partway] at hholds
    have hkept := hholds.truncate
    rw [List.length_map] at hkept
    rw [hloop]
    exact ⟨_, kept, .inl ⟨rfl, rfl, hkept⟩⟩
  · rw [hsift] at hloop hholds
    obtain ⟨hgap, hitems, hloop⟩ := hloop
    rw [hloop] at hlen ⊢
    exact ⟨r', kept, .inr ⟨panic, items, gap, cells', rfl, rfl, hholds, hgap, hitems,
      hlen.trans h.len_eq⟩⟩

/-- A clearing that comes to its end leaves the items that are kept, and tells how many cells that
freed. -/
theorem Holds.retain (h : r.Holds cells) (p : α → Bool) :
    (r.retain fun x => .ok (p x)).2 = .ok (cells.length - ((cells.filterMap id).filter p).length) ∧
      (r.retain fun x => .ok (p x)).1.Holds (((cells.filterMap id).filter p).map some) := by
  obtain ⟨r', kept, ⟨hsift, hretain, hkept⟩ | ⟨panic, items, gap, cells', hsift, -⟩⟩ :=
    h.retain_cases fun x => .ok (p x)
  · rw [sift_of_total] at hsift
    cases hsift
    rw [hretain]
    exact ⟨rfl, hkept⟩
  · rw [sift_of_total] at hsift
    cases hsift

/-- However a clearing ends, items are left in their order. -/
theorem Holds.retain_sublist (h : r.Holds cells) (keep : α → Except Panic Bool) :
    ∃ cells', (r.retain keep).1.Holds cells' ∧
      (cells'.filterMap id).Sublist (cells.filterMap id) := by
  have hsub := sift_sublist keep (cells.filterMap id)
  obtain ⟨r', kept, ⟨hsift, hretain, hkept⟩ |
    ⟨panic, items, gap, cells', hsift, hretain, hkept, -, hitems, -⟩⟩ := h.retain_cases keep
  · rw [hsift] at hsub
    rw [hretain]
    exact ⟨kept.map some, hkept, by simpa using hsub⟩
  · rw [hsift] at hsub
    rw [hretain]
    refine ⟨partway kept gap cells', hkept, ?_⟩
    rw [filterMap_partway, hitems]
    exact hsub

end

end ChunkRouter.Work.Ring
