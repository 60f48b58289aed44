import ChunkRouter.Memory
import ChunkRouter.Proofs.Work.Ring

/-!
# Rings within their slots

A ring is an array, and its operations work with sums, remainders and places in it. Here each of them is
written down once more with every step checked: a sum that is no size, a remainder by no slots, a slot that
is not there and a split behind the end are panics, and so is a growth for which there is no memory.
`refines_list` says that no check but the last one ever fails, that an operation which fails it leaves the
ring as it was, that the slots in use, and no others, hold the items of a list, and that every operation is
the one on that list. `push_beyond_memory` is a growth that does fail.
-/

namespace ChunkRouter.Work

/-- A slot was asked for that is not there. -/
def outOfBounds (size i : Nat) : Panic := ⟨s!"index out of bounds: the len is {size} but the index is {i}"⟩

/-- The slots were to be split behind their end. -/
def splitBehindEnd : Panic := ⟨"mid > len"⟩

namespace Ring

variable {α : Type}

/-! ## Checked accesses -/

/-- The number of the slot that is `i` behind the first. -/
def place (r : Ring α) (i : Nat) : Except Panic Nat :=
  if Memory.sizeLimit < r.first + i then .error .sumOverflow
  else if r.capacity = 0 then .error .remainderByZero
  else .ok ((r.first + i) % r.capacity)

/-- What a slot holds. -/
def load (r : Ring α) (i : Nat) : Except Panic (Option α) :=
  if h : i < r.slots.size then .ok r.slots[i] else .error (outOfBounds r.slots.size i)

def store (r : Ring α) (i : Nat) (v : Option α) : Except Panic (Ring α) :=
  if i < r.slots.size then .ok (r.setSlot i v) else .error (outOfBounds r.slots.size i)

section

variable {r : Ring α} {i : Nat}

/-- A slot can be numbered as long as its number is a size. -/
theorem place_eq_ok (h : 0 < r.capacity) (hsum : r.first + i ≤ Memory.sizeLimit) :
    r.place i = .ok (r.index i) := by
  rw [place, if_neg (Nat.not_lt.2 hsum), if_neg (Nat.ne_of_gt h)]
  rfl

/-- Where the slots are in memory, twice their number is a size. -/
theorem add_le_sizeLimit {n : Nat} (hn : n ≤ Memory.bufferLimit) {a b : Nat} (ha : a ≤ n) (hb : b ≤ n) :
    a + b ≤ Memory.sizeLimit := by
  have htwice : Memory.bufferLimit + Memory.bufferLimit ≤ Memory.sizeLimit := by decide
  omega

theorem load_eq_ok (h : i < r.slots.size) : r.load i = .ok r.slots[i]?.join := by
  rw [load, dif_pos h, Array.getElem?_eq_getElem h, Option.join_some]

theorem store_eq_ok (h : i < r.slots.size) (v : Option α) : r.store i v = .ok (r.setSlot i v) := by
  rw [store, if_pos h]

end

/-! ## Checked operations -/

/-- Ask for the memory of a growth, to slots of `slot` bytes, and grow. -/
def checkedGrow (slot : Nat) (r : Ring α) : Except Panic (Ring α) := do
  Memory.extend slot r.capacity r.bucket
  if r.first ≤ r.slots.size then .ok r.grow else .error splitBehindEnd

def checkedPut (r : Ring α) (x : α) : Except Panic (Ring α) := do
  let i ← r.place r.len
  let filled ← r.store i (some x)
  return { filled with len := r.len + 1 }

/-- Ask for the memory of a push: where all slots are in use, for another bucket of them. -/
def reserveBucket (slot : Nat) (r : Ring α) : Except Panic Unit :=
  if r.len = r.capacity then Memory.extend slot r.capacity r.bucket else .ok ()

def checkedPush (slot : Nat) (r : Ring α) (x : α) : Except Panic (Ring α) :=
  if r.len = r.capacity then r.checkedGrow slot >>= fun grown => grown.checkedPut x else r.checkedPut x

def checkedPop (r : Ring α) : Except Panic (Ring α × Option α) :=
  if r.len = 0 then .ok (r, none)
  else do
    let held ← r.load r.first
    let emptied ← r.store r.first none
    let next ← emptied.place 1
    return ({ emptied with first := next, len := r.len - 1 }, held)

def checkedPopLoop : Nat → Ring α → List α → Except Panic (Ring α × List α)
  | 0, r, acc => .ok (r, acc.reverse)
  | n + 1, r, acc => do
    match ← r.checkedPop with
    | (r, none) => return (r, acc.reverse)
    | (r, some x) => checkedPopLoop n r (x :: acc)

def checkedRelease (r : Ring α) : Except Panic (Ring α × List α) := do
  let (r, items) ← r.checkedPopLoop r.len []
  return ({ r with slots := #[], first := 0 }, items)

def checkedRetainLoop (p : α → Bool) : (todo step kept : Nat) → Ring α → Except Panic (Ring α × Nat)
  | 0, _, kept, r => .ok (r, kept)
  | todo + 1, step, kept, r => do
    let i ← r.place step
    match ← r.load i with
    | none => checkedRetainLoop p todo (step + 1) kept r
    | some x =>
      let taken ← r.store i none
      if p x then
        let target ← taken.place kept
        let moved ← taken.store target (some x)
        checkedRetainLoop p todo (step + 1) (kept + 1) moved
      else checkedRetainLoop p todo (step + 1) kept taken

def checkedRetain (p : α → Bool) (r : Ring α) : Except Panic (Ring α × Nat) := do
  let (r', kept) ← checkedRetainLoop p r.len 0 0 r
  return ({ r' with len := kept }, r.len - kept)

/-! ## Items and nothing else -/

/-- No item is anywhere but in the slots in use. -/
def Tidy (r : Ring α) : Prop := ∀ j x, r.slots[j]? = some (some x) → ∃ i, i < r.len ∧ r.index i = j

/-- The slots in use hold these items, the others hold nothing, and all of them fit in memory. -/
structure HoldsOnly (r : Ring α) (items : List α) : Prop where
  holds : r.Holds (items.map some)
  first_le : r.first ≤ r.slots.size
  fits : r.capacity ≤ Memory.bufferLimit
  tidy : r.Tidy

theorem holdsOnly_new {capacity : Nat} (hfits : capacity ≤ Memory.bufferLimit) (bucket : Nat) :
    (new capacity bucket : Ring α).HoldsOnly [] where
  holds := holds_new capacity bucket
  first_le := Nat.zero_le _
  fits := by simpa [new, Ring.capacity] using hfits
  tidy := fun j x h => by
    obtain ⟨hj, hnone⟩ := Array.getElem?_eq_some_iff.1 h
    simp [new] at hnone

section

variable {r : Ring α} {items : List α}

theorem HoldsOnly.len_eq (h : r.HoldsOnly items) : r.len = items.length := by
  rw [h.holds.len_eq, List.length_map]

/-- A slot is in use just when it holds an item. -/
theorem HoldsOnly.occupied_iff (h : r.HoldsOnly items) (j : Nat) :
    (∃ x, r.slots[j]? = some (some x)) ↔ ∃ i, i < r.len ∧ r.index i = j := by
  refine ⟨fun ⟨x, hx⟩ => h.tidy j x hx, ?_⟩
  rintro ⟨i, hi, rfl⟩
  rw [h.len_eq] at hi
  exact ⟨items[i], h.holds.slot i _ (by rw [List.getElem?_map, List.getElem?_eq_getElem hi]; rfl)⟩

/-! ### Pushing -/

theorem HoldsOnly.checkedPut (h : r.HoldsOnly items) (hroom : r.len < r.capacity) (x : α) :
    r.checkedPut x = .ok (r.put x) := by
  have hsum := add_le_sizeLimit h.fits h.first_le h.holds.len_le
  rw [Ring.checkedPut, place_eq_ok (Nat.zero_lt_of_lt hroom) hsum]
  show (r.store (r.index r.len) (some x) >>= _) = _
  rw [store_eq_ok (index_lt r hroom)]
  rfl

theorem HoldsOnly.put (h : r.HoldsOnly items) (hroom : r.len < r.capacity) (x : α) :
    (r.put x).HoldsOnly (items ++ [x]) where
  holds := by
    rw [List.map_append]
    exact h.holds.put hroom x
  first_le := by
    show r.first ≤ (r.slots.setIfInBounds _ _).size
    rw [Array.size_setIfInBounds]
    exact h.first_le
  fits := by
    show (r.slots.setIfInBounds _ _).size ≤ _
    rw [Array.size_setIfInBounds]
    exact h.fits
  tidy := by
    intro j y hj
    have hindex : ∀ i, (r.put x).index i = r.index i := fun i => by simp [Ring.put, index, capacity]
    rw [show (r.put x).slots = r.slots.setIfInBounds (r.index r.len) (some x) from rfl,
      Array.getElem?_setIfInBounds] at hj
    split at hj
    · rename_i heq
      exact ⟨r.len, Nat.lt_succ_self _, (hindex _).trans heq⟩
    · obtain ⟨i, hi, hplace⟩ := h.tidy j y hj
      exact ⟨i, Nat.lt_succ_of_lt hi, (hindex i).trans hplace⟩

theorem HoldsOnly.grow (h : r.HoldsOnly items) (hfits : r.capacity + r.bucket ≤ Memory.bufferLimit) :
    r.grow.HoldsOnly items where
  holds := h.holds.grow.1
  first_le := Nat.zero_le _
  fits := (capacity_grow r).symm ▸ hfits
  tidy := by
    intro j x hj
    have hroom := h.holds.grow.2
    have hsize := h.holds.size_occupied
    rw [grow_eq] at hj
    have hlt : j < r.len := by
      refine Nat.lt_of_not_le fun hle => ?_
      rw [Array.getElem?_append_right (by rw [hsize]; exact hle)] at hj
      obtain ⟨hj', hnone⟩ := Array.getElem?_eq_some_iff.1 hj
      rw [Array.getElem_replicate] at hnone
      cases hnone
    refine ⟨j, hlt, ?_⟩
    show (0 + j) % r.grow.capacity = j
    rw [Nat.zero_add]
    exact Nat.mod_eq_of_lt (Nat.lt_trans hlt hroom)

/-- A push needs memory only, and that only where all slots are in use. -/
theorem HoldsOnly.push (h : r.HoldsOnly items) {slot : Nat} (hslot : 0 < slot) (x : α) :
    (r.reserveBucket slot = .ok () ∧ r.checkedPush slot x = .ok (r.push x) ∧
        (r.push x).HoldsOnly (items ++ [x])) ∨
      ∃ panic, r.reserveBucket slot = .error panic ∧ r.checkedPush slot x = .error panic := by
  unfold reserveBucket checkedPush Ring.push
  by_cases hfull : r.len = r.capacity
  · simp only [if_pos hfull, checkedGrow]
    cases hmemory : Memory.extend slot r.capacity r.bucket with
    | error panic => exact .inr ⟨panic, rfl, rfl⟩
    | ok u =>
      have hroom := h.holds.grow.2
      have hgrown := h.grow (Memory.le_of_mul_le hslot (Memory.extend_eq_ok_iff.1 hmemory).2)
      refine .inl ⟨rfl, ?_, hgrown.put hroom x⟩
      rw [if_pos h.first_le]
      exact hgrown.checkedPut hroom x
  · have hroom := Nat.lt_of_le_of_ne h.holds.len_le hfull
    simp only [if_neg hfull]
    exact .inl ⟨trivial, h.checkedPut hroom x, h.put hroom x⟩

/-! ### Popping -/

theorem Holds.checkedPop {cells : List (Option α)} (h : r.Holds cells)
    (hfits : r.capacity ≤ Memory.bufferLimit) : r.checkedPop = .ok r.pop := by
  rcases Nat.eq_zero_or_pos r.len with hzero | hpos
  · rw [Ring.checkedPop, if_pos hzero, pop_of_len_eq_zero hzero]
  · have hcapacity : 0 < r.capacity := Nat.lt_of_lt_of_le hpos h.len_le
    have hfirst : r.first < r.slots.size := h.first_lt hcapacity
    rw [Ring.checkedPop, if_neg (Nat.ne_of_gt hpos), load_eq_ok hfirst, store_eq_ok hfirst,
      pop_of_len_pos hpos]
    show ((r.setSlot r.first none).place 1 >>= _) = _
    have hsum : r.first + 1 ≤ Memory.sizeLimit :=
      add_le_sizeLimit hfits (Nat.le_of_lt hfirst) hcapacity
    have hemptied : 0 < (r.setSlot r.first none).capacity := by
      rw [capacity_setSlot]
      exact hcapacity
    rw [place_eq_ok hemptied hsum, index_setSlot]
    rfl

theorem HoldsOnly.pop (h : r.HoldsOnly items) :
    r.checkedPop = .ok r.pop ∧ r.pop.2 = items.head? ∧ r.pop.1.HoldsOnly items.tail := by
  refine ⟨h.holds.checkedPop h.fits, ?_⟩
  rcases items with _ | ⟨x, items⟩
  · rw [pop_of_len_eq_zero h.len_eq]
    exact ⟨rfl, h⟩
  obtain ⟨hpop, hrest⟩ := Holds.pop (x := some x) h.holds
  have hpos : 0 < r.len := by rw [h.len_eq]; exact Nat.succ_pos _
  have hcapacity : 0 < r.capacity := Nat.lt_of_lt_of_le hpos h.holds.len_le
  rw [hpop]
  refine ⟨rfl, hrest, ?_, (capacity_rest r).symm ▸ h.fits, ?_⟩
  · show (r.first + 1) % r.capacity ≤ (r.slots.setIfInBounds _ _).size
    rw [Array.size_setIfInBounds]
    exact Nat.le_of_lt (Nat.mod_lt _ hcapacity)
  · intro j y hj
    rw [show r.rest.slots = r.slots.setIfInBounds r.first none from rfl,
      Array.getElem?_setIfInBounds] at hj
    split at hj
    · split at hj <;> cases hj
    · rename_i hne
      obtain ⟨i, hi, hplace⟩ := h.tidy j y hj
      rcases i with _ | i
      · rw [index, Nat.add_zero, Nat.mod_eq_of_lt (h.holds.first_lt hcapacity)] at hplace
        exact absurd hplace hne
      · exact ⟨i, Nat.lt_pred_of_succ_lt hi, (index_rest r i).trans hplace⟩

theorem HoldsOnly.popLoop (h : r.HoldsOnly items) (n : Nat) (acc : List α) :
    checkedPopLoop n r acc = .ok (Ring.popLoop n r acc) := by
  induction n generalizing r items acc with
  | zero => rfl
  | succ n ih =>
    obtain ⟨hchecked, -, hrest⟩ := h.pop
    rw [checkedPopLoop, hchecked, Ring.popLoop]
    rcases hpop : r.pop with ⟨r', _ | x⟩ <;> rw [hpop] at hrest
    · rfl
    · exact ih hrest (x :: acc)

theorem HoldsOnly.release (h : r.HoldsOnly items) :
    r.checkedRelease = .ok r.release ∧ r.release.2 = items ∧ r.release.1.HoldsOnly [] := by
  obtain ⟨hitems, hholds⟩ := h.holds.release_of_items
  refine ⟨?_, hitems, hholds, Nat.le_refl 0, Nat.zero_le _, fun j x hj => ?_⟩
  · rw [checkedRelease, h.popLoop]
    rfl
  · cases hj

/-! ### Clearing -/

/-- Clearing looks at slots in use only. -/
theorem checkedRetainLoop_eq_ok (p : α → Bool) {todo step kept : Nat} (hkept : kept ≤ step)
    (hbound : step + todo ≤ r.capacity) (hsum : r.first + (step + todo) ≤ Memory.sizeLimit) :
    ∃ r' n, Ring.retainLoop (fun x => .ok (p x)) todo step kept r = (r', .ok n) ∧
      checkedRetainLoop p todo step kept r = .ok (r', n) := by
  induction todo generalizing step kept r with
  | zero => exact ⟨r, kept, rfl, rfl⟩
  | succ todo ih =>
    have hstep : step < r.capacity := by omega
    have hcapacity : 0 < r.capacity := Nat.zero_lt_of_lt hstep
    have hslot := index_lt r hstep
    have hnext : ∀ {s : Ring α} {k : Nat}, s.capacity = r.capacity → s.first = r.first →
        k ≤ step + 1 →
        ∃ r' n, Ring.retainLoop (fun x => .ok (p x)) todo (step + 1) k s = (r', .ok n) ∧
          checkedRetainLoop p todo (step + 1) k s = .ok (r', n) := by
      intro s k hs hfirst hk
      exact ih hk (by omega) (by omega)
    rw [checkedRetainLoop, place_eq_ok hcapacity (by omega)]
    show ∃ r' n, _ ∧ (r.load (r.index step) >>= _) = _
    rw [load_eq_ok hslot, Ring.retainLoop]
    rcases hcell : r.slots[r.index step]?.join with _ | x
    · exact hnext rfl rfl (by omega)
    · show ∃ r' n, _ ∧ (r.store (r.index step) none >>= _) = _
      rw [store_eq_ok hslot]
      cases hp : p x with
      | false =>
        simp only [hp]
        exact hnext (capacity_setSlot r _ none) rfl (by omega)
      | true =>
        have htaken : 0 < (r.setSlot (r.index step) none).capacity := by
          rw [capacity_setSlot]
          exact hcapacity
        have htarget : r.index kept < (r.setSlot (r.index step) none).slots.size := by
          show r.index kept < (r.setSlot (r.index step) none).capacity
          rw [capacity_setSlot]
          exact index_lt r (by omega)
        simp only [hp]
        show ∃ r' n, _ ∧ ((r.setSlot (r.index step) none).place kept >>= _) = _
        have hkeep : (r.setSlot (r.index step) none).first + kept ≤ Memory.sizeLimit := by
          show r.first + kept ≤ _
          omega
        rw [place_eq_ok htaken hkeep, index_setSlot]
        show ∃ r' n, _ ∧ ((r.setSlot (r.index step) none).store (r.index kept) (some x) >>= _) = _
        rw [store_eq_ok htarget]
        exact hnext ((capacity_setSlot _ _ _).trans (capacity_setSlot _ _ _)) rfl (by omega)

/-- Whatever is put into a slot in use, no item gets into the others. -/
theorem Tidy.setSlot (h : r.Tidy) {k : Nat} (hk : k < r.len) (v : Option α) :
    (r.setSlot (r.index k) v).Tidy := by
  intro j x hj
  simp only [index_setSlot]
  show ∃ i, i < r.len ∧ r.index i = j
  rw [Ring.setSlot, Array.getElem?_setIfInBounds] at hj
  split at hj
  · rename_i heq
    exact ⟨k, hk, heq⟩
  · exact h j x hj

theorem Tidy.retainLoop (h : r.Tidy) (keep : α → Except Panic Bool) {todo step kept : Nat}
    (hkept : kept ≤ step) (hbound : step + todo ≤ r.len) :
    (Ring.retainLoop keep todo step kept r).1.Tidy := by
  induction todo generalizing step kept r with
  | zero => exact h
  | succ todo ih =>
    have hstep : step < r.len := by omega
    have htaken := h.setSlot hstep none
    rw [Ring.retainLoop]
    rcases r.slots[r.index step]?.join with _ | x
    · exact ih h (by omega) (by omega)
    · rcases hk : keep x with panic | _ | _ <;> simp only [hk]
      · exact htaken
      · exact ih htaken (by omega) (show step + 1 + todo ≤ r.len by omega)
      · have hmoved := htaken.setSlot (show kept < (r.setSlot (r.index step) none).len from
          Nat.lt_of_le_of_lt hkept hstep) (some x)
        rw [index_setSlot] at hmoved
        exact ih hmoved (by omega) (show step + 1 + todo ≤ r.len by omega)

/-- Slots that are empty may be given up. -/
theorem Tidy.truncate (h : r.Tidy) {n : Nat}
    (hempty : ∀ i, n ≤ i → i < r.len → r.slots[r.index i]? = some none) :
    Tidy { r with len := n } := by
  intro j x hj
  obtain ⟨i, hi, rfl⟩ := h j x hj
  refine ⟨i, Nat.lt_of_not_le fun hle => ?_, rfl⟩
  cases (hempty i hle hi).symm.trans hj

theorem HoldsOnly.retain (h : r.HoldsOnly items) (p : α → Bool) :
    ∃ r', r.retain (fun x => .ok (p x)) = (r', .ok (items.length - (items.filter p).length)) ∧
      r.checkedRetain p = .ok (r', items.length - (items.filter p).length) ∧
      r'.HoldsOnly (items.filter p) := by
  have hlen := h.len_eq
  have hle := h.holds.len_le
  have hitems : (items.map some).filterMap id = items := by
    rw [List.filterMap_map]
    exact List.filterMap_some
  have hbegin : r.Holds (partway [] 0 (items.map some)) := h.holds
  obtain ⟨r', gap, cells, hholds, hloop⟩ := hbegin.retainLoop fun x => .ok (p x)
  rw [hitems, sift_of_total, List.length_map, ← hlen] at hloop
  rw [hitems, sift_of_total] at hholds
  obtain ⟨rfl, hloop⟩ := hloop
  simp only [List.nil_append, List.length_nil, Nat.add_zero] at hloop hholds
  have hbound : 0 + r.len ≤ r.capacity := by omega
  have hsum : r.first + (0 + r.len) ≤ Memory.sizeLimit :=
    add_le_sizeLimit h.fits h.first_le (by omega)
  obtain ⟨r'', n, hloop', hchecked⟩ := checkedRetainLoop_eq_ok p (Nat.le_refl 0) hbound hsum
  cases hloop.symm.trans hloop'
  have htidy := h.tidy.retainLoop (fun x => .ok (p x)) (Nat.le_refl 0) (show 0 + r.len ≤ r.len by omega)
  have hframe := retainLoop_frame (fun x => .ok (p x)) r.len 0 0 r
  rw [hloop] at htidy hframe
  have hfirst : r'.first ≤ r'.capacity := by
    rw [hframe.1, hframe.2.2]
    exact h.first_le
  have hcapacity : r'.capacity ≤ Memory.bufferLimit := hframe.2.2 ▸ h.fits
  refine ⟨{ r' with len := (items.filter p).length }, ?_, ?_, ?_, hfirst, hcapacity, htidy.truncate ?_⟩
  · rw [Ring.retain, if_neg (by omega), hloop, hlen]
  · rw [checkedRetain, hchecked, hlen]
    rfl
  · have hkept := hholds.truncate
    rwa [List.length_map] at hkept
  · intro i hge hlt
    refine hholds.slot i none ?_
    have hgap : r'.len = ((items.filter p).map some ++ (List.replicate gap none ++ [])).length :=
      hholds.len_eq
    rw [hgap, List.length_append, List.length_map, List.append_nil, List.length_replicate] at hlt
    rw [partway, List.getElem?_append_right (by rw [List.length_map]; exact hge), List.append_nil,
      List.length_map, List.getElem?_replicate, if_pos (by omega)]

end

/-! ## Any use of a ring -/

/-- What may be done to a ring. -/
inductive Op (α : Type) where
  | push (x : α)
  | pop
  | retain (p : α → Bool)
  | release

/-- What an operation gives back. -/
inductive Answer (α : Type) where
  | done
  | item (x : Option α)
  | freed (n : Nat)
  | items (xs : List α)

def apply (r : Ring α) : Op α → Ring α × Except Panic (Answer α)
  | .push x => (r.push x, .ok .done)
  | .pop => (r.pop.1, .ok (.item r.pop.2))
  | .retain p =>
    ((r.retain fun x => .ok (p x)).1, (r.retain fun x => .ok (p x)).2.map .freed)
  | .release => (r.release.1, .ok (.items r.release.2))

/-- Ask for the memory of an operation, to slots of `slot` bytes. -/
def reserve (slot : Nat) (r : Ring α) : Op α → Except Panic Unit
  | .push _ => r.reserveBucket slot
  | _ => .ok ()

/-- An operation with every step checked. -/
def checkedApply (slot : Nat) (r : Ring α) : Op α → Except Panic (Ring α × Answer α)
  | .push x => (r.checkedPush slot x).map fun r => (r, .done)
  | .pop => r.checkedPop.map fun (r, x) => (r, .item x)
  | .retain p => (r.checkedRetain p).map fun (r, n) => (r, .freed n)
  | .release => r.checkedRelease.map fun (r, items) => (r, .items items)

/-- The operations on a list. -/
def Op.onList (items : List α) : Op α → List α × Answer α
  | .push x => (items ++ [x], .done)
  | .pop => (items.tail, .item items.head?)
  | .retain p => (items.filter p, .freed (items.length - (items.filter p).length))
  | .release => ([], .items items)

/-- A ring, and the list it is to be. -/
structure Pair (α : Type) where
  ring : Ring α
  items : List α

/-- Do the same to a ring and to the list. Where the ring panics, nothing is done to either. -/
def Pair.step (slot : Nat) (p : Pair α) (op : Op α) : Pair α :=
  match p.ring.checkedApply slot op with
  | .ok (r, _) => ⟨r, (op.onList p.items).1⟩
  | .error _ => p

/-- A ring and a list after any operations. -/
def run (slot capacity bucket : Nat) (ops : List (Op α)) : Pair α :=
  ops.foldl (Pair.step slot) ⟨new capacity bucket, []⟩

section

variable {r : Ring α} {items : List α}

/-- Every operation is the one on the list, and nothing fails in it but the memory it asks for. -/
theorem HoldsOnly.apply (h : r.HoldsOnly items) {slot : Nat} (hslot : 0 < slot) (op : Op α) :
    (r.reserve slot op = .ok () ∧ ∃ r', r.apply op = (r', .ok (op.onList items).2) ∧
        r.checkedApply slot op = .ok (r', (op.onList items).2) ∧ r'.HoldsOnly (op.onList items).1) ∨
      ∃ panic, r.reserve slot op = .error panic ∧ r.checkedApply slot op = .error panic := by
  cases op with
  | push x =>
    rcases h.push hslot x with ⟨hmemory, hchecked, hpush⟩ | ⟨panic, hmemory, hchecked⟩
    · exact .inl ⟨hmemory, r.push x, rfl, by rw [checkedApply, hchecked]; rfl, hpush⟩
    · exact .inr ⟨panic, hmemory, by rw [checkedApply, hchecked]; rfl⟩
  | pop =>
    obtain ⟨hchecked, hhead, htail⟩ := h.pop
    refine .inl ⟨rfl, r.pop.1, by rw [Ring.apply, hhead]; rfl, ?_, htail⟩
    rw [checkedApply, hchecked]
    show Except.ok (r.pop.1, Answer.item r.pop.2) = _
    rw [hhead]
    rfl
  | retain p =>
    obtain ⟨r', hretain, hchecked, hkept⟩ := h.retain p
    exact .inl ⟨rfl, r', by rw [Ring.apply, hretain]; rfl, by rw [checkedApply, hchecked]; rfl, hkept⟩
  | release =>
    obtain ⟨hchecked, hitems, hempty⟩ := h.release
    refine .inl ⟨rfl, r.release.1, by rw [Ring.apply, hitems]; rfl, ?_, hempty⟩
    rw [checkedApply, hchecked]
    show Except.ok (r.release.1, Answer.items r.release.2) = _
    rw [hitems]
    rfl

theorem holdsOnly_run {slot capacity : Nat} (hslot : 0 < slot)
    (hmemory : Memory.reserve slot capacity = .ok ()) (bucket : Nat) (ops : List (Op α)) :
    (run slot capacity bucket ops).ring.HoldsOnly (run slot capacity bucket ops).items := by
  unfold run
  suffices h : ∀ p : Pair α, p.ring.HoldsOnly p.items →
      (ops.foldl (Pair.step slot) p).ring.HoldsOnly (ops.foldl (Pair.step slot) p).items from
    h _ (holdsOnly_new (Memory.le_of_mul_le hslot (Memory.reserve_eq_ok_iff.1 hmemory)) bucket)
  induction ops with
  | nil => exact fun p h => h
  | cons op ops ih =>
    intro p h
    refine ih _ ?_
    unfold Pair.step
    rcases h.apply hslot op with ⟨-, r', -, hchecked, hnext⟩ | ⟨panic, -, hchecked⟩
    · rw [hchecked]
      exact hnext
    · rw [hchecked]
      exact h

/-- **A ring is a list, as far as memory goes.** Whatever capacity it began with, none included, and
whatever was done to it, giving everything away included: as many slots are in use as the list has items,
from the first on and around the end, no two of them are the same, and no other slot holds an item. Read in
that order they are the list. The next operation, whichever it is, comes to the same with every step checked
as without, and answers as on the list, so that no slot is asked for that is not there and no remainder by
zero is taken; popping yields nothing just when the list is empty. The one exception is a push that finds
all slots in use and no memory for another bucket of them: it panics, and an operation that panics leaves
the ring as it was. -/
theorem refines_list (slot : Nat) (hslot : 0 < slot) (capacity : Nat)
    (hmemory : Memory.reserve slot capacity = .ok ()) (bucket : Nat) (ops : List (Op α)) :
    let p := run slot capacity bucket ops
    let r := p.ring
    let items := p.items
    r.len = items.length ∧ r.len ≤ r.capacity ∧
      (∀ i j, i < r.len → j < r.len →
        (r.first + i) % r.capacity = (r.first + j) % r.capacity → i = j) ∧
      (∀ j, (∃ x, r.slots[j]? = some (some x)) ↔ ∃ i, i < r.len ∧ (r.first + i) % r.capacity = j) ∧
      (∀ i, i < r.len → r.slots[(r.first + i) % r.capacity]?.join = items[i]?) ∧ r.toList = items ∧
      (r.pop.2 = none ↔ items = []) ∧
      (∀ op, r.reserve slot op = .ok () → ∃ r', r.apply op = (r', .ok (op.onList items).2) ∧
        r.checkedApply slot op = .ok (r', (op.onList items).2) ∧
        p.step slot op = ⟨r', (op.onList items).1⟩) ∧
      (∀ op panic, r.reserve slot op = .error panic →
        r.checkedApply slot op = .error panic ∧ p.step slot op = p) ∧
      (∀ op panic, r.reserve slot op = .error panic → (∃ x, op = .push x) ∧ r.len = r.capacity ∧
        ¬(r.capacity + r.bucket ≤ Memory.sizeLimit ∧
          slot * (r.capacity + r.bucket) ≤ Memory.bufferLimit)) := by
  intro p r items
  have h : r.HoldsOnly items := holdsOnly_run hslot hmemory bucket ops
  have hle := h.holds.len_le
  refine ⟨h.len_eq, hle, fun i j hi hj hsame => ?_, h.occupied_iff, fun i hi => ?_,
    h.holds.toList_of_items, ?_, fun op hgranted => ?_, fun op panic hrefused => ?_,
    fun op panic hrefused => ?_⟩
  · refine Classical.byContradiction fun hne => ?_
    have hfirst : r.first < r.capacity := h.holds.first_lt (by omega)
    exact index_ne r hfirst (by omega) (by omega) hne hsame
  · rw [h.len_eq] at hi
    have hslot := h.holds.slot i (some items[i])
      (by rw [List.getElem?_map, List.getElem?_eq_getElem hi]; rfl)
    rw [List.getElem?_eq_getElem hi]
    exact congrArg Option.join hslot
  · rw [h.pop.2.1, List.head?_eq_none_iff]
  · rcases h.apply hslot op with ⟨-, r', happly, hchecked, -⟩ | ⟨panic, hrefused, -⟩
    · refine ⟨r', happly, hchecked, ?_⟩
      show Pair.step slot p op = _
      rw [Pair.step, hchecked]
    · cases hgranted.symm.trans hrefused
  · rcases h.apply hslot op with ⟨hgranted, -⟩ | ⟨panic', hrefused', hchecked⟩
    · cases hgranted.symm.trans hrefused
    · cases hrefused.symm.trans hrefused'
      refine ⟨hchecked, ?_⟩
      rw [Pair.step, hchecked]
  · cases op with
    | push x =>
      have hrefused' : r.reserveBucket slot = .error panic := hrefused
      unfold reserveBucket at hrefused'
      split at hrefused'
      · refine ⟨⟨x, rfl⟩, by assumption, fun hroom => ?_⟩
        rw [Memory.extend_eq_ok_iff.2 hroom] at hrefused'
        cases hrefused'
      · cases hrefused'
    | _ => cases hrefused

/-- A ring without slots grows, wraps around, is cleared and released, and then used again. -/
theorem refines_list_used_again :
    (0 < 8 ∧ Memory.reserve 8 0 = .ok ()) ∧
      let p := run 8 0 2 [.push 1, .push 2, .pop, .push 3, .push 4, .retain (· ≠ 3), .release, .push 5]
      p.ring.toList = p.items ∧ p.items = [5] ∧ p.ring.capacity = 2 :=
  ⟨⟨by decide, rfl⟩, (refines_list 8 (by decide) 0 rfl 2 _).2.2.2.2.2.1, by decide, by decide⟩

/-- A ring of one slot whose bucket is larger than memory holds one item, and panics at the second. -/
theorem push_beyond_memory :
    let p := run 16 1 0x1000000000000000 [.push 1]
    p.ring.len = 1 ∧ p.ring.checkedApply 16 (.push 2) = .error .capacityOverflow ∧
      (p.step 16 (.push 2)).ring.toList = [1] :=
  ⟨rfl, rfl, rfl⟩

end

end Ring

end ChunkRouter.Work
