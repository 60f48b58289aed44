import ChunkRouter.Proofs.Work.Closing

/-!
# Capacities

A ring grows by a bucket when an item comes and no slot is free, and at no other time. So the slots of an
open queue are those that the largest length it ever had needs: `capacity_follows_peak` keeps that in closed
form through every use of a queue, wherever its ring wraps around and whatever was cleared or taken before.
-/

namespace ChunkRouter.Work

variable {α : Type}

/-! ## Slots of a ring -/

namespace Ring

theorem capacity_push (r : Ring α) (x : α) :
    (r.push x).capacity = if r.len = r.capacity then r.capacity + r.bucket else r.capacity := by
  unfold push
  split
  · rw [capacity_put, capacity_grow]
  · exact capacity_put r x

theorem len_push (r : Ring α) (x : α) : (r.push x).len = r.len + 1 := by
  unfold push
  split <;> rfl

theorem bucket_push (r : Ring α) (x : α) : (r.push x).bucket = r.bucket := by
  unfold push
  split <;> rfl

/-- A ring that came of another one without an item more. -/
structure Within (r' r : Ring α) : Prop where
  capacity_eq : r'.capacity = r.capacity
  bucket_eq : r'.bucket = r.bucket
  len_le : r'.len ≤ r.len

theorem within_refl (r : Ring α) : r.Within r := ⟨rfl, rfl, Nat.le_refl _⟩

theorem within_pop (r : Ring α) : r.pop.1.Within r := by
  unfold pop
  split
  · exact within_refl r
  · exact ⟨r.capacity_rest, rfl, Nat.sub_le _ _⟩

theorem within_popLoop (n : Nat) (r : Ring α) (acc : List α) : (popLoop n r acc).1.Within r := by
  induction n generalizing r acc with
  | zero => exact within_refl r
  | succ n ih =>
    have hpop := within_pop r
    rw [popLoop]
    rcases hfirst : r.pop with ⟨r', _ | x⟩ <;> rw [hfirst] at hpop
    · exact hpop
    · have hrest := ih r' (x :: acc)
      exact ⟨hrest.capacity_eq.trans hpop.capacity_eq, hrest.bucket_eq.trans hpop.bucket_eq,
        Nat.le_trans hrest.len_le hpop.len_le⟩

/-- No more items are kept than there are. -/
theorem kept_le {keep : α → Except Panic Bool} {todo step kept n : Nat} {r r' : Ring α}
    (h : retainLoop keep todo step kept r = (r', .ok n)) : n ≤ kept + todo := by
  fun_induction retainLoop keep todo step kept r with
  | case1 => cases h; exact Nat.le_refl _
  | case2 step kept r todo i hslot ih => exact Nat.le_succ_of_le (ih h)
  | case3 => cases (Prod.mk.inj h).2
  | case4 step kept r todo i x hslot taken hkeep ih => exact Nat.le_succ_of_le (ih h)
  | case5 step kept r todo i x hslot target taken hkeep ih =>
    have := ih h
    omega

theorem within_retain (r : Ring α) (keep : α → Except Panic Bool) : (r.retain keep).1.Within r := by
  obtain ⟨-, hbucket, hcapacity⟩ := retainLoop_frame keep r.len 0 0 r
  have hlen := len_retainLoop keep r.len 0 0 r
  unfold retain
  split
  · exact within_refl r
  · split <;> rename_i heq <;> rw [heq] at hbucket hcapacity hlen
    · exact ⟨hcapacity, hbucket, Nat.le_of_eq hlen⟩
    · have hkept := kept_le heq
      rw [Nat.zero_add] at hkept
      exact ⟨hcapacity, hbucket, hkept⟩

end Ring

/-! ## Slots that a length needs -/

namespace Settings

/-- How many buckets it takes for `peak` items, beside the slots there are from the beginning. -/
def bucketsFor (s : Settings) (peak : Nat) : Nat :=
  (peak - s.initialCapacity + s.bucketSize - 1) / s.bucketSize

def slotsFor (s : Settings) (peak : Nat) : Nat := s.initialCapacity + s.bucketSize * s.bucketsFor peak

variable {s : Settings} {peak n : Nat}

/-- So many buckets are enough just when all items have a slot. -/
theorem bucketsFor_le_iff : s.bucketsFor peak ≤ n ↔ peak ≤ s.initialCapacity + s.bucketSize * n := by
  have hpos := s.bucketSize_pos
  rw [bucketsFor, Nat.div_le_iff_le_mul_add_pred hpos]
  omega

theorem le_slotsFor (s : Settings) (peak : Nat) : peak ≤ s.slotsFor peak :=
  bucketsFor_le_iff.1 (Nat.le_refl _)

theorem slotsFor_zero (s : Settings) : s.slotsFor 0 = s.initialCapacity := by
  have hnone : s.bucketsFor 0 = 0 := Nat.le_zero.1 (bucketsFor_le_iff.2 (Nat.zero_le _))
  rw [slotsFor, hnone, Nat.mul_zero, Nat.add_zero]

theorem bucketsFor_mono {m : Nat} (h : n ≤ m) : s.bucketsFor n ≤ s.bucketsFor m :=
  bucketsFor_le_iff.2 (Nat.le_trans h (s.le_slotsFor m))

/-- With a slot to spare one item more needs no other. -/
theorem slotsFor_succ_of_lt (h : peak < s.slotsFor peak) : s.slotsFor (peak + 1) = s.slotsFor peak := by
  have hsame : s.bucketsFor (peak + 1) = s.bucketsFor peak :=
    Nat.le_antisymm (bucketsFor_le_iff.2 h) (bucketsFor_mono (Nat.le_succ peak))
  rw [slotsFor, hsame, slotsFor]

/-- When every slot is taken one item more needs a bucket. -/
theorem slotsFor_succ_of_eq (h : s.slotsFor peak = peak) :
    s.slotsFor (peak + 1) = s.slotsFor peak + s.bucketSize := by
  have hpos := s.bucketSize_pos
  have hmore : s.bucketsFor (peak + 1) = s.bucketsFor peak + 1 := by
    refine Nat.le_antisymm (bucketsFor_le_iff.2 ?_) (Nat.succ_le_of_lt (Nat.lt_of_not_le fun hle => ?_))
    · rw [Nat.mul_succ, ← Nat.add_assoc]
      show peak + 1 ≤ s.slotsFor peak + s.bucketSize
      omega
    · have hfit : peak + 1 ≤ s.slotsFor peak := bucketsFor_le_iff.1 hle
      omega
  rw [slotsFor, hmore, Nat.mul_succ, ← Nat.add_assoc]
  rfl

end Settings

/-! ## Queues in use -/

namespace Queue

/-- A use of a queue whose slots have `slot` bytes. An offer for which there is no memory changes nothing. -/
def useWithin (slot : Nat) (q : Queue α) : Use α → Queue α
  | .enqueue x =>
    match q.reserveSlot slot with
    | .error _ => q
    | .ok () => q.use (.enqueue x)
  | u => q.use u

def usedWithin (slot : Nat) (q : Queue α) (uses : List (Use α)) : Queue α := uses.foldl (useWithin slot) q

/-- The largest length of a queue that is put to these uses. -/
def peak (slot : Nat) (q : Queue α) : List (Use α) → Nat
  | [] => q.len
  | u :: uses => max q.len ((q.useWithin slot u).peak slot uses)

/-- An open queue has the slots that a length of `peak` needs, and no more items than that. -/
structure Sized (q : Queue α) (s : Settings) (peak : Nat) : Prop where
  capacity_eq : q.capacity = s.slotsFor peak
  bucket_eq : q.ring.bucket = s.bucketSize
  len_le : q.len ≤ peak

variable {q : Queue α} {s : Settings} {n : Nat}

theorem sized_new (s : Settings) (started : Bool) : (new s started : Queue α).Sized s 0 where
  capacity_eq := by
    rw [Settings.slotsFor_zero]
    exact Array.size_replicate
  bucket_eq := Nat.max_eq_left s.bucketSize_pos
  len_le := Nat.le_refl 0

theorem Sized.len_le_capacity (h : q.Sized s n) : q.len ≤ q.capacity := by
  rw [h.capacity_eq]
  exact Nat.le_trans h.len_le (s.le_slotsFor n)

/-- Nothing more was put into the ring. -/
theorem Sized.within (h : q.Sized s n) {q' : Queue α} (hring : q'.ring.Within q.ring) :
    q'.Sized s (max n q'.len) := by
  have hle : q'.len ≤ n := Nat.le_trans hring.len_le h.len_le
  rw [Nat.max_eq_left hle]
  exact ⟨hring.capacity_eq.trans h.capacity_eq, hring.bucket_eq.trans h.bucket_eq, hle⟩

theorem Sized.push (h : q.Sized s n) {q' : Queue α} {x : α} (hring : q'.ring = q.ring.push x) :
    q'.Sized s (max n q'.len) := by
  have hlen : q'.len = q.len + 1 := by
    rw [Queue.len, hring]
    exact q.ring.len_push x
  have hcapacity : q'.capacity =
      if q.len = q.capacity then q.capacity + q.ring.bucket else q.capacity := by
    rw [Queue.capacity, hring]
    exact q.ring.capacity_push x
  have hbucket : q'.ring.bucket = s.bucketSize := by
    rw [hring, Ring.bucket_push, h.bucket_eq]
  have hle := h.len_le
  have hfit := s.le_slotsFor n
  refine ⟨?_, hbucket, Nat.le_max_right _ _⟩
  rw [hcapacity, h.capacity_eq, h.bucket_eq, hlen]
  by_cases hfull : q.len = s.slotsFor n
  · -- every slot is taken, so there never were more items than now
    have hn : n = q.len := by omega
    rw [if_pos hfull, Nat.max_eq_right (by omega), ← hn]
    exact (Settings.slotsFor_succ_of_eq (by omega)).symm
  · rw [if_neg hfull]
    rcases Nat.lt_or_ge q.len n with hlt | hge
    · rw [Nat.max_eq_left hlt]
    · rw [Nat.max_eq_right (by omega), Nat.le_antisymm hle hge]
      exact (Settings.slotsFor_succ_of_lt (by omega)).symm

/-! ## One use -/

theorem within_take (q : Queue α) : q.take.1.ring.Within q.ring := by
  unfold Queue.take
  split
  · exact q.ring.within_refl
  · exact Ring.within_popLoop _ _ _

theorem within_clear (q : Queue α) (keep : α → Except Panic Bool) :
    (q.clear keep).1.ring.Within q.ring := by
  have hretain := q.ring.within_retain keep
  unfold Queue.clear
  split <;> rename_i heq <;> rw [heq] at hretain <;> exact hretain

theorem useWithin_cases (slot : Nat) (q : Queue α) (u : Use α) :
    q.useWithin slot u = q.use u ∨ q.useWithin slot u = q := by
  unfold useWithin
  split
  · split
    · exact .inr rfl
    · exact .inl rfl
  · exact .inl rfl

/-- An item is pushed into the ring, or nothing more gets into it. -/
theorem ring_use {u : Use α} (hopen : (q.use u).closed = false) :
    (∃ x, (q.use u).ring = q.ring.push x) ∨ (q.use u).ring.Within q.ring := by
  rw [closed_use, Bool.or_eq_false_iff] at hopen
  cases u with
  | enqueue x => exact .inl ⟨x, by rw [use, enqueue_of_open hopen.1]⟩
  | take => exact .inr q.within_take
  | settle => exact .inr (by rw [use, settle_eq]; exact q.ring.within_refl)
  | abandon => exact .inr q.ring.within_refl
  | clear keep => exact .inr (q.within_clear keep)
  | start => exact .inr (by rw [use, start_eq]; exact q.ring.within_refl)
  | stop => exact .inr q.ring.within_refl
  | close => cases hopen.2

theorem ring_useWithin {slot : Nat} {u : Use α} (hopen : (q.useWithin slot u).closed = false) :
    (∃ x, (q.useWithin slot u).ring = q.ring.push x) ∨ (q.useWithin slot u).ring.Within q.ring := by
  rcases q.useWithin_cases slot u with huse | hsame
  · rw [huse] at hopen ⊢
    exact ring_use hopen
  · rw [hsame]
    exact .inr q.ring.within_refl

/-- The slots are at least those before, and the same if one of them was free. -/
theorem capacity_useWithin {slot : Nat} {u : Use α} (hopen : (q.useWithin slot u).closed = false) :
    q.capacity ≤ (q.useWithin slot u).capacity ∧
      (q.len < q.capacity → (q.useWithin slot u).capacity = q.capacity) := by
  rcases ring_useWithin hopen with ⟨x, hpush⟩ | hwithin
  · have hcapacity := q.ring.capacity_push x
    rw [← hpush] at hcapacity
    refine ⟨?_, fun hfree => hcapacity.trans (if_neg (Nat.ne_of_lt hfree))⟩
    refine Nat.le_trans ?_ (Nat.le_of_eq hcapacity.symm)
    split
    · exact Nat.le_add_right _ _
    · exact Nat.le_refl _
  · exact ⟨Nat.le_of_eq hwithin.capacity_eq.symm, fun _ => hwithin.capacity_eq⟩

theorem Sized.useWithin (h : q.Sized s n) {slot : Nat} {u : Use α}
    (hopen : (q.useWithin slot u).closed = false) :
    (q.useWithin slot u).Sized s (max n (q.useWithin slot u).len) := by
  rcases ring_useWithin hopen with ⟨x, hpush⟩ | hwithin
  · exact h.push hpush
  · exact h.within hwithin

/-! ## Any uses -/

/-- What every use keeps, all of them keep. -/
theorem usedWithin_keeps {P : Queue α → Prop} {uses : List (Use α)}
    (hkeeps : ∀ u ∈ uses, ∀ q, P q → P (q.use u)) (h : P q) (slot : Nat) : P (q.usedWithin slot uses) := by
  induction uses generalizing q with
  | nil => exact h
  | cons u uses ih =>
    refine ih (fun v hv => hkeeps v (List.mem_cons_of_mem u hv)) ?_
    rcases q.useWithin_cases slot u with huse | hsame
    · rw [huse]
      exact hkeeps u List.mem_cons_self q h
    · rw [hsame]
      exact h

theorem closed_usedWithin (h : q.closed = true) (slot : Nat) (uses : List (Use α)) :
    (q.usedWithin slot uses).closed = true := by
  refine usedWithin_keeps (P := fun q => q.closed = true) (fun u _ q hq => ?_) h slot
  rw [closed_use, hq, Bool.true_or]

theorem Worn.usedWithin (h : q.Worn) (slot : Nat) (uses : List (Use α)) :
    (q.usedWithin slot uses).Worn :=
  usedWithin_keeps (fun u _ _ h => h.use u) h slot

theorem Sized.usedWithin (h : q.Sized s n) {slot : Nat} {uses : List (Use α)}
    (hopen : (q.usedWithin slot uses).closed = false) :
    (q.usedWithin slot uses).Sized s (max n (q.peak slot uses)) := by
  induction uses generalizing q n with
  | nil =>
    rw [peak, Nat.max_eq_left h.len_le]
    exact h
  | cons u uses ih =>
    have hnext : (q.useWithin slot u).closed = false := by
      rw [Bool.eq_false_iff] at hopen ⊢
      exact fun hclosed => hopen (closed_usedWithin hclosed slot uses)
    have hlast := ih (h.useWithin hnext) hopen
    have hlen := h.len_le
    have hpeak : (q.useWithin slot u).len ≤ (q.useWithin slot u).peak slot uses := by
      cases uses with
      | nil => exact Nat.le_refl _
      | cons => exact Nat.le_max_left _ _
    rw [show max (max n (q.useWithin slot u).len) ((q.useWithin slot u).peak slot uses) =
      max n (q.peak slot (u :: uses)) by rw [peak]; omega] at hlast
    exact hlast

/-! ## Predicates that return -/

/-- The use asks no predicate that panics. -/
def Use.Returns : Use α → Prop
  | .clear keep => ∀ x panic, keep x ≠ .error panic
  | _ => True

theorem Use.Returns.total {u : Use α} (h : u.Returns) :
    ∀ keep, u = .clear keep → ∃ p : α → Bool, keep = fun x => .ok (p x) := by
  rintro keep rfl
  refine ⟨Ring.keeps keep, funext fun x => ?_⟩
  rcases hx : keep x with panic | kept
  · exact absurd hx (h x panic)
  · rw [Ring.keeps, hx]

theorem Whole.usedWithin (h : q.Whole) (slot : Nat) {uses : List (Use α)}
    (hreturns : ∀ u ∈ uses, u.Returns) : (q.usedWithin slot uses).Whole :=
  usedWithin_keeps (fun u hu _ h => h.use (hreturns u hu).total) h slot

/-! ## What callers see -/

/-- **A queue has the slots that its largest length needs.** Whatever was done to a queue, clearings that
unwound and offers without memory for them included: while it is open its slots are those it began with and
as many buckets as the largest length so far takes beyond them, however often the ring wrapped around and
whatever was cleared or taken. So the slots are never fewer than the items, no use takes slots away, and
none adds any while one is free. A closed queue has no slots, whatever comes later. Unless a predicate
panicked, the length is the number of items that wait, and the slots are enough for it after the closing
too. -/
theorem capacity_follows_peak (slot : Nat) (settings : Settings) (started : Bool)
    (uses : List (Use α)) :
    let fresh : Queue α := new settings started
    let q := fresh.usedWithin slot uses
    let most := fresh.peak slot uses
    (q.closed = false →
        q.capacity = settings.initialCapacity + settings.bucketSize *
            ((most - settings.initialCapacity + settings.bucketSize - 1) / settings.bucketSize) ∧
          q.len ≤ q.capacity ∧
          ∀ u, (q.useWithin slot u).closed = false →
            q.capacity ≤ (q.useWithin slot u).capacity ∧
              (q.len < q.capacity → (q.useWithin slot u).capacity = q.capacity)) ∧
      (q.closed = true → ∀ later,
        (q.usedWithin slot later).closed = true ∧ (q.usedWithin slot later).capacity = 0) ∧
      ((∀ u ∈ uses, u.Returns) → q.len = q.pending.length ∧ q.len ≤ q.capacity) := by
  intro fresh q most
  have hnew : fresh.Sized settings 0 := sized_new settings started
  have hworn : q.Worn := (worn_new settings started).usedWithin slot uses
  have hsized : q.closed = false → q.Sized settings most := fun hopen => by
    have hall : q.Sized settings (max 0 most) := hnew.usedWithin hopen
    rwa [Nat.zero_max] at hall
  refine ⟨fun hopen => ⟨(hsized hopen).capacity_eq, (hsized hopen).len_le_capacity,
    fun u hu => capacity_useWithin hu⟩, fun hclosed later => ?_, fun hreturns => ?_⟩
  · have hlater := closed_usedWithin hclosed slot later
    exact ⟨hlater, (hworn.usedWithin slot later).slots hlater⟩
  · have hwhole : q.Whole := (whole_new settings started).usedWithin slot hreturns
    refine ⟨hwhole.len_eq, ?_⟩
    cases hclosed : q.closed with
    | false => exact (hsized hclosed).len_le_capacity
    | true =>
      rw [hwhole.len_of_closed hclosed]
      exact Nat.zero_le _

/-- Two slots and buckets of three: four items at most need one bucket, taken or cleared though they are. -/
example :
    let fresh : Queue Nat := new ⟨2, 3, 2, by decide, by decide⟩ true
    let uses : List (Use Nat) := [.enqueue 1, .enqueue 2, .enqueue 3, .take, .enqueue 4, .enqueue 5,
      .enqueue 6, .clear fun x => .ok (x == 4), .enqueue 7]
    let q := fresh.usedWithin 8 uses
    fresh.peak 8 uses = 4 ∧ q.len = 2 ∧ q.capacity = 5 := by
  decide

end Queue

end ChunkRouter.Work
