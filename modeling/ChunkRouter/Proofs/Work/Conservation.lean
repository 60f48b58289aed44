import ChunkRouter.Proofs.Work.Operations
import ChunkRouter.Proofs.Work.Ring

/-!
# Nothing is lost

A ledger follows the items of a queue: each accepted item is waiting, was delivered, or was dropped by
a clearing or by the closing. Anybody may make any call at any time, a dequeue counting as two of them:
what a consumer calls in the middle of its batch comes between. `fifo_conservation` says that the items
delivered and then those that wait are the accepted ones in order, without the dropped ones, and that
the counters agree.
-/

namespace ChunkRouter.Work

variable {α : Type}

/-! ## What the operations do to the items -/

namespace Queue

/-- The items that wait are `items`, with no empty slot among them. -/
def Lists (q : Queue α) (items : List α) : Prop := q.ring.Holds (items.map some)

variable {q : Queue α} {items : List α}

theorem Lists.pending_eq (h : q.Lists items) : q.pending = items := Ring.Holds.toList_of_items h

theorem Lists.len_eq (h : q.Lists items) : q.len = items.length :=
  (Ring.Holds.len_eq h).trans (List.length_map some)

theorem Lists.isEmpty_eq (h : q.Lists items) : q.isEmpty = items.isEmpty := by
  rw [isEmpty, Ring.Holds.isEmpty_eq h]
  cases items <;> rfl

theorem lists_new (settings : Settings) (started : Bool) :
    (new settings started : Queue α).Lists [] := Ring.holds_new _ _

theorem Lists.enqueue (h : q.Lists items) (hopen : q.closed = false) (x : α) :
    (q.enqueue x).1.Lists (items ++ [x]) := by
  rw [enqueue_of_open hopen]
  show q.ring.push x |>.Holds _
  rw [List.map_append]
  exact Ring.Holds.push h x

/-- A batch is what the first cells of the ring hold. -/
theorem take_cells {q' : Queue α} {batch : List α} {cells : List (Option α)}
    (ht : q.take = (q', some batch)) (h : q.ring.Holds cells) :
    ∃ k, q'.ring.Holds (cells.drop k) ∧ batch = (cells.take k).filterMap id := by
  unfold Queue.take at ht
  split at ht
  · cases ht
  · obtain ⟨k, ring, hloop, hrest⟩ := h.popLoop (min q.bulkSize q.ring.len) []
    rw [Ring.popMany, hloop] at ht
    cases ht
    exact ⟨k, hrest, rfl⟩

/-- A batch is as long as may be, and comes off the front. -/
theorem Lists.take (h : q.Lists items) {q' : Queue α} {batch : List α}
    (ht : q.take = (q', some batch)) :
    ∃ rest, items = batch ++ rest ∧ q'.Lists rest ∧ items ≠ [] ∧
      batch.length = min q.bulkSize items.length := by
  have hlen : q.ring.len = items.length := h.len_eq
  obtain ⟨ring, hloop, hrest⟩ :=
    Ring.Holds.popLoop_of_items h (Nat.min_le_right q.bulkSize items.length) []
  unfold Queue.take at ht
  split at ht
  · cases ht
  · rename_i hgo
    rw [Ring.popMany, hlen, hloop] at ht
    cases ht
    refine ⟨_, (List.take_append_drop _ items).symm, hrest, ?_, ?_⟩
    · rintro rfl
      have hempty : q.ring.isEmpty = true := h.isEmpty_eq
      simp [hempty] at hgo
    · exact List.length_take_of_le (Nat.min_le_right _ _)

theorem Lists.clear (h : q.Lists items) (p : α → Bool) :
    (q.clear fun x => .ok (p x)).2 = .ok (items.length - (items.filter p).length) ∧
      (q.clear fun x => .ok (p x)).1.Lists (items.filter p) ∧
      (q.clear fun x => .ok (p x)).1.meter =
        q.meter.add (.itemsDropped .cleared) (items.length - (items.filter p).length) := by
  obtain ⟨hcount, hholds⟩ := Ring.Holds.retain h p
  simp only [List.length_map, List.filterMap_map, Function.id_comp, List.filterMap_some] at hcount hholds
  unfold Queue.clear
  rcases hr : q.ring.retain fun x => .ok (p x) with ⟨ring, panic | n⟩
  · rw [hr] at hcount
    cases hcount
  · rw [hr] at hcount hholds
    cases hcount
    exact ⟨rfl, hholds, rfl⟩

/-- Closing drops everything; a closed queue has nothing left to drop. -/
theorem Lists.close (h : q.Lists items) (hempty : q.closed = true → items = []) :
    q.close.2 = items.length ∧ q.close.1.Lists [] ∧ q.close.1.closed = true ∧
      q.close.1.meter = q.meter.add (.itemsDropped .closed) items.length := by
  obtain ⟨hitems, hholds⟩ := Ring.Holds.release_of_items h
  unfold Queue.close
  cases hc : q.closed
  · rw [if_neg Bool.false_ne_true]
    rcases hr : q.ring.release with ⟨ring, dropped⟩
    rw [hr] at hitems hholds
    cases hitems
    exact ⟨rfl, hholds, rfl, rfl⟩
  · rw [if_pos rfl]
    cases hempty hc
    exact ⟨rfl, h, hc, rfl⟩

end Queue

/-! ## Ledgers -/

/-- What became of an accepted item. -/
inductive Fate where
  | waiting
  | delivered
  | cleared
  | closed
  deriving DecidableEq, Repr

structure Entry (α : Type) where
  item : α
  fate : Fate

/-- A call on a queue, or half of a dequeue: taking a batch, and coming back from its consumer or
unwinding out of it. -/
inductive Call (α : Type) where
  | enqueue (x : α)
  | take
  | settle
  | abandon
  | clear (keep : α → Bool)
  | start
  | stop
  | close

/-- A queue, what became of its items, and what its calls answered. -/
structure Ledger (α : Type) where
  queue : Queue α
  /-- The accepted items, in the order of their acceptance. -/
  entries : List (Entry α)
  /-- The batches that were handed over, in order. -/
  batches : List (List α)
  /-- How many offers were refused. -/
  refused : Nat
  /-- What clearing answered, time after time. -/
  clearings : List Nat
  /-- What closing answered, time after time. -/
  closings : List Nat

/-- A waiting item that meets `p` comes to this. -/
def Entry.become (fate : Fate) (p : α → Bool) (e : Entry α) : Entry α :=
  if e.fate = .waiting ∧ p e.item = true then { e with fate := fate } else e

/-- The first `n` waiting items are delivered. -/
def deliver : Nat → List (Entry α) → List (Entry α)
  | 0, es => es
  | _, [] => []
  | n + 1, e :: es =>
    if e.fate = .waiting then { e with fate := .delivered } :: deliver n es else e :: deliver (n + 1) es

/-- The items that came to this, in order. -/
def itemsWith (fate : Fate) (es : List (Entry α)) : List α :=
  (es.filter fun e => e.fate = fate).map (·.item)

/-- The items that were not dropped, in order. -/
def undropped (es : List (Entry α)) : List α :=
  (es.filter fun e => e.fate = .waiting ∨ e.fate = .delivered).map (·.item)

/-! ## Entries -/

/-- Items are delivered in order: nothing waits before a delivered one. -/
def InOrder (es : List (Entry α)) : Prop :=
  es.Pairwise fun a b => a.fate = .waiting → b.fate ≠ .delivered

theorem itemsWith_cons (fate : Fate) (e : Entry α) (es : List (Entry α)) :
    itemsWith fate (e :: es) =
      if e.fate = fate then e.item :: itemsWith fate es else itemsWith fate es := by
  by_cases h : e.fate = fate <;> simp [itemsWith, h]

theorem itemsWith_append (fate : Fate) (es fs : List (Entry α)) :
    itemsWith fate (es ++ fs) = itemsWith fate es ++ itemsWith fate fs := by
  simp [itemsWith]

/-- No item is left out or counted twice. -/
theorem length_entries (es : List (Entry α)) :
    es.length = (itemsWith .delivered es).length + (itemsWith .waiting es).length +
      (itemsWith .cleared es).length + (itemsWith .closed es).length := by
  induction es with
  | nil => rfl
  | cons e es ih =>
    obtain ⟨x, fate⟩ := e
    cases fate <;> simp_all [itemsWith] <;> omega

theorem InOrder.no_delivered {e : Entry α} {es : List (Entry α)} (h : InOrder (e :: es))
    (he : e.fate = .waiting) : itemsWith .delivered es = [] := by
  simp only [itemsWith, List.map_eq_nil_iff, List.filter_eq_nil_iff, decide_eq_true_eq]
  exact fun b hb => (List.pairwise_cons.1 h).1 b hb he

theorem InOrder.undropped_eq {es : List (Entry α)} (h : InOrder es) :
    undropped es = itemsWith .delivered es ++ itemsWith .waiting es := by
  induction es with
  | nil => rfl
  | cons e es ih =>
    have hes := ih (List.pairwise_cons.1 h).2
    obtain ⟨x, fate⟩ := e
    cases fate with
    | waiting =>
      rw [h.no_delivered rfl] at hes
      simpa [undropped, itemsWith_cons, h.no_delivered rfl] using hes
    | delivered => simpa [undropped, itemsWith_cons] using hes
    | cleared => simpa [undropped, itemsWith_cons] using hes
    | closed => simpa [undropped, itemsWith_cons] using hes

/-! ### Dropping -/

/-- Dropping is no delivery, and leaves nothing waiting. -/
def Fate.drops (fate : Fate) : Prop := fate = .cleared ∨ fate = .closed

variable {fate : Fate} (p : α → Bool) (es : List (Entry α))

theorem waiting_become (h : fate.drops) :
    itemsWith .waiting (es.map (Entry.become fate p)) =
      (itemsWith .waiting es).filter fun x => !p x := by
  induction es with
  | nil => rfl
  | cons e es ih =>
    obtain ⟨x, f⟩ := e
    rcases h with rfl | rfl <;> cases f <;> cases hp : p x <;>
      simp_all [itemsWith, Entry.become]

theorem length_become (h : fate.drops) :
    (itemsWith fate (es.map (Entry.become fate p))).length =
      (itemsWith fate es).length + ((itemsWith .waiting es).filter p).length := by
  induction es with
  | nil => rfl
  | cons e es ih =>
    obtain ⟨x, f⟩ := e
    rcases h with rfl | rfl <;> cases f <;> cases hp : p x <;>
      simp_all [itemsWith, Entry.become] <;> omega

theorem others_become {other : Fate} (hwaiting : other ≠ .waiting) (hfate : other ≠ fate) :
    itemsWith other (es.map (Entry.become fate p)) = itemsWith other es := by
  induction es with
  | nil => rfl
  | cons e es ih =>
    rw [List.map_cons, itemsWith_cons, itemsWith_cons, ih, Entry.become]
    by_cases he : e.fate = .waiting ∧ p e.item = true
    · rw [if_pos he, if_neg (Ne.symm hfate), if_neg (by rw [he.1]; exact Ne.symm hwaiting)]
    · rw [if_neg he]

theorem InOrder.become {es : List (Entry α)} (ho : InOrder es) (h : fate.drops) :
    InOrder (es.map (Entry.become fate p)) := by
  refine List.pairwise_map.2 (List.Pairwise.imp ?_ ho)
  intro a b hab
  have hdropped : fate ≠ .waiting ∧ fate ≠ .delivered := by rcases h with rfl | rfl <;> decide
  simp only [Entry.become]
  split <;> split <;> simp_all

/-! ### Delivering -/

theorem map_item_deliver (n : Nat) (es : List (Entry α)) :
    (deliver n es).map (·.item) = es.map (·.item) := by
  fun_induction deliver n es <;> simp_all

theorem waiting_deliver (n : Nat) (es : List (Entry α)) :
    itemsWith .waiting (deliver n es) = (itemsWith .waiting es).drop n := by
  fun_induction deliver n es <;> simp_all [itemsWith]

theorem others_deliver {other : Fate} (hwaiting : other ≠ .waiting) (hdelivered : other ≠ .delivered)
    (n : Nat) (es : List (Entry α)) : itemsWith other (deliver n es) = itemsWith other es := by
  fun_induction deliver n es with
  | case1 es => rfl
  | case2 n hn => rfl
  | case3 n e es he ih =>
    rw [itemsWith_cons, itemsWith_cons, if_neg (Ne.symm hdelivered),
      if_neg (by rw [he]; exact Ne.symm hwaiting), ih]
  | case4 n e es he ih => rw [itemsWith_cons, itemsWith_cons, ih]

theorem delivered_deliver {n : Nat} {es : List (Entry α)} (h : InOrder es) :
    itemsWith .delivered (deliver n es) =
      itemsWith .delivered es ++ (itemsWith .waiting es).take n := by
  fun_induction deliver n es with
  | case1 es => simp
  | case2 n hn => simp [itemsWith]
  | case3 n e es he ih =>
    have hnone := h.no_delivered he
    have hes := ih (List.pairwise_cons.1 h).2
    simp [itemsWith_cons, he, hnone, hes]
  | case4 n e es he ih =>
    have hes := ih (List.pairwise_cons.1 h).2
    by_cases hd : e.fate = .delivered <;> simp [itemsWith_cons, he, hd, hes]

theorem InOrder.deliver {es : List (Entry α)} (h : InOrder es) (n : Nat) : InOrder (deliver n es) := by
  fun_induction Work.deliver n es with
  | case1 es => exact h
  | case2 n hn => exact h
  | case3 n e es he ih =>
    exact List.pairwise_cons.2 ⟨fun _ _ hw => Fate.noConfusion hw, ih (List.pairwise_cons.1 h).2⟩
  | case4 n e es he ih =>
    exact List.pairwise_cons.2 ⟨fun _ _ hw => absurd hw he, ih (List.pairwise_cons.1 h).2⟩

theorem InOrder.concat_waiting {es : List (Entry α)} (h : InOrder es) (x : α) :
    InOrder (es ++ [⟨x, .waiting⟩]) := by
  refine List.pairwise_append.2 ⟨h, List.pairwise_singleton _ _, fun a _ b hb _ => ?_⟩
  rw [List.mem_singleton.1 hb]
  exact Fate.noConfusion

/-! ## Calls -/

namespace Ledger

def new (settings : Settings) (started : Bool) : Ledger α := ⟨.new settings started, [], [], 0, [], []⟩

/-- Offer an item that needs a slot of `slot` bytes. Without memory for it nothing changes. -/
def enqueue (slot : Nat) (l : Ledger α) (x : α) : Ledger α :=
  match l.queue.reserveSlot slot with
  | .error _ => l
  | .ok () =>
    match l.queue.enqueue x with
    | (q, .refused) => { l with queue := q, refused := l.refused + 1 }
    | (q, .accepted _) => { l with queue := q, entries := l.entries ++ [⟨x, .waiting⟩] }

def take (l : Ledger α) : Ledger α :=
  match l.queue.take with
  | (q, none) => { l with queue := q }
  | (q, some batch) =>
    { l with queue := q, entries := deliver batch.length l.entries, batches := l.batches ++ [batch] }

def clear (l : Ledger α) (keep : α → Bool) : Ledger α :=
  match l.queue.clear fun x => .ok (keep x) with
  | (q, .error _) => { l with queue := q }
  | (q, .ok n) =>
    { l with
      queue := q
      entries := l.entries.map (.become .cleared fun x => !keep x)
      clearings := l.clearings ++ [n] }

def close (l : Ledger α) : Ledger α :=
  match l.queue.close with
  | (q, n) =>
    { l with
      queue := q
      entries := l.entries.map (.become .closed fun _ => true)
      closings := l.closings ++ [n] }

def step (slot : Nat) (l : Ledger α) : Call α → Ledger α
  | .enqueue x => l.enqueue slot x
  | .take => l.take
  | .settle => { l with queue := l.queue.settle.1 }
  | .abandon => { l with queue := l.queue.abandon }
  | .clear keep => l.clear keep
  | .start => { l with queue := l.queue.start.1 }
  | .stop => { l with queue := l.queue.stop }
  | .close => l.close

def run (slot : Nat) (settings : Settings) (started : Bool) (calls : List (Call α)) : Ledger α :=
  calls.foldl (step slot) (new settings started)

/-! ## The books -/

/-- The ledger agrees with the queue: with its items, with the batches it gave and with its counters. -/
structure Balanced (l : Ledger α) : Prop where
  waiting : l.queue.Lists (itemsWith .waiting l.entries)
  delivered : l.batches.flatten = itemsWith .delivered l.entries
  inOrder : InOrder l.entries
  enqueued : l.queue.meter.count .itemsEnqueued = l.entries.length
  cleared : l.queue.meter.count (.itemsDropped .cleared) = (itemsWith .cleared l.entries).length
  closed : l.queue.meter.count (.itemsDropped .closed) = (itemsWith .closed l.entries).length
  refused : l.queue.meter.count (.itemsDropped .afterClose) = l.refused
  clearings : total l.clearings = (itemsWith .cleared l.entries).length
  closings : total l.closings = (itemsWith .closed l.entries).length
  closedOnce : l.closings.countP (· ≠ 0) ≤ if l.queue.closed then 1 else 0
  empty : l.queue.closed = true → itemsWith .waiting l.entries = []

theorem balanced_new (settings : Settings) (started : Bool) :
    (new settings started : Ledger α).Balanced :=
  ⟨Queue.lists_new settings started, rfl, List.Pairwise.nil, rfl, rfl, rfl, rfl, rfl, rfl, Nat.le_refl 0,
    fun _ => rfl⟩

/-- What concerns neither the items nor the counters leaves the books alone. -/
theorem Balanced.queue {l : Ledger α} (h : l.Balanced) {q : Queue α} (hring : q.ring = l.queue.ring)
    (hmeter : q.meter = l.queue.meter) (hclosed : q.closed = l.queue.closed) :
    { l with queue := q }.Balanced where
  waiting := by
    have hwaiting := h.waiting
    rw [Queue.Lists] at hwaiting ⊢
    rw [hring]
    exact hwaiting
  delivered := h.delivered
  inOrder := h.inOrder
  enqueued := hmeter ▸ h.enqueued
  cleared := hmeter ▸ h.cleared
  closed := hmeter ▸ h.closed
  refused := hmeter ▸ h.refused
  clearings := h.clearings
  closings := h.closings
  closedOnce := hclosed ▸ h.closedOnce
  empty := hclosed ▸ h.empty

theorem Balanced.enqueue {l : Ledger α} (h : l.Balanced) (slot : Nat) (x : α) :
    (l.enqueue slot x).Balanced := by
  unfold Ledger.enqueue
  split
  · exact h
  · cases hc : l.queue.closed
    · have hwaiting := h.waiting.enqueue hc x
      rw [Queue.enqueue_of_open hc] at hwaiting ⊢
      have hcounts := fun c => Meter.count_bump l.queue.meter .itemsEnqueued c
      refine ⟨?_, ?_, h.inOrder.concat_waiting x, ?_, ?_, ?_, ?_, ?_, ?_, h.closedOnce,
        fun hclosed => Bool.noConfusion (hc.symm.trans hclosed)⟩
      · rw [itemsWith_append]
        exact hwaiting
      · rw [itemsWith_append]
        simpa [itemsWith] using h.delivered
      · simp [hcounts, h.enqueued]
      · simp [hcounts, h.cleared, itemsWith]
      · simp [hcounts, h.closed, itemsWith]
      · simp [hcounts, h.refused]
      · simp [h.clearings, itemsWith]
      · simp [h.closings, itemsWith]
    · rw [Queue.enqueue_of_closed hc]
      have hcounts := fun c => Meter.count_bump l.queue.meter (.itemsDropped .afterClose) c
      refine ⟨h.waiting, h.delivered, h.inOrder, ?_, ?_, ?_, ?_, h.clearings, h.closings, h.closedOnce,
        h.empty⟩
      · simp [hcounts, h.enqueued]
      · simp [hcounts, h.cleared]
      · simp [hcounts, h.closed]
      · simp [hcounts, h.refused]

theorem Balanced.take {l : Ledger α} (h : l.Balanced) : l.take.Balanced := by
  unfold Ledger.take
  rcases l.queue.take_cases with ⟨htake, -⟩ | ⟨ring, batch, htake, hopen, -⟩
  · rw [htake]
    exact h.queue rfl rfl rfl
  · obtain ⟨rest, hitems, hrest, -⟩ := h.waiting.take htake
    have hcleared : itemsWith .cleared (deliver batch.length l.entries) = _ :=
      others_deliver Fate.noConfusion Fate.noConfusion batch.length l.entries
    have hclosed : itemsWith .closed (deliver batch.length l.entries) = _ :=
      others_deliver Fate.noConfusion Fate.noConfusion batch.length l.entries
    have hentries : (deliver batch.length l.entries).length = l.entries.length := by
      simpa using congrArg List.length (map_item_deliver batch.length l.entries)
    rw [htake]
    refine ⟨?_, ?_, h.inOrder.deliver _, ?_, ?_, ?_, h.refused, ?_, ?_, h.closedOnce,
      fun hclosed => Bool.noConfusion (hopen.symm.trans hclosed)⟩
    · rw [waiting_deliver, hitems, List.drop_left]
      exact hrest
    · rw [delivered_deliver h.inOrder, hitems, List.take_left, ← h.delivered]
      simp
    · exact hentries ▸ h.enqueued
    · exact hcleared ▸ h.cleared
    · exact hclosed ▸ h.closed
    · exact hcleared ▸ h.clearings
    · exact hclosed ▸ h.closings

/-- What is not kept is dropped. -/
theorem length_sub_filter (keep : α → Bool) (items : List α) :
    items.length - (items.filter keep).length = (items.filter fun x => !keep x).length := by
  have hsplit := List.length_eq_countP_add_countP keep (l := items)
  rw [List.countP_eq_length_filter, List.countP_eq_length_filter] at hsplit
  simp only [decide_not, Bool.decide_eq_true] at hsplit
  omega

theorem Balanced.clear {l : Ledger α} (h : l.Balanced) (keep : α → Bool) :
    (l.clear keep).Balanced := by
  obtain ⟨hcount, hlists, hmeter⟩ := h.waiting.clear keep
  have hrest := congrArg Queue.closed (Queue.clear_eq l.queue fun x => .ok (keep x))
  have hdrops : Fate.drops .cleared := .inl rfl
  unfold Ledger.clear
  rcases hclear : l.queue.clear fun x => .ok (keep x) with ⟨q, panic | n⟩
  · rw [hclear] at hcount
    cases hcount
  rw [hclear] at hcount hlists hmeter hrest
  injection hcount with hcount
  have hm : q.meter = l.queue.meter.add (.itemsDropped .cleared) n := by rw [hcount]; exact hmeter
  have hn : ((itemsWith .waiting l.entries).filter fun x => !keep x).length = n := by
    rw [hcount, length_sub_filter]
  have hcounts := fun c => Meter.count_add l.queue.meter (.itemsDropped .cleared) c n
  have hcleared := length_become (fun x => !keep x) l.entries hdrops
  rw [hn] at hcleared
  have hclosed : itemsWith .closed (l.entries.map (.become .cleared fun x => !keep x)) = _ :=
    others_become _ l.entries Fate.noConfusion Fate.noConfusion
  have hdelivered : itemsWith .delivered (l.entries.map (.become .cleared fun x => !keep x)) = _ :=
    others_become _ l.entries Fate.noConfusion Fate.noConfusion
  have hwaiting := waiting_become (fun x => !keep x) l.entries hdrops
  refine ⟨?_, ?_, h.inOrder.become _ hdrops, ?_, ?_, ?_, ?_, ?_, ?_, ?_, ?_⟩
  · rw [hwaiting]
    simpa using hlists
  · exact hdelivered ▸ h.delivered
  · simp [hm, hcounts, h.enqueued]
  · simp [hm, hcounts, h.cleared, hcleared]
  · simp [hm, hcounts, h.closed, hclosed]
  · simp [hm, hcounts, h.refused]
  · simp [total, h.clearings, hcleared]
  · exact hclosed ▸ h.closings
  · show l.closings.countP (· ≠ 0) ≤ if q.closed then 1 else 0
    rw [show q.closed = l.queue.closed from hrest]
    exact h.closedOnce
  · intro hclosed
    rw [hwaiting, h.empty (hrest.symm.trans hclosed), List.filter_nil]

theorem Balanced.close {l : Ledger α} (h : l.Balanced) : l.close.Balanced := by
  obtain ⟨hanswer, hlists, hclosed', hm⟩ := h.waiting.close h.empty
  have hdrops : Fate.drops .closed := .inr rfl
  have hn : ((itemsWith .waiting l.entries).filter fun _ => true).length = l.queue.close.2 := by
    rw [hanswer, List.filter_eq_self.2 fun _ _ => rfl]
  have hcounts := fun c => Meter.count_add l.queue.meter (.itemsDropped .closed) c l.queue.close.2
  have hclosed := length_become (fun _ => true) l.entries hdrops
  rw [hn] at hclosed
  rw [← hanswer] at hm
  have hwaiting : itemsWith .waiting (l.entries.map (.become .closed fun _ => true)) = [] := by
    rw [waiting_become _ _ hdrops, List.filter_eq_nil_iff]
    simp
  have hcleared : itemsWith .cleared (l.entries.map (.become .closed fun _ => true)) = _ :=
    others_become _ l.entries Fate.noConfusion Fate.noConfusion
  have hdelivered : itemsWith .delivered (l.entries.map (.become .closed fun _ => true)) = _ :=
    others_become _ l.entries Fate.noConfusion Fate.noConfusion
  refine ⟨?_, ?_, h.inOrder.become _ hdrops, ?_, ?_, ?_, ?_, ?_, ?_, ?_, fun _ => hwaiting⟩
  · exact hwaiting ▸ hlists
  · exact hdelivered ▸ h.delivered
  · simp [Ledger.close, hm, hcounts, h.enqueued]
  · simp [Ledger.close, hm, hcounts, h.cleared, hcleared]
  · simp [Ledger.close, hm, hcounts, h.closed, hclosed]
  · simp [Ledger.close, hm, hcounts, h.refused]
  · exact hcleared ▸ h.clearings
  · simp [Ledger.close, total, h.closings, hclosed]
  · have honce := h.closedOnce
    show (l.closings ++ [l.queue.close.2]).countP (· ≠ 0) ≤ if l.queue.close.1.closed then 1 else 0
    rw [hclosed', if_pos rfl, List.countP_append]
    cases hc : l.queue.closed
    · rw [hc, if_neg Bool.false_ne_true] at honce
      have hlast : [l.queue.close.2].countP (· ≠ 0) ≤ 1 := List.countP_le_length
      omega
    · rw [hc, if_pos rfl] at honce
      rw [hanswer, h.empty hc]
      exact honce

/-- Every call keeps the books. -/
theorem Balanced.step {l : Ledger α} (h : l.Balanced) (slot : Nat) (c : Call α) :
    (l.step slot c).Balanced := by
  cases c with
  | enqueue x => exact h.enqueue slot x
  | take => exact h.take
  | settle => exact h.queue (by rw [Queue.settle_eq]) (by rw [Queue.settle_eq]) (by rw [Queue.settle_eq])
  | abandon => exact h.queue rfl rfl rfl
  | clear keep => exact h.clear keep
  | start => exact h.queue (by rw [Queue.start_eq]) (by rw [Queue.start_eq]) (by rw [Queue.start_eq])
  | stop => exact h.queue rfl rfl rfl
  | close => exact h.close

theorem balanced_run (slot : Nat) (settings : Settings) (started : Bool) (calls : List (Call α)) :
    (run slot settings started calls).Balanced := by
  unfold run
  suffices h : ∀ l : Ledger α, l.Balanced → (calls.foldl (step slot) l).Balanced from
    h _ (balanced_new settings started)
  induction calls with
  | nil => exact fun l h => h
  | cons c calls ih => exact fun l h => ih _ (h.step slot c)

theorem bulkSize_step (slot : Nat) (l : Ledger α) (c : Call α) :
    (l.step slot c).queue.bulkSize = l.queue.bulkSize := by
  cases c with
  | enqueue x =>
    simp only [step, enqueue]
    split
    · rfl
    · cases hc : l.queue.closed
      · rw [Queue.enqueue_of_open hc]
      · rw [Queue.enqueue_of_closed hc]
  | take =>
    simp only [step, take]
    rcases l.queue.take_cases with ⟨htake, -⟩ | ⟨ring, batch, htake, -⟩ <;> rw [htake]
  | settle => simp only [step, Queue.settle_eq]
  | abandon => rfl
  | clear keep =>
    have hclear := congrArg Queue.bulkSize (Queue.clear_eq l.queue fun x => .ok (keep x))
    simp only [step, clear]
    split <;> rename_i heq <;> rw [heq] at hclear <;> exact hclear
  | start => simp only [step, Queue.start_eq]
  | stop => rfl
  | close =>
    show l.queue.close.1.bulkSize = l.queue.bulkSize
    rw [Queue.close_eq]

theorem bulkSize_run (slot : Nat) (settings : Settings) (started : Bool) (calls : List (Call α)) :
    (run slot settings started calls).queue.bulkSize = settings.bulkSize := by
  unfold run
  suffices h : ∀ l : Ledger α, (calls.foldl (step slot) l).queue.bulkSize = l.queue.bulkSize from
    h (new settings started)
  induction calls with
  | nil => exact fun l => rfl
  | cons c calls ih => exact fun l => (ih (l.step slot c)).trans (bulkSize_step slot l c)

/-! ## What callers see -/

/-- **Every item is accounted for.** After any calls, in the middle of a batch as well, and whichever
batches were abandoned: the items handed over, and then those that wait, are the accepted ones in the
order of their acceptance, but for those that were dropped. Clearing drops the waiting items that are
not to be kept, and tells how many. A batch is not empty, and is as long as the bulk size and the
waiting items allow. An offer is refused exactly when the queue is closed. The counters add up: an
accepted item was handed over, waits, or was dropped by a clearing or by the closing, which happens
once. -/
theorem fifo_conservation (slot : Nat) (settings : Settings) (started : Bool)
    (calls : List (Call α)) :
    let l := run slot settings started calls
    let q := l.queue
    l.batches.flatten ++ q.pending = undropped l.entries ∧
      q.pending = itemsWith .waiting l.entries ∧
      (∀ keep : α → Bool,
        (q.clear fun x => .ok (keep x)).1.pending = q.pending.filter keep ∧
          (q.clear fun x => .ok (keep x)).2 = .ok (q.pending.filter fun x => !keep x).length) ∧
      (∀ q' batch, q.take = (q', some batch) →
        batch.length = min settings.bulkSize q.pending.length ∧ 1 ≤ batch.length ∧
          q.pending = batch ++ q'.pending) ∧
      (∀ x, (q.enqueue x).2 = .refused ↔ q.closed = true) ∧
      q.meter.count .itemsEnqueued = l.entries.length ∧
      l.entries.length =
        l.batches.flatten.length + q.pending.length + total l.clearings + total l.closings ∧
      q.meter.count (.itemsDropped .cleared) = total l.clearings ∧
      q.meter.count (.itemsDropped .closed) = total l.closings ∧
      l.closings.countP (· ≠ 0) ≤ 1 ∧
      q.meter.count (.itemsDropped .afterClose) = l.refused := by
  intro l q
  have h : l.Balanced := balanced_run slot settings started calls
  have hbulk : q.bulkSize = settings.bulkSize := bulkSize_run slot settings started calls
  have hpending : q.pending = itemsWith .waiting l.entries := h.waiting.pending_eq
  refine ⟨?_, hpending, fun keep => ?_, fun q' batch htake => ?_, fun x => ?_, h.enqueued, ?_,
    h.cleared.trans h.clearings.symm, h.closed.trans h.closings.symm, ?_, h.refused⟩
  · rw [h.inOrder.undropped_eq, h.delivered, hpending]
  · obtain ⟨hcount, hlists, -⟩ := h.waiting.clear keep
    rw [hcount, hlists.pending_eq, hpending, length_sub_filter]
    exact ⟨rfl, rfl⟩
  · obtain ⟨rest, hitems, hrest, hne, hlen⟩ := h.waiting.take htake
    have hpos := settings.bulkSize_pos
    have hnonempty := List.length_pos_iff.2 hne
    rw [hpending, hrest.pending_eq, ← hbulk]
    refine ⟨hlen, ?_, hitems⟩
    rw [hlen, show l.queue.bulkSize = settings.bulkSize from hbulk]
    omega
  · cases hc : q.closed
    · rw [Queue.enqueue_of_open hc]
      simp
    · rw [Queue.enqueue_of_closed hc]
      simp
  · rw [length_entries l.entries, h.delivered, hpending, h.clearings, h.closings]
  · have honce := h.closedOnce
    split at honce
    · exact honce
    · exact Nat.le_succ_of_le honce

/-- The ring of two slots wraps around and grows; one item is taken, one cleared, and two are closed
down while the batch is still being consumed. -/
example :
    let l := run 8 ⟨2, 1, 1, by decide, by decide⟩ true
      [.enqueue 1, .enqueue 2, .take, .enqueue 3, .enqueue 4, .clear (· ≠ 3), .close, .settle]
    l.batches = [[1]] ∧ l.clearings = [1] ∧ l.closings = [2] ∧ undropped l.entries = [1] := by decide

end Ledger

end ChunkRouter.Work
