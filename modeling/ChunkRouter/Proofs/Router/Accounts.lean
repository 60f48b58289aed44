import Mathlib.Data.List.Nodup
import ChunkRouter.Proofs.Router.Batches
import ChunkRouter.Router.Serving

/-!
# Accounts of chunks

Every chunk that arrived waits, was answered, or is a batch under way. `Accounts` says so in numbers: the
chunks that were visited are those that were answered and those of the open batches, each once. Replies
are right, and a reply to anything but a batch comes behind replies to earlier chunks only.
-/

namespace ChunkRouter.Router

open Connection (Spreading Task)
open Message (Reply Request)

/-- No reply but one to a batch is behind a reply to a later chunk. -/
def InOrder (answers : List (Nat × Reply)) : Prop :=
  answers.Pairwise fun a b => a.1 < b.1 ∨ IsBatchDone b.2

/-- What became of `chunks`: the answers given in order, and the batches under way. -/
structure Accounts (chunks : List Bytes) (answers : List (Nat × Reply)) (opened : List Opened)
    (batches : Array Batch) (tasks : List Task) (spreading : Option Spreading)
    (waiting : List Inbound) : Prop where
  le : answers.length + opened.length ≤ chunks.length
  waiting : (chunks.drop (answers.length + opened.length)).map .ofChunk = waiting
  numbers : (answers.map (·.1) ++ opened.map (·.origin)).Perm
    (List.range (answers.length + opened.length))
  right : ∀ a ∈ answers, ∃ chunk, chunks[a.1]? = some chunk ∧ Answers chunk a.2
  inOrder : InOrder answers
  distinct : (opened.map (·.number)).Nodup
  underway : ∀ o ∈ opened, o.Underway batches tasks spreading
  batch : ∀ o ∈ opened, ∃ chunk, chunks[o.origin]? = some chunk ∧
    Request.decode chunk = .ok (.batch o.id o.items, [])
  task : ∀ t, Task.item t ∈ tasks → t.batch ∈ opened.map (·.number)
  spread : ∀ s, spreading = some s → s.number ∈ opened.map (·.number)

/-- What a visitor sent meanwhile. -/
structure Replied (v v' : Visitor) (answers answers' : List (Nat × Reply)) : Prop where
  listening : v'.listening = v.listening
  sent : ∃ new, answers' = answers ++ new ∧ v'.sent = (new.map (·.2)).reverse ++ v.sent

theorem accounts_nil : Accounts [] [] [] #[] [] none [] where
  le := Nat.le_refl 0
  waiting := rfl
  numbers := List.Perm.refl _
  right := fun _ h => nomatch h
  inOrder := List.Pairwise.nil
  distinct := List.nodup_nil
  underway := fun _ h => nomatch h
  batch := fun _ h => nomatch h
  task := fun _ h => nomatch h
  spread := fun _ h => nomatch h

/-! ## Arrivals and answers -/

section

variable {chunks : List Bytes} {answers : List (Nat × Reply)} {opened : List Opened} {v : Visitor}
  {tasks : List Task} {spreading : Option Spreading} {waiting : List Inbound}

/-- Another chunk arrives. -/
theorem Accounts.arrive (h : Accounts chunks answers opened v.batches tasks spreading waiting)
    (chunk : Bytes) :
    Accounts (chunks ++ [chunk]) answers opened v.batches tasks spreading
      (waiting ++ [.ofChunk chunk]) where
  le := by
    have hle := h.le
    rw [List.length_append]
    omega
  waiting := by
    rw [List.drop_append_of_le_length h.le, List.map_append, h.waiting]
    rfl
  numbers := h.numbers
  right := fun a ha => by
    obtain ⟨c, hc, hright⟩ := h.right a ha
    exact ⟨c, List.getElem?_append_left (List.getElem?_eq_some_iff.1 hc).1 ▸ hc, hright⟩
  inOrder := h.inOrder
  distinct := h.distinct
  underway := h.underway
  batch := fun o ho => by
    obtain ⟨c, hc, hdecode⟩ := h.batch o ho
    exact ⟨c, List.getElem?_append_left (List.getElem?_eq_some_iff.1 hc).1 ▸ hc, hdecode⟩
  task := h.task
  spread := h.spread

/-- Which lanes tasks wait on, and which of them drain, does not matter. -/
theorem Accounts.requeue (h : Accounts chunks answers opened v.batches tasks spreading waiting)
    (tasks' : List Task) (hitems : ∀ n, (itemsOf n tasks').Perm (itemsOf n tasks)) :
    Accounts chunks answers opened v.batches tasks' spreading waiting where
  le := h.le
  waiting := h.waiting
  numbers := h.numbers
  right := h.right
  inOrder := h.inOrder
  distinct := h.distinct
  underway := fun o ho => (h.underway o ho).frame rfl (hitems o.number) rfl rfl
  batch := h.batch
  task := fun t ht =>
    h.task t (mem_itemsOf_iff.1 ((hitems t.batch).mem_iff.1 (mem_itemsOf_iff.2 ht)))
  spread := h.spread

/-- The next chunk is the first that is neither answered nor an open batch. -/
theorem Accounts.next {x : Inbound}
    (h : Accounts chunks answers opened v.batches tasks spreading (x :: waiting)) :
    ∃ chunk, chunks[answers.length + opened.length]? = some chunk ∧ .ofChunk chunk = x ∧
      (chunks.drop (answers.length + opened.length + 1)).map .ofChunk = waiting ∧
      answers.length + opened.length + 1 ≤ chunks.length := by
  obtain ⟨chunk, rest, hdrop, hx, hrest⟩ := List.map_eq_cons_iff.1 h.waiting
  have hget : chunks[answers.length + opened.length]? = some chunk := by
    have hfirst := congrArg (·[0]?) hdrop
    simp only [List.getElem?_drop, Nat.add_zero] at hfirst
    exact hfirst
  refine ⟨chunk, hget, hx, ?_, (List.getElem?_eq_some_iff.1 hget).1⟩
  rw [← List.tail_drop, hdrop]
  exact hrest

/-- The numbers of answered chunks are those of visited ones. -/
theorem Accounts.lt_of_mem (h : Accounts chunks answers opened v.batches tasks spreading waiting)
    {a : Nat × Reply} (ha : a ∈ answers) : a.1 < answers.length + opened.length :=
  List.mem_range.1 (h.numbers.mem_iff.1 (List.mem_append_left _ (List.mem_map_of_mem ha)))

/-- What is in front of an answered chunk, and is no batch, was answered before it. -/
theorem Accounts.answered_before
    (h : Accounts chunks answers opened v.batches tasks spreading waiting)
    {before after : List (Nat × Reply)} {a : Nat × Reply} (hsplit : answers = before ++ a :: after)
    {m : Nat} {chunk : Bytes} (hm : m < a.1) (hget : chunks[m]? = some chunk)
    (hnot : ¬IsBatch chunk) : m ∈ before.map (·.1) := by
  have ha : a ∈ answers := hsplit ▸ List.mem_append_right _ List.mem_cons_self
  have hvisited := h.numbers.mem_iff.2 (List.mem_range.2 (Nat.lt_trans hm (h.lt_of_mem ha)))
  rcases List.mem_append.1 hvisited with hanswered | hopen
  · obtain ⟨b, hb, rfl⟩ := List.mem_map.1 hanswered
    obtain ⟨chunk', hget', hright⟩ := h.right b hb
    have hother : ¬IsBatchDone b.2 := fun hdone => by
      rw [hget] at hget'
      cases hget'
      exact hnot (hright.isBatch hdone)
    have horder := h.inOrder
    rw [InOrder, hsplit, List.pairwise_append, List.pairwise_cons] at horder
    rw [hsplit] at hb
    rcases List.mem_append.1 hb with hfirst | hlater
    · exact List.mem_map_of_mem hfirst
    · rcases List.mem_cons.1 hlater with rfl | hlater
      · exact absurd hm (Nat.lt_irrefl _)
      · rcases horder.2.1.1 b hlater with hless | hdone
        · exact absurd hm (Nat.lt_asymm hless)
        · exact absurd hdone hother
  · obtain ⟨o, ho, rfl⟩ := List.mem_map.1 hopen
    obtain ⟨chunk', hget', hdecode⟩ := h.batch o ho
    rw [hget] at hget'
    cases hget'
    exact absurd ⟨o.id, o.items, hdecode⟩ hnot

theorem Accounts.batch_lt (h : Accounts chunks answers opened v.batches tasks spreading waiting)
    {n : Nat} (hn : n ∈ opened.map (·.number)) : n < v.batches.size := by
  obtain ⟨o, ho, rfl⟩ := List.mem_map.1 hn
  exact (h.underway o ho).number_lt

theorem inOrder_concat {a : Nat × Reply} (h : InOrder answers)
    (ha : ∀ b ∈ answers, b.1 < a.1 ∨ IsBatchDone a.2) : InOrder (answers ++ [a]) := by
  refine List.pairwise_append.2 ⟨h, List.pairwise_singleton _ _, fun b hb c hc => ?_⟩
  rw [List.mem_singleton.1 hc]
  exact ha b hb

/-- The next chunk is answered at once. -/
theorem Accounts.reply {x : Inbound} {r : Reply}
    (h : Accounts chunks answers opened v.batches tasks spreading (x :: waiting))
    (hlistening : v.listening = true) (hreply : Connection.replyTo? x = some r) :
    ∃ answers', Accounts chunks answers' opened v.batches tasks spreading waiting ∧
      Replied v (v.reply r) answers answers' := by
  obtain ⟨chunk, hget, rfl, hwaiting, hle⟩ := h.next
  have hlen : (answers ++ [(answers.length + opened.length, r)]).length + opened.length =
      answers.length + opened.length + 1 := by
    rw [List.length_append, List.length_singleton]
    omega
  have hsent : v.reply r = { v with sent := r :: v.sent } := if_pos hlistening
  refine ⟨answers ++ [(answers.length + opened.length, r)], ?_, by rw [hsent], _, rfl, by rw [hsent]; rfl⟩
  refine ⟨hlen.symm ▸ hle, hlen.symm ▸ hwaiting, ?_, fun a ha => ?_,
    inOrder_concat h.inOrder fun b hb => .inl (h.lt_of_mem hb), h.distinct, h.underway, h.batch,
    h.task, h.spread⟩
  · rw [hlen, List.range_succ, List.map_append, List.append_assoc]
    have hmove : (answers.map (·.1) ++ ([answers.length + opened.length] ++ opened.map (·.origin))).Perm
        (answers.map (·.1) ++ opened.map (·.origin) ++ [answers.length + opened.length]) := by
      rw [List.append_assoc]
      exact List.Perm.append_left _ List.perm_append_comm
    exact hmove.trans (h.numbers.append_right _)
  · rcases List.mem_append.1 ha with ha | ha
    · exact h.right a ha
    · rw [List.mem_singleton.1 ha]
      exact ⟨chunk, hget, answers_of_replyTo? hreply⟩

/-- The next chunk is a batch, and is opened. -/
theorem Accounts.openBatch {id : UInt64} {items : List Bytes}
    (h : Accounts chunks answers opened v.batches tasks none (.request (.batch id items) :: waiting)) :
    ∃ opened', Accounts chunks answers opened' (v.openBatch id).1.batches tasks
        (some ⟨v.batches.size, 0, items⟩) waiting ∧
      armed (v.openBatch id).1.batches = armed v.batches + 1 := by
  obtain ⟨chunk, hget, hx, hwaiting, hle⟩ := h.next
  have hdecode := Inbound.ofChunk_eq_request hx
  have hfresh : itemsOf v.batches.size tasks = [] := by
    refine List.eq_nil_iff_forall_not_mem.2 fun item hitem => ?_
    exact Nat.lt_irrefl _ (h.batch_lt (h.task _ (mem_itemsOf_iff.1 hitem)))
  obtain ⟨hnew, hothers, harmed⟩ := Opened.underway_openBatch v
    (answers.length + opened.length) (length_items_lt hdecode) hfresh
  have hlen : answers.length +
      (opened ++ [Opened.mk v.batches.size (answers.length + opened.length) id items]).length =
        answers.length + opened.length + 1 := by
    rw [List.length_append, List.length_singleton]
    omega
  refine ⟨opened ++ [.mk v.batches.size (answers.length + opened.length) id items], ?_, harmed⟩
  refine ⟨hlen.symm ▸ hle, hlen.symm ▸ hwaiting, ?_, h.right, h.inOrder, ?_, fun o ho => ?_,
    fun o ho => ?_, fun t ht => ?_, fun s hs => ?_⟩
  · rw [hlen, List.range_succ, List.map_append, ← List.append_assoc]
    exact h.numbers.append_right _
  · rw [List.map_append, List.nodup_append]
    refine ⟨h.distinct, List.nodup_cons.2 ⟨List.not_mem_nil, List.nodup_nil⟩, fun n hn m hm hnm => ?_⟩
    have hlt := h.batch_lt hn
    rw [hnm, List.mem_singleton.1 hm] at hlt
    exact Nat.lt_irrefl _ hlt
  · rcases List.mem_append.1 ho with ho | ho
    · have hlt := (h.underway o ho).number_lt
      refine (h.underway o ho).frame (hothers _ hlt) (List.Perm.refl _) ?_ ?_
      · exact if_neg (Nat.ne_of_gt hlt)
      · exact beq_eq_false_iff_ne.2 (Nat.ne_of_gt hlt)
    · rw [List.mem_singleton.1 ho]
      exact hnew
  · rcases List.mem_append.1 ho with ho | ho
    · exact h.batch o ho
    · rw [List.mem_singleton.1 ho]
      exact ⟨chunk, hget, hdecode⟩
  · rw [List.map_append]
    exact List.mem_append_left _ (h.task t ht)
  · cases hs
    rw [List.map_append]
    exact List.mem_append_right _ (List.mem_singleton.2 rfl)

/-- The next item of the batch is dispatched. -/
theorem Accounts.registerItem {number n : Nat} {item : Bytes} {items : List Bytes}
    (h : Accounts chunks answers opened v.batches tasks (some ⟨number, n, item :: items⟩) waiting) :
    Accounts chunks answers opened (v.registerItem number).batches
        (.item ⟨number, item⟩ :: tasks) (some ⟨number, n + 1, items⟩) waiting ∧
      armed (v.registerItem number).batches = armed v.batches := by
  obtain ⟨o, ho, hnumber⟩ := List.mem_map.1 (h.spread _ rfl)
  cases hnumber
  obtain ⟨hnext, hothers, harmed⟩ := (h.underway o ho).registerItem
  refine ⟨⟨h.le, h.waiting, h.numbers, h.right, h.inOrder, h.distinct, fun o' ho' => ?_, h.batch,
    fun t ht => ?_, fun s hs => ?_⟩, harmed⟩
  · by_cases hsame : o'.number = o.number
    · rw [List.inj_on_of_nodup_map h.distinct ho' ho hsame]
      exact hnext
    · refine (h.underway o' ho').frame (hothers _ hsame) ?_ ?_ ?_
      · rw [itemsOf_cons_item, if_neg fun heq => hsame heq.symm]
      · exact (if_neg fun heq => hsame heq.symm).trans (if_neg fun heq => hsame heq.symm).symm
      · rfl
  · rcases List.mem_cons.1 ht with heq | ht
    · cases heq
      exact List.mem_map_of_mem ho
    · exact h.task t ht
  · cases hs
    exact List.mem_map_of_mem ho

end

/-! ## Handling a batch -/

/-- What is done for a batch leaves all others alone. -/
structure Opened.Apart (o : Opened) (tasks tasks' : List Task) (spreading spreading' : Option Spreading) :
    Prop where
  items : ∀ n, n ≠ o.number → itemsOf n tasks' = itemsOf n tasks
  tasks : ∀ t, Task.item t ∈ tasks' → Task.item t ∈ tasks
  undispatched : ∀ n, n ≠ o.number → undispatched n spreading' = undispatched n spreading
  isShut : ∀ n, n ≠ o.number → isShut n spreading' = isShut n spreading
  spreading : ∀ s, spreading' = some s → spreading = some s

section

variable {o : Opened} {batches batches' : Array Batch} {tasks tasks' : List Task}
  {spreading spreading' : Option Spreading}

theorem Opened.apart_item (o : Opened) (item : Bytes) (tasks : List Task)
    (spreading : Option Spreading) :
    o.Apart (.item ⟨o.number, item⟩ :: tasks) tasks spreading spreading where
  items := fun n hn => by rw [itemsOf_cons_item, if_neg fun heq => hn heq.symm]
  tasks := fun t ht => List.mem_cons_of_mem _ ht
  undispatched := fun _ _ => rfl
  isShut := fun _ _ => rfl
  spreading := fun _ hs => hs

theorem Opened.apart_gate (o : Opened) (n : Nat) (tasks : List Task) :
    o.Apart tasks tasks (some ⟨o.number, n, []⟩) none where
  items := fun _ _ => rfl
  tasks := fun _ ht => ht
  undispatched := fun _ hk => (if_neg fun heq => hk heq.symm).symm
  isShut := fun _ hk => (beq_eq_false_iff_ne.2 fun heq => hk heq.symm).symm
  spreading := fun _ hs => nomatch hs

theorem Opened.Apart.underway (h : o.Apart tasks tasks' spreading spreading')
    (hbatches : ∀ n, n ≠ o.number → batches'[n]? = batches[n]?) {o' : Opened}
    (ho' : o'.Underway batches tasks spreading) (hne : o'.number ≠ o.number) :
    o'.Underway batches' tasks' spreading' :=
  ho'.frame (hbatches _ hne) (h.items _ hne ▸ List.Perm.refl _) (h.undispatched _ hne)
    (h.isShut _ hne)

end

section

variable {chunks : List Bytes} {answers : List (Nat × Reply)} {opened before after : List Opened}
  {o : Opened} {batches batches' : Array Batch} {v v' : Visitor} {tasks tasks' : List Task}
  {spreading spreading' : Option Spreading} {waiting : List Inbound}

/-- A batch is handled and stays open. -/
theorem Accounts.keep (h : Accounts chunks answers opened batches tasks spreading waiting)
    (ho : o ∈ opened) (hapart : o.Apart tasks tasks' spreading spreading')
    (hothers : ∀ n, n ≠ o.number → batches'[n]? = batches[n]?)
    (hunderway : o.Underway batches' tasks' spreading') :
    Accounts chunks answers opened batches' tasks' spreading' waiting where
  le := h.le
  waiting := h.waiting
  numbers := h.numbers
  right := h.right
  inOrder := h.inOrder
  distinct := h.distinct
  underway := fun o' ho' => by
    by_cases hsame : o'.number = o.number
    · rw [List.inj_on_of_nodup_map h.distinct ho' ho hsame]
      exact hunderway
    · exact hapart.underway hothers (h.underway o' ho') hsame
  batch := h.batch
  task := fun t ht => h.task t (hapart.tasks t ht)
  spread := fun s hs => h.spread s (hapart.spreading s hs)

/-- A batch is handled to the end, and answered. -/
theorem Accounts.close {r : Reply}
    (h : Accounts chunks answers (before ++ o :: after) batches tasks spreading waiting)
    (hapart : o.Apart tasks tasks' spreading spreading')
    (hothers : ∀ n, n ≠ o.number → batches'[n]? = batches[n]?)
    (hitems : itemsOf o.number tasks' = []) (hopen : isShut o.number spreading' = false)
    (hright : ∃ chunk, chunks[o.origin]? = some chunk ∧ Answers chunk r) (hdone : IsBatchDone r) :
    Accounts chunks (answers ++ [(o.origin, r)]) (before ++ after) batches' tasks' spreading'
      waiting := by
  have hmiddle : (before ++ o :: after).Perm (o :: (before ++ after)) := List.perm_middle
  have hsub : ∀ o' ∈ before ++ after, o' ∈ before ++ o :: after := fun o' ho' =>
    hmiddle.mem_iff.2 (List.mem_cons_of_mem o ho')
  have hdistinct := (hmiddle.map (·.number)).nodup_iff.1 h.distinct
  rw [List.map_cons, List.nodup_cons] at hdistinct
  have hne : ∀ o' ∈ before ++ after, o'.number ≠ o.number := fun o' ho' heq =>
    hdistinct.1 (heq ▸ List.mem_map_of_mem ho')
  have hmem : ∀ n, n ∈ (before ++ o :: after).map (·.number) → n ≠ o.number →
      n ∈ (before ++ after).map (·.number) := fun n hn hne =>
    (List.mem_cons.1 ((hmiddle.map (·.number)).mem_iff.1 hn)).resolve_left hne
  have hlen : (answers ++ [(o.origin, r)]).length + (before ++ after).length =
      answers.length + (before ++ o :: after).length := by
    simp only [List.length_append, List.length_cons, List.length_nil]
    omega
  refine ⟨hlen.symm ▸ h.le, hlen.symm ▸ h.waiting, ?_, fun a ha => ?_,
    inOrder_concat h.inOrder fun _ _ => .inr hdone, hdistinct.2,
    fun o' ho' => hapart.underway hothers (h.underway o' (hsub o' ho')) (hne o' ho'),
    fun o' ho' => h.batch o' (hsub o' ho'), fun t ht => ?_, fun s hs => ?_⟩
  · rw [hlen, List.map_append, List.append_assoc]
    exact ((hmiddle.map (·.origin)).symm.append_left _).trans h.numbers
  · rcases List.mem_append.1 ha with ha | ha
    · exact h.right a ha
    · rw [List.mem_singleton.1 ha]
      exact hright
  · refine hmem _ (h.task t (hapart.tasks t ht)) fun heq => ?_
    have hitem := mem_itemsOf_iff.2 ht
    rw [heq, hitems] at hitem
    cases hitem
  · refine hmem _ (h.spread s (hapart.spreading s hs)) fun heq => ?_
    rw [hs] at hopen
    exact beq_eq_false_iff_ne.1 hopen heq

/-- A batch is handled. If that makes a reply, it is paid for with the work the batch stood for. -/
theorem Accounts.handled (h : Accounts chunks answers opened v.batches tasks spreading waiting)
    (ho : o ∈ opened) (hlistening : v.listening = true)
    (hapart : o.Apart tasks tasks' spreading spreading') (hv : o.Handled v tasks' spreading' v') :
    ∃ answers' opened', Accounts chunks answers' opened' v'.batches tasks' spreading' waiting ∧
      Replied v v' answers answers' ∧
      total (v'.sent.map Connection.replyWork) + 120 * armed v'.batches ≤
        total (v.sent.map Connection.replyWork) + 120 * armed v.batches := by
  cases hv with
  | @waits batches hothers harmed hunderway =>
    refine ⟨answers, opened, h.keep ho hapart hothers hunderway,
      ⟨rfl, [], (List.append_nil _).symm, rfl⟩, ?_⟩
    exact Nat.le_of_eq (by rw [harmed])
  | @replies batches r hothers harmed hitems hopen hright =>
    obtain ⟨before, after, rfl⟩ := List.append_of_mem ho
    obtain ⟨chunk, hget, hdecode⟩ := h.batch o ho
    have hanswers := hright chunk hdecode
    obtain ⟨hdone, hshort⟩ := hanswers.of_batch hdecode
    have hsent : ({ v with batches := batches } : Visitor).reply r =
        { v with batches := batches, sent := r :: v.sent } := if_pos hlistening
    rw [hsent]
    refine ⟨_, _, h.close hapart hothers hitems hopen ⟨chunk, hget, hanswers⟩ hdone,
      ⟨rfl, _, rfl, rfl⟩, ?_⟩
    show Connection.replyWork r + total (v.sent.map Connection.replyWork) + 120 * armed batches ≤ _
    unfold Connection.replyWork
    omega

end

end ChunkRouter.Router
