import ChunkRouter.Join.Basic
import ChunkRouter.Proofs.Message.Sizes
import ChunkRouter.Router.Connection

/-!
# Right answers

What the right reply to a chunk is, said of the chunk's bytes alone, and what follows of its length. The
reply to a batch is told by how many of its items are empty, so it is the same for every order in
which the items may be handled.
-/

namespace ChunkRouter.Router

open Join (Outcome Tally tally)
open Message (Reply Request)

/-! ## Batches -/

/-- The error of a batch item, if it has one. -/
def failure? (item : Bytes) : Option String :=
  match Visitor.handleItem item with
  | .error e => some e
  | .ok _ => none

/-- The first error among the items of a batch. -/
def firstFailure? (items : List Bytes) : Option String := items.findSome? failure?

def emptyItems (items : List Bytes) : Nat := items.countP fun item => item.isEmpty

def fullItems (items : List Bytes) : Nat := items.countP fun item => !item.isEmpty

theorem emptyItems_cons (item : Bytes) (items : List Bytes) :
    emptyItems (item :: items) = emptyItems items + item.isEmpty.toNat := by
  rw [emptyItems, List.countP_cons]
  cases item <;> rfl

theorem fullItems_cons (item : Bytes) (items : List Bytes) :
    fullItems (item :: items) = fullItems items + (!item.isEmpty).toNat := by
  rw [fullItems, List.countP_cons]
  cases item <;> rfl

theorem fullItems_add_emptyItems (items : List Bytes) :
    fullItems items + emptyItems items = items.length := by
  induction items with
  | nil => rfl
  | cons item items ih =>
    rw [fullItems_cons, emptyItems_cons, List.length_cons]
    cases item.isEmpty
    · show fullItems items + 1 + emptyItems items = _
      omega
    · show fullItems items + (emptyItems items + 1) = _
      omega

/-- Every failure is the same, so the first one is told by whether there is one. -/
theorem firstFailure?_eq (items : List Bytes) :
    firstFailure? items = if emptyItems items = 0 then none else some "empty batch item" := by
  induction items with
  | nil => rfl
  | cons item items ih =>
    rw [emptyItems_cons]
    cases item with
    | nil => exact (if_neg (Nat.succ_ne_zero _)).symm
    | cons b item => exact ih

/-- An outcome sums `items` up. -/
structure Tallied (o : Outcome Tally String) (items : List Bytes) : Prop where
  accepted : (o.result.getD .zero).accepted.toNat = fullItems items
  rejected : (o.result.getD .zero).rejected.toNat = emptyItems items
  error : o.error = firstFailure? items

theorem tallied_initial : Tallied .initial [] := ⟨rfl, rfl, rfl⟩

/-- The order of the items does not matter. -/
theorem Tallied.perm {o : Outcome Tally String} {items items' : List Bytes} (h : Tallied o items)
    (hperm : items.Perm items') : Tallied o items' where
  accepted := h.accepted.trans (hperm.countP_eq _)
  rejected := h.rejected.trans (hperm.countP_eq _)
  error := by
    rw [h.error, firstFailure?_eq, firstFailure?_eq]
    unfold emptyItems
    rw [hperm.countP_eq]

/-- One item more; the sums are in no danger of leaving 32 bits. -/
theorem Tallied.tally {o : Outcome Tally String} {items : List Bytes} (h : Tallied o items)
    (hlen : items.length + 1 < 4294967296) (item : Bytes) (last : Bool) :
    Tallied (tally o (Visitor.handleItem item) last) (item :: items) := by
  have hsum := fullItems_add_emptyItems items
  have haccepted := h.accepted
  have hrejected := h.rejected
  have herror := h.error
  cases item with
  | nil =>
    refine ⟨haccepted, ?_, ?_⟩
    · rw [emptyItems_cons]
      show ((o.result.getD .zero).rejected + 1).toNat = emptyItems items + 1
      rw [UInt32.toNat_add, hrejected]
      show (emptyItems items + 1) % 4294967296 = _
      exact Nat.mod_eq_of_lt (by omega)
    · show some (o.error.getD "empty batch item") = some "empty batch item"
      rw [herror, firstFailure?_eq]
      split <;> rfl
  | cons b item =>
    refine ⟨?_, ?_, herror⟩
    · rw [fullItems_cons]
      show ((o.result.getD .zero).accepted + 1).toNat = fullItems items + 1
      rw [UInt32.toNat_add, haccepted]
      show (fullItems items + 1) % 4294967296 = _
      exact Nat.mod_eq_of_lt (by omega)
    · rw [emptyItems_cons]
      show ((o.result.getD .zero).rejected + 0).toNat = emptyItems items
      rw [UInt32.add_zero, hrejected]

/-! ## Chunks -/

/-- The right reply to a chunk. -/
inductive Answers (chunk : Bytes) : Reply → Prop
  | ping {nonce : UInt64} (h : Request.decode chunk = .ok (.ping nonce, [])) :
      Answers chunk (.pong nonce)
  | echo {body : Bytes} (h : Request.decode chunk = .ok (.echo body, [])) :
      Answers chunk (.echo body)
  | batch {id : UInt64} {items : List Bytes} {good bad : UInt32}
      (h : Request.decode chunk = .ok (.batch id items, [])) (hgood : good.toNat = fullItems items)
      (hbad : bad.toNat = emptyItems items) :
      Answers chunk (.batchDone id good bad (firstFailure? items))
  | undecodable {e : Wire.DecodeError} (h : Request.decode chunk = .error e) :
      Answers chunk (.rejected e.message)
  | trailing {r : Request} {rest : Bytes} (h : Request.decode chunk = .ok (r, rest))
      (hrest : rest ≠ []) :
      Answers chunk (.rejected (toString rest.length ++ " trailing bytes after request"))

/-- Whether a chunk is a batch request. -/
def IsBatch (chunk : Bytes) : Prop := ∃ id items, Request.decode chunk = .ok (.batch id items, [])

/-- A reply to a batch. -/
def IsBatchDone (r : Reply) : Prop := ∃ id good bad first, r = .batchDone id good bad first

section

variable {chunk : Bytes}

theorem Inbound.ofChunk_eq_request {r : Request} (h : ofChunk chunk = .request r) :
    Request.decode chunk = .ok (r, []) := by
  unfold ofChunk at h
  split at h
  · rename_i hdecode
    cases h
    exact hdecode
  · cases h
  · cases h

/-- Chunks that are answered at once are answered right. -/
theorem answers_of_replyTo? {r : Reply} (h : Connection.replyTo? (.ofChunk chunk) = some r) :
    Answers chunk r := by
  cases hx : Inbound.ofChunk chunk with
  | request request =>
    have hdecode := Inbound.ofChunk_eq_request hx
    rw [hx] at h
    cases request with
    | ping nonce =>
      cases h
      exact .ping hdecode
    | echo body =>
      cases h
      exact .echo hdecode
    | batch id items => cases h
  | malformed reason =>
    rw [hx] at h
    cases h
    unfold Inbound.ofChunk at hx
    split at hx
    · cases hx
    · rename_i r rest hne hdecode
      cases hx
      exact .trailing hdecode fun hnil => hne hnil
    · rename_i e hdecode
      cases hx
      exact .undecodable hdecode

/-- A batch is answered right by what its items come to. -/
theorem answers_batchReply {id : UInt64} {items : List Bytes} {o : Outcome Tally String}
    (h : Request.decode chunk = .ok (.batch id items, [])) (ho : Tallied o items) :
    Answers chunk (Visitor.batchReply id o) := by
  have hbatch := Answers.batch h ho.accepted ho.rejected
  rw [← ho.error] at hbatch
  exact hbatch

/-- Replies to batches are short. -/
theorem length_batchDone_le (id : UInt64) (good bad : UInt32) (items : List Bytes) :
    (Reply.encode (.batchDone id good bad (firstFailure? items))).length ≤ 38 := by
  refine Reply.length_batchDone_le id good bad fun s hs => ?_
  rw [firstFailure?_eq] at hs
  split at hs
  · cases hs
  · cases hs
    decide +kernel

/-- Whether a chunk asks to have its number or its bytes sent back. -/
def IsMirror (chunk : Bytes) : Prop :=
  (∃ nonce, Request.decode chunk = .ok (.ping nonce, [])) ∨
    ∃ body, Request.decode chunk = .ok (.echo body, [])

/-- What is sent back is no longer than the request. -/
theorem Answers.length_le_of_mirror {r : Reply} (h : Answers chunk r) (hmirror : IsMirror chunk) :
    r.encode.length ≤ chunk.length := by
  cases h with
  | ping hdecode => exact (Request.decode_ok hdecode).2.1 _ rfl
  | echo hdecode => exact (Request.decode_ok hdecode).2.2.1 _ rfl
  | batch hdecode _ _ | undecodable hdecode =>
    rcases hmirror with ⟨nonce, hping⟩ | ⟨body, hecho⟩
    · cases hping.symm.trans hdecode
    · cases hecho.symm.trans hdecode
  | trailing hdecode hrest =>
    rcases hmirror with ⟨nonce, hping⟩ | ⟨body, hecho⟩
    · cases hping.symm.trans hdecode
      exact absurd rfl hrest
    · cases hecho.symm.trans hdecode
      exact absurd rfl hrest

/-- All other replies are short, however long the request. -/
theorem Answers.length_le_of_not_mirror {r : Reply} (h : Answers chunk r)
    (hchunk : chunk.length < 4294967296) (hmirror : ¬IsMirror chunk) : r.encode.length ≤ 98 := by
  cases h with
  | ping hdecode => exact absurd (.inl ⟨_, hdecode⟩) hmirror
  | echo hdecode => exact absurd (.inr ⟨_, hdecode⟩) hmirror
  | @batch id items good bad _ _ _ =>
    have hlen := length_batchDone_le id good bad items
    omega
  | undecodable hdecode => exact Reply.length_rejected_le (Request.decode_error hdecode)
  | @trailing _ rest hdecode _ =>
    have hrest := (Request.decode_ok hdecode).1
    have hback : (Text.Utf8.encode " trailing bytes after request").length = 29 := by decide +kernel
    have hdigits := Text.Utf8.length_encode_toString (n := rest.length) (by omega)
    apply Reply.length_rejected_le
    rw [Text.Utf8.encode_append, List.length_append, hback]
    omega

/-- A right reply has room in a chunk of the length of the request, or of 128 bytes. -/
theorem Answers.length_le {r : Reply} (h : Answers chunk r) (hchunk : chunk.length < 4294967296) :
    r.encode.length ≤ max chunk.length 128 := by
  by_cases hmirror : IsMirror chunk
  · have hlen := h.length_le_of_mirror hmirror
    omega
  · have hlen := h.length_le_of_not_mirror hchunk hmirror
    omega

/-- Batches are answered by what they come to. -/
theorem Answers.of_batch {id : UInt64} {items : List Bytes} {r : Reply} (h : Answers chunk r)
    (hbatch : Request.decode chunk = .ok (.batch id items, [])) :
    IsBatchDone r ∧ r.encode.length ≤ 38 := by
  cases h with
  | ping hdecode => cases hbatch.symm.trans hdecode
  | echo hdecode => cases hbatch.symm.trans hdecode
  | @batch id' items' good bad hdecode _ _ =>
    exact ⟨⟨id', good, bad, _, rfl⟩, length_batchDone_le id' good bad items'⟩
  | undecodable hdecode => cases hbatch.symm.trans hdecode
  | trailing hdecode hrest =>
    cases hbatch.symm.trans hdecode
    exact absurd rfl hrest

/-- Nothing else is answered so. -/
theorem Answers.isBatch {r : Reply} (h : Answers chunk r) (hdone : IsBatchDone r) : IsBatch chunk := by
  obtain ⟨id, good, bad, first, rfl⟩ := hdone
  cases h with
  | batch hdecode _ _ => exact ⟨id, _, hdecode⟩

end

/-- A batch that a chunk spells has fewer items than 32 bits count. -/
theorem length_items_lt {chunk : Bytes} {id : UInt64} {items : List Bytes}
    (h : Request.decode chunk = .ok (.batch id items, [])) : items.length < 4294967295 := by
  have hle := (Request.decode_ok h).2.2.2 id items rfl
  unfold Wire.decodeLimit at hle
  omega

end ChunkRouter.Router
