import ChunkRouter.Frame.Limits
import ChunkRouter.Proofs.Message.RoundTrip

/-!
# What a request costs

A decoder counts what it claims and not what it reads: a body costs its length and a little more, but
every item of a batch costs the room for a byte string until the item is read. `Request.peak` is the
highest count, and `decode_encode` says that a request comes back from its bytes just when its peak is
within the budget.
-/

namespace ChunkRouter.Message.Request

open Wire
open Wire.Cursor (itemClaim)

/-! ## The peak -/

/-- The highest count while `items` are read, above what was counted before the room for them. -/
def peakOfItems : List Bytes → Nat
  | [] => 0
  | b :: items => max (itemClaim * (items.length + 1)) (8 + b.length + peakOfItems items)

/-- The highest count while a request is decoded. -/
def peak : Request → Nat
  | .ping _ => 12
  | .echo body => 12 + body.length
  | .batch _ items => 20 + peakOfItems items

section

variable {items : List Bytes} {claimed : Nat}

theorem le_peakOfItems (items : List Bytes) : itemClaim * items.length ≤ peakOfItems items := by
  cases items with
  | nil => exact Nat.le_refl _
  | cons b items => exact Nat.le_max_left _ _

/-- Once there is room for all items, reading them keeps within the budget just when their peak does. -/
theorem affordable_items (hroom : claimed + itemClaim * items.length ≤ decodeLimit) :
    Affordable (claimed + itemClaim * items.length)
        (items.flatMap fun b => .giveBack itemClaim :: bytesCharges b) ↔
      claimed + peakOfItems items ≤ decodeLimit := by
  induction items generalizing claimed with
  | nil => exact ⟨fun _ => hroom, fun _ => trivial⟩
  | cons b items ih =>
    have hbelow := le_peakOfItems items
    have hlength : itemClaim * (b :: items).length = itemClaim * items.length + itemClaim := by
      rw [List.length_cons, Nat.mul_succ]
    have hpeak : peakOfItems (b :: items) =
        max (itemClaim * items.length + itemClaim) (8 + b.length + peakOfItems items) := by
      rw [peakOfItems, Nat.mul_succ]
    have hgiven : claimed + itemClaim * (b :: items).length - itemClaim =
        claimed + itemClaim * items.length := by
      omega
    show Affordable _ (.giveBack itemClaim :: .claim 8 :: .claim b.length ::
      items.flatMap fun b => .giveBack itemClaim :: bytesCharges b) ↔ _
    simp only [Affordable, Charge.settle, hgiven]
    rw [show claimed + itemClaim * items.length + 8 + b.length =
      claimed + 8 + b.length + itemClaim * items.length by omega, hpeak]
    constructor
    · rintro ⟨-, -, hbody, hrest⟩
      have hlater := (ih hbody).1 hrest
      omega
    · intro hle
      have hbody : claimed + 8 + b.length + itemClaim * items.length ≤ decodeLimit := by omega
      exact ⟨by omega, by omega, hbody, (ih hbody).2 (by omega)⟩

end

/-- A request is affordable just when its peak is within the budget. -/
theorem affordable_iff_peak_le (r : Request) : Affordable 0 r.charges ↔ r.peak ≤ decodeLimit := by
  have hlimit : 20 ≤ decodeLimit := by decide
  cases r with
  | ping nonce =>
    simp only [charges, Affordable, Charge.settle, peak, and_true]
    omega
  | echo body =>
    simp only [charges, bytesCharges, Affordable, Charge.settle, peak, and_true]
    omega
  | batch id items =>
    have hbelow := le_peakOfItems items
    have hitems (hroom : 20 + itemClaim * items.length ≤ decodeLimit) := affordable_items hroom
    show Affordable 0 (.claim 4 :: .claim 8 :: .claim 8 :: .claim (itemClaim * items.length) ::
      items.flatMap fun b => .giveBack itemClaim :: bytesCharges b) ↔ _
    simp only [Affordable, Charge.settle, Nat.zero_add, Nat.reduceAdd, peak]
    constructor
    · rintro ⟨-, -, -, hroom, hrest⟩
      exact (hitems hroom).1 hrest
    · intro hle
      have hroom : 20 + itemClaim * items.length ≤ decodeLimit := by omega
      exact ⟨by omega, by omega, hlimit, hroom, (hitems hroom).2 hle⟩

/-! ## Requests that fit a frame -/

theorem length_lt_encodeBytes (b : Bytes) : b.length < (encodeBytes b).length := by
  have hpos := List.length_pos_iff.2 (Varint.encode_ne_nil b.length)
  rw [encodeBytes, List.length_append]
  omega

/-- The encoding of a list is longer than the list, and than each of its items. -/
theorem length_lt_encodeBytesList (items : List Bytes) :
    items.length < (encodeBytesList items).length ∧
      ∀ b ∈ items, b.length < (encodeBytesList items).length := by
  have hpos := List.length_pos_iff.2 (Varint.encode_ne_nil items.length)
  have hitems : items.length ≤ (items.flatMap encodeBytes).length ∧
      ∀ b ∈ items, b.length ≤ (items.flatMap encodeBytes).length := by
    clear hpos
    induction items with
    | nil => exact ⟨Nat.le_refl _, fun _ h => nomatch h⟩
    | cons b items ih =>
      have hfirst := length_lt_encodeBytes b
      rw [List.flatMap_cons, List.length_append, List.length_cons]
      refine ⟨by omega, fun b' hb' => ?_⟩
      rcases List.mem_cons.1 hb' with rfl | hb'
      · omega
      · have hlater := ih.2 b' hb'
        omega
  rw [encodeBytesList, List.length_append]
  refine ⟨by omega, fun b hb => ?_⟩
  have hle := hitems.2 b hb
  omega

/-- Lengths in a request that fits a frame are numbers of 64 bits. -/
theorem measured_of_length_le {r : Request} (h : r.encode.length ≤ Frame.maxBodyLen) :
    r.Measured := by
  have hframe : Frame.maxBodyLen < 18446744073709551616 := by decide
  cases r with
  | ping nonce => trivial
  | echo body =>
    have hbody := length_lt_encodeBytes body
    rw [encode, List.length_cons] at h
    show body.length < _
    omega
  | batch id items =>
    obtain ⟨hcount, hitems⟩ := length_lt_encodeBytesList items
    rw [encode, List.length_cons, List.length_append] at h
    refine ⟨by omega, fun b hb => ?_⟩
    have hb := hitems b hb
    omega

/-- A request that fits a frame comes back from its bytes just when its peak is within the budget. -/
theorem decode_encode {r : Request} (h : r.encode.length ≤ Frame.maxBodyLen) :
    decode r.encode = if r.peak ≤ decodeLimit then .ok (r, []) else .error .limitExceeded := by
  have hstart := (spells (measured_of_length_le h)).start []
  simp only [List.append_nil, affordable_iff_peak_le] at hstart
  exact hstart

theorem encode_ne_nil (r : Request) : r.encode ≠ [] := by
  cases r <;> exact List.cons_ne_nil _ _

end ChunkRouter.Message.Request
