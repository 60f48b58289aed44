import ChunkRouter.Proofs.Message.Sizes
import ChunkRouter.Proofs.Text.Utf8

/-!
# Messages and back

Decoding what was encoded gives the message and the bytes behind it, or says that the message asks
for too much. `Charge` lists what a decoder claims and gives back on the way, so that `Affordable`
tells which of the two happens without a look at the bytes. `Spells` says this of one decoder, its
bytes and its charges; the decoders of messages are put together from those of their fields.
-/

namespace ChunkRouter.Wire

/-! ## The budget -/

/-- What a decoder does to its budget. -/
inductive Charge where
  | claim (n : Nat)
  | giveBack (n : Nat)
  deriving DecidableEq, Repr

/-- What is claimed after a charge. -/
def Charge.settle (claimed : Nat) : Charge → Nat
  | .claim n => claimed + n
  | .giveBack n => claimed - n

/-- What is claimed after all charges. -/
def balance (claimed : Nat) (charges : List Charge) : Nat := charges.foldl Charge.settle claimed

/-- No charge takes the running claim beyond the budget. -/
def Affordable (claimed : Nat) : List Charge → Prop
  | [] => True
  | charge :: charges =>
    charge.settle claimed ≤ decodeLimit ∧ Affordable (charge.settle claimed) charges

instance Affordable.decidable : ∀ claimed charges, Decidable (Affordable claimed charges)
  | _, [] => .isTrue trivial
  | claimed, charge :: charges =>
    have := Affordable.decidable (charge.settle claimed) charges
    inferInstanceAs (Decidable (_ ∧ _))

section

variable {claimed : Nat} {charges charges' : List Charge}

theorem balance_append :
    balance claimed (charges ++ charges') = balance (balance claimed charges) charges' :=
  List.foldl_append

theorem affordable_append :
    Affordable claimed (charges ++ charges') ↔
      Affordable claimed charges ∧ Affordable (balance claimed charges) charges' := by
  induction charges generalizing claimed with
  | nil => exact ⟨fun h => ⟨trivial, h⟩, fun h => h.2⟩
  | cons charge charges ih =>
    show _ ∧ Affordable _ (charges ++ charges') ↔ (_ ∧ _) ∧ Affordable (balance _ charges) charges'
    rw [ih, and_assoc]

theorem Affordable.balance_le (h : Affordable claimed charges) (hle : claimed ≤ decodeLimit) :
    balance claimed charges ≤ decodeLimit := by
  induction charges generalizing claimed with
  | nil => exact hle
  | cons charge charges ih => exact ih h.2 h.1

end

/-! ## Charges of fields -/

def bytesCharges (b : Bytes) : List Charge := [.claim 8, .claim b.length]

/-- Room for all items is claimed at once and given back one by one. -/
def bytesListCharges (list : List Bytes) : List Charge :=
  .claim 8 :: .claim (Cursor.itemClaim * list.length) ::
    list.flatMap fun b => .giveBack Cursor.itemClaim :: bytesCharges b

def textCharges (s : String) : List Charge := bytesCharges (Text.Utf8.encode s)

def optionalTextCharges : Option String → List Charge
  | none => [.claim 1]
  | some s => .claim 1 :: textCharges s

/-! ## Decoders and what they read -/

/-- Off the front of a cursor that starts with `bytes`, a decoder reads them as `x` and makes these
charges, or refuses if it cannot afford them. -/
structure Spells {α : Type} (d : Decoder α) (bytes : Bytes) (charges : List Charge) (x : α) : Prop where
  reads : ∀ {claimed : Nat} (rest : Bytes), Affordable claimed charges →
    d ⟨bytes ++ rest, claimed⟩ = .ok (x, ⟨rest, balance claimed charges⟩)
  refuses : ∀ {claimed : Nat} (rest : Bytes), claimed ≤ decodeLimit → ¬ Affordable claimed charges →
    d ⟨bytes ++ rest, claimed⟩ = .error .limitExceeded

namespace Spells

variable {α β : Type} {d : Decoder α} {bytes bytes' : Bytes} {charges charges' : List Charge} {x : α}

/-- A decoder that claims nothing. -/
theorem free (h : ∀ rest claimed, d ⟨bytes ++ rest, claimed⟩ = .ok (x, ⟨rest, claimed⟩)) :
    Spells d bytes [] x where
  reads rest _ := h rest _
  refuses _ _ hnot := absurd trivial hnot

theorem pure (x : α) : Spells (fun c => .ok (x, c)) [] [] x := free fun _ _ => rfl

theorem bind {f : α × Cursor → Except DecodeError (β × Cursor)} {y : β}
    (hd : Spells d bytes charges x) (hf : Spells (fun c => f (x, c)) bytes' charges' y) :
    Spells (fun c => d c >>= f) (bytes ++ bytes') (charges ++ charges') y where
  reads {claimed} rest h := by
    obtain ⟨hfirst, hsecond⟩ := affordable_append.1 h
    show d ⟨bytes ++ bytes' ++ rest, claimed⟩ >>= f = _
    rw [List.append_assoc, hd.reads _ hfirst, balance_append]
    exact hf.reads rest hsecond
  refuses {claimed} rest hle h := by
    show d ⟨bytes ++ bytes' ++ rest, claimed⟩ >>= f = _
    rw [List.append_assoc]
    by_cases hfirst : Affordable claimed charges
    · rw [hd.reads _ hfirst]
      exact hf.refuses rest (hfirst.balance_le hle) fun hsecond =>
        h (affordable_append.2 ⟨hfirst, hsecond⟩)
    · rw [hd.refuses _ hle hfirst]
      rfl

/-- What was read last makes up the value. -/
theorem finish {f : α × Cursor → Except DecodeError (β × Cursor)} {y : β}
    (hd : Spells d bytes charges x) (hf : ∀ c, f (x, c) = .ok (y, c)) :
    Spells (fun c => d c >>= f) bytes charges y := by
  have hlast : Spells (fun c => f (x, c)) [] [] y := free fun rest claimed => hf ⟨rest, claimed⟩
  have h := hd.bind hlast
  rwa [List.append_nil, List.append_nil] at h

/-- A message on its own, and whatever stands behind it. -/
theorem start (hd : Spells d bytes charges x) (t : Bytes) :
    (d (.start (bytes ++ t))).map (fun p => (p.1, p.2.rest)) =
      if Affordable 0 charges then .ok (x, t) else .error .limitExceeded := by
  unfold Cursor.start
  split
  · rename_i hafford
    rw [hd.reads t hafford]
    rfl
  · rename_i hnot
    rw [hd.refuses t (Nat.zero_le _) hnot]
    rfl

theorem claim (n : Nat) (hd : Spells d bytes charges x) :
    Spells (fun c => c.claim n >>= d) bytes (.claim n :: charges) x where
  reads {claimed} rest h := by
    obtain ⟨hle, hrest⟩ := h
    have hclaim : Cursor.claim n ⟨bytes ++ rest, claimed⟩ = .ok ⟨bytes ++ rest, claimed + n⟩ :=
      if_neg (Nat.not_lt.2 hle)
    show Cursor.claim n ⟨bytes ++ rest, claimed⟩ >>= d = _
    rw [hclaim]
    exact hd.reads rest hrest
  refuses {claimed} rest hle h := by
    show Cursor.claim n ⟨bytes ++ rest, claimed⟩ >>= d = _
    rw [Cursor.claim]
    split
    · rfl
    · rename_i hn
      exact hd.refuses rest (Nat.not_lt.1 hn) fun hrest => h ⟨Nat.not_lt.1 hn, hrest⟩

theorem giveBack (n : Nat) (hd : Spells d bytes charges x) :
    Spells (fun c => d (c.release n)) bytes (.giveBack n :: charges) x where
  reads rest h := hd.reads rest h.2
  refuses {claimed} rest hle h := by
    have hless : claimed - n ≤ decodeLimit := Nat.le_trans (Nat.sub_le claimed n) hle
    exact hd.refuses rest hless fun hrest => h ⟨hless, hrest⟩

end Spells

namespace Cursor

open Spells

/-! ## Numbers -/

section

variable {n : Nat}

theorem littleEndian_append (width : Nat) (h : n < 1 <<< (8 * width)) (rest : Bytes) (claimed : Nat) :
    littleEndian width ⟨Varint.littleEndian width n ++ rest, claimed⟩ = .ok (n, ⟨rest, claimed⟩) := by
  have hcut := Bytes.cut_append (Varint.littleEndian width n) rest
  rw [Varint.length_littleEndian] at hcut
  unfold littleEndian take
  rw [hcut]
  show Except.ok (Varint.ofLittleEndian (Varint.littleEndian width n), _) = _
  rw [Varint.ofLittleEndian_littleEndian h]

/-- A number that is its own marker. -/
theorem marker_le (h : n ≤ 250) : n.toUInt8 ≤ 250 ∧ n.toUInt8.toNat = n := by
  have hn : n.toUInt8.toNat = n := UInt8.toNat_ofNat_of_lt' (Nat.lt_of_le_of_lt h (by decide))
  exact ⟨UInt8.le_iff_toNat_le.2 (hn.symm ▸ h), hn⟩

theorem spells_u32 (h : n < 4294967296) : Spells u32 (Varint.encode n) [.claim 4] n := by
  refine Spells.claim 4 (.free fun rest claimed => ?_)
  unfold Varint.encode
  by_cases hone : n ≤ 250
  · obtain ⟨hmarker, hn⟩ := marker_le hone
    rw [if_pos hone]
    refine (if_pos hmarker).trans ?_
    rw [hn]
    rfl
  by_cases htwo : n < 65536
  · rw [if_neg hone, if_pos htwo]
    exact littleEndian_append 2 htwo rest claimed
  · rw [if_neg hone, if_neg htwo, if_pos h]
    exact littleEndian_append 4 h rest claimed

theorem spells_u64 (h : n < 18446744073709551616) : Spells u64 (Varint.encode n) [.claim 8] n := by
  refine Spells.claim 8 (.free fun rest claimed => ?_)
  unfold Varint.encode
  by_cases hone : n ≤ 250
  · obtain ⟨hmarker, hn⟩ := marker_le hone
    rw [if_pos hone]
    refine (if_pos hmarker).trans ?_
    rw [hn]
    rfl
  by_cases htwo : n < 65536
  · rw [if_neg hone, if_pos htwo]
    exact littleEndian_append 2 htwo rest claimed
  by_cases hfour : n < 4294967296
  · rw [if_neg hone, if_neg htwo, if_pos hfour]
    exact littleEndian_append 4 hfour rest claimed
  · rw [if_neg hone, if_neg htwo, if_neg hfour]
    exact littleEndian_append 8 h rest claimed

theorem spells_tag (tag : Nat) (h : tag ≤ 250) : Spells u32 [tag.toUInt8] [.claim 4] tag := by
  have hnumber := spells_u32 (Nat.lt_of_le_of_lt h (by decide))
  rwa [Varint.encode, if_pos h] at hnumber

end

/-! ## Byte strings and texts -/

theorem spells_bytes {b : Bytes} (h : b.length < 18446744073709551616) :
    Spells bytes (encodeBytes b) (bytesCharges b) b := by
  have htake : Spells (take b.length) b [] b :=
    .free fun rest claimed => by rw [take, Bytes.cut_append]
  exact (spells_u64 h).bind (htake.claim b.length)

/-- The claim for an item is given back before the item is read. -/
theorem spells_items {list : List Bytes} (h : ∀ b ∈ list, b.length < 18446744073709551616)
    (acc : List Bytes) :
    Spells (items list.length acc) (list.flatMap encodeBytes)
      (list.flatMap fun b => .giveBack itemClaim :: bytesCharges b) (acc.reverse ++ list) := by
  induction list generalizing acc with
  | nil =>
    rw [List.append_nil]
    exact .pure acc.reverse
  | cons b list ih =>
    have hfirst := (spells_bytes (h b List.mem_cons_self)).giveBack itemClaim
    have hrest := ih (fun b' hb' => h b' (List.mem_cons_of_mem b hb')) (b :: acc)
    rw [List.reverse_cons, List.append_assoc] at hrest
    have hstep : items (b :: list).length acc = fun c =>
        bytes (c.release itemClaim) >>= fun r => items list.length (r.1 :: acc) r.2 := by
      funext c
      rw [List.length_cons, items_succ]
      cases bytes (c.release itemClaim) <;> rfl
    rw [hstep]
    exact hfirst.bind hrest

theorem spells_bytesList {list : List Bytes} (hlength : list.length < 18446744073709551616)
    (h : ∀ b ∈ list, b.length < 18446744073709551616) :
    Spells bytesList (encodeBytesList list) (bytesListCharges list) list :=
  (spells_u64 hlength).bind ((spells_items h []).claim _)

theorem spells_text {s : String} (h : (Text.Utf8.encode s).length < 18446744073709551616) :
    Spells text (encodeText s) (textCharges s) s := by
  refine (spells_bytes h).finish fun c => ?_
  simp only [Text.Utf8.decode_encode]

theorem spells_optionalText {o : Option String}
    (h : ∀ s, o = some s → (Text.Utf8.encode s).length < 18446744073709551616) :
    Spells optionalText (encodeOptionalText o) (optionalTextCharges o) o := by
  cases o with
  | none => exact Spells.claim 1 (.free fun _ _ => rfl)
  | some s =>
    have hbyte : Spells byte [1] [] 1 := .free fun _ _ => rfl
    refine Spells.claim 1 (hbyte.bind ?_)
    exact (spells_text (h s rfl)).finish fun c => rfl

end Cursor

end ChunkRouter.Wire

namespace ChunkRouter.Message

open Wire

/-! ## Messages -/

namespace Request

/-- What the decoder charges for a request. -/
def charges : Request → List Charge
  | .ping _ => [.claim 4, .claim 8]
  | .echo body => .claim 4 :: bytesCharges body
  | .batch _ items => .claim 4 :: .claim 8 :: bytesListCharges items

/-- Every length in a request is a number of 64 bits. -/
def Measured : Request → Prop
  | .ping _ => True
  | .echo body => body.length < 18446744073709551616
  | .batch _ items =>
    items.length < 18446744073709551616 ∧ ∀ b ∈ items, b.length < 18446744073709551616

/-- A body as large as the budget is more than it can pay for. -/
theorem not_affordable_echo {body : Bytes} (h : decodeLimit ≤ body.length) :
    ¬ Affordable 0 (echo body).charges := by
  rintro ⟨-, -, hclaim, -⟩
  simp only [Charge.settle] at hclaim
  omega

theorem spells {m : Request} (h : m.Measured) : Spells read m.encode m.charges m := by
  cases m with
  | ping nonce =>
    refine (Cursor.spells_tag 0 (by decide)).bind ?_
    refine (Cursor.spells_u64 nonce.toNat_lt).finish fun c => ?_
    show Except.ok (ping nonce.toNat.toUInt64, c) = _
    rw [Nat.toUInt64, UInt64.ofNat_toNat]
  | echo body =>
    refine (Cursor.spells_tag 1 (by decide)).bind ?_
    exact (Cursor.spells_bytes h).finish fun c => rfl
  | batch id items =>
    refine (Cursor.spells_tag 2 (by decide)).bind ?_
    refine (Cursor.spells_u64 id.toNat_lt).bind ?_
    refine (Cursor.spells_bytesList h.1 h.2).finish fun c => ?_
    show Except.ok (batch id.toNat.toUInt64 items, c) = _
    rw [Nat.toUInt64, UInt64.ofNat_toNat]

end Request

namespace Reply

/-- What the decoder charges for a reply. -/
def charges : Reply → List Charge
  | .pong _ => [.claim 4, .claim 8]
  | .echo body => .claim 4 :: bytesCharges body
  | .batchDone _ _ _ firstError =>
    .claim 4 :: .claim 8 :: .claim 4 :: .claim 4 :: optionalTextCharges firstError
  | .rejected reason => .claim 4 :: textCharges reason

/-- Every length in a reply is a number of 64 bits. -/
def Measured : Reply → Prop
  | .pong _ => True
  | .echo body => body.length < 18446744073709551616
  | .batchDone _ _ _ firstError =>
    ∀ s, firstError = some s → (Text.Utf8.encode s).length < 18446744073709551616
  | .rejected reason => (Text.Utf8.encode reason).length < 18446744073709551616

theorem spells {m : Reply} (h : m.Measured) : Spells read m.encode m.charges m := by
  cases m with
  | pong nonce =>
    refine (Cursor.spells_tag 0 (by decide)).bind ?_
    refine (Cursor.spells_u64 nonce.toNat_lt).finish fun c => ?_
    show Except.ok (pong nonce.toNat.toUInt64, c) = _
    rw [Nat.toUInt64, UInt64.ofNat_toNat]
  | echo body =>
    refine (Cursor.spells_tag 1 (by decide)).bind ?_
    exact (Cursor.spells_bytes h).finish fun c => rfl
  | batchDone id good bad firstError =>
    have hencode : (batchDone id good bad firstError).encode = 2 :: (Varint.encode id.toNat ++
        (Varint.encode good.toNat ++ (Varint.encode bad.toNat ++ encodeOptionalText firstError))) := by
      rw [encode, List.append_assoc, List.append_assoc]
    rw [hencode]
    refine (Cursor.spells_tag 2 (by decide)).bind ?_
    refine (Cursor.spells_u64 id.toNat_lt).bind ?_
    refine (Cursor.spells_u32 good.toNat_lt).bind ?_
    refine (Cursor.spells_u32 bad.toNat_lt).bind ?_
    refine (Cursor.spells_optionalText h).finish fun c => ?_
    show Except.ok (batchDone id.toNat.toUInt64 good.toNat.toUInt32 bad.toNat.toUInt32 firstError, c) = _
    simp only [Nat.toUInt64, Nat.toUInt32, UInt64.ofNat_toNat, UInt32.ofNat_toNat]
  | rejected reason =>
    refine (Cursor.spells_tag 3 (by decide)).bind ?_
    exact (Cursor.spells_text h).finish fun c => rfl

end Reply

/-- **Messages come back, within the budget.** A request or reply whose lengths are numbers of 64 bits,
with anything behind its bytes, is decoded to itself, and what stood behind it is left; if what is
claimed on the way goes beyond the budget at any point, decoding says so instead. -/
theorem round_trip_within_budget (t : Bytes) :
    (∀ m : Request, m.Measured → Request.decode (m.encode ++ t) =
        if Affordable 0 m.charges then .ok (m, t) else .error .limitExceeded) ∧
      ∀ m : Reply, m.Measured → Reply.decode (m.encode ++ t) =
        if Affordable 0 m.charges then .ok (m, t) else .error .limitExceeded :=
  ⟨fun _ h => (Request.spells h).start t, fun _ h => (Reply.spells h).start t⟩

/-- A batch comes back, as its reply does; a body as large as the budget does not. -/
theorem round_trip_of_a_batch :
    Request.decode ((Request.batch 7 [[1, 2], []]).encode ++ [9]) = .ok (.batch 7 [[1, 2], []], [9]) ∧
      Reply.decode ((Reply.batchDone 7 1 1 (some "empty batch item")).encode ++ [9]) =
        .ok (.batchDone 7 1 1 (some "empty batch item"), [9]) ∧
      Request.decode ((Request.echo (List.replicate decodeLimit 0)).encode ++ [9]) =
        .error .limitExceeded := by
  have hbatch : (Request.batch 7 [[1, 2], []]).Measured := ⟨by decide, by decide⟩
  have hdone : (Reply.batchDone 7 1 1 (some "empty batch item")).Measured := by
    intro s hs
    cases hs
    decide
  have hlength : (List.replicate decodeLimit (0 : UInt8)).length = decodeLimit := List.length_replicate
  have hbody : (Request.echo (List.replicate decodeLimit 0)).Measured :=
    Nat.lt_of_le_of_lt (Nat.le_of_eq hlength) (by decide)
  exact ⟨((round_trip_within_budget [9]).1 _ hbatch).trans (if_pos (by decide)),
    ((round_trip_within_budget [9]).2 _ hdone).trans (if_pos (by decide)),
    ((round_trip_within_budget [9]).1 _ hbody).trans
      (if_neg (Request.not_affordable_echo (Nat.le_of_eq hlength.symm)))⟩

end ChunkRouter.Message
