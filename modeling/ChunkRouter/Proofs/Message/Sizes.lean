import ChunkRouter.Message.Reply
import ChunkRouter.Message.Request

/-!
# How much a chunk can ask for

A decoder returns values whose shortest encoding is no longer than what it read, and its diagnostics
are short: the longest one names a tag of ten digits.
-/

namespace ChunkRouter

/-! ## Texts -/

namespace Text.Utf8

theorem encode_append (s t : String) : encode (s ++ t) = encode s ++ encode t := by
  rw [encode, String.toList_append, List.flatMap_append]
  rfl

/-- A number of at most ten digits takes at most ten bytes. -/
theorem length_encode_toString {n : Nat} (h : n < 10000000000) : (encode (toString n)).length ≤ 10 := by
  have hdigits : (Nat.toDigits 10 n).length ≤ 10 :=
    (Nat.length_toDigits_le_iff (by decide) (by decide)).2 h
  have hone : ∀ c ∈ Nat.toDigits 10 n, (String.utf8EncodeChar c).length = 1 := by
    intro c hc
    have hdigit := Nat.isDigit_of_mem_toDigits (by decide) (by decide) hc
    rw [String.length_utf8EncodeChar]
    simp only [Char.isDigit, Bool.and_eq_true, decide_eq_true_eq] at hdigit
    refine if_pos (UInt32.le_trans hdigit.2 ?_)
    decide
  rw [Nat.toString_eq_ofList_toDigits, encode, String.toList_ofList]
  generalize Nat.toDigits 10 n = cs at hdigits hone
  have hlen : (cs.flatMap String.utf8EncodeChar).length = cs.length := by
    clear hdigits
    induction cs with
    | nil => rfl
    | cons c cs ih =>
      rw [List.flatMap_cons, List.length_append, hone c List.mem_cons_self,
        ih fun d hd => hone d (List.mem_cons_of_mem c hd), List.length_cons, Nat.add_comm]
  omega

/-- A text with a number in it. -/
theorem length_encode_around {front back : String} {n : Nat} (hn : n < 10000000000)
    (h : (encode front).length + (encode back).length ≤ 86) :
    (encode (front ++ toString n ++ back)).length ≤ 96 := by
  have hdigits := length_encode_toString hn
  rw [encode_append, encode_append, List.length_append, List.length_append]
  omega

end Text.Utf8

/-! ## Decoding -/

namespace Wire

theorem bind_eq_ok {ε α β : Type} {x : Except ε α} {f : α → Except ε β} {b : β}
    (h : x >>= f = .ok b) : ∃ a, x = .ok a ∧ f a = .ok b := by
  cases x with
  | error e => cases h
  | ok a => exact ⟨a, rfl, h⟩

theorem bind_eq_error {ε α β : Type} {x : Except ε α} {f : α → Except ε β} {e : ε}
    (h : x >>= f = .error e) : x = .error e ∨ ∃ a, x = .ok a ∧ f a = .error e := by
  cases x with
  | error e' => exact .inl (by cases h; rfl)
  | ok a => exact .inr ⟨a, rfl, h⟩

theorem eq_ok_of_toOption {ε α : Type} {x : Except ε α} {a : α} (h : x.toOption = some a) :
    x = .ok a := by
  cases x with
  | error e => cases h
  | ok b => exact congrArg _ (Option.some.inj h)

/-- The shortest form of a number below 65536 has at most three bytes, and so on. -/
theorem Varint.length_encode_le (n : Nat) :
    (encode n).length ≤ 9 ∧ (n < 4294967296 → (encode n).length ≤ 5) ∧
      (n < 65536 → (encode n).length ≤ 3) ∧ (n ≤ 250 → (encode n).length = 1) := by
  unfold encode
  split
  · exact ⟨Nat.le_add_left 1 8, fun _ => Nat.le_add_left 1 4, fun _ => Nat.le_add_left 1 2, fun _ => rfl⟩
  · split
    · simp only [List.length_cons, length_littleEndian]
      omega
    · split
      · simp only [List.length_cons, length_littleEndian]
        omega
      · simp only [List.length_cons, length_littleEndian]
        omega

/-- A smaller number has no longer form. -/
theorem Varint.length_encode_mono {m n : Nat} (h : m ≤ n) :
    (encode m).length ≤ (encode n).length := by
  have hpos : 0 < (encode n).length := List.length_pos_iff.2 (encode_ne_nil n)
  unfold encode at hpos ⊢
  split
  · rw [List.length_singleton]
    exact hpos
  · repeat' split
    all_goals
      simp only [List.length_cons, length_littleEndian, List.length_nil]
      omega

theorem Varint.ofLittleEndian_lt (bytes : Bytes) : ofLittleEndian bytes < 1 <<< (8 * bytes.length) := by
  induction bytes with
  | nil => decide
  | cons b bytes ih =>
    rw [ofLittleEndian, List.length_cons, Nat.mul_succ, Nat.shiftLeft_add]
    have hb := b.toNat_lt
    rw [Nat.shiftLeft_eq _ 8]
    omega

/-- A diagnostic that fits a short reply. -/
def DecodeError.Brief (e : DecodeError) : Prop := (Text.Utf8.encode e.message).length ≤ 96

theorem DecodeError.brief_unexpectedEnd {n : Nat} (h : n < 10000000000) : (unexpectedEnd n).Brief := by
  have htext : (unexpectedEnd n).message =
      "UnexpectedEnd" ++ " \x7b " ++ ("additional" ++ ": ") ++ toString n ++ " \x7d" := by
    show "UnexpectedEnd" ++ " \x7b " ++ ("additional" ++ ": " ++ toString n) ++ " \x7d" = _
    simp only [String.append_assoc]
  rw [Brief, htext]
  exact Text.Utf8.length_encode_around h (by decide +kernel)

theorem DecodeError.brief_unexpectedVariant {n : Nat} (h : n < 10000000000) :
    (unexpectedVariant Message.Request.typeName 2 n).Brief := by
  have htext : (unexpectedVariant Message.Request.typeName 2 n).message =
      "UnexpectedVariant" ++ " \x7b " ++
        ("type_name: \"Request\", allowed: Range \x7b min: 0, max: 2 \x7d, " ++ ("found" ++ ": ")) ++
        toString n ++ " \x7d" := by
    show "UnexpectedVariant" ++ " \x7b " ++
      ("type_name: \"Request\", allowed: Range \x7b min: 0, max: 2 \x7d, " ++
        ("found" ++ ": " ++ toString n)) ++ " \x7d" = _
    simp only [String.append_assoc]
  rw [Brief, htext]
  exact Text.Utf8.length_encode_around h (by decide +kernel)

theorem IntegerType.length_label_le (t : IntegerType) : (Text.Utf8.encode t.label).length ≤ 8 := by
  cases t <;> decide +kernel

theorem DecodeError.brief_invalidIntegerType (expected found : IntegerType) :
    (invalidIntegerType expected found).Brief := by
  have htext : (invalidIntegerType expected found).message =
      ("InvalidIntegerType" ++ " \x7b " ++ ("expected" ++ ": ")) ++ expected.label ++
        (", " ++ ("found" ++ ": ")) ++ found.label ++ " \x7d" := by
    show "InvalidIntegerType" ++ " \x7b " ++
      ("expected" ++ ": " ++ expected.label ++ ", " ++ ("found" ++ ": " ++ found.label)) ++ " \x7d" = _
    simp only [String.append_assoc]
  have hfront : (Text.Utf8.encode ("InvalidIntegerType" ++ " \x7b " ++ ("expected" ++ ": "))).length =
      31 := by decide +kernel
  have hmiddle : (Text.Utf8.encode (", " ++ ("found" ++ ": "))).length = 9 := by decide +kernel
  have hback : (Text.Utf8.encode " \x7d").length = 2 := by decide +kernel
  have hexpected := expected.length_label_le
  have hfound := found.length_label_le
  rw [Brief, htext, Text.Utf8.encode_append, Text.Utf8.encode_append, Text.Utf8.encode_append,
    Text.Utf8.encode_append]
  simp only [List.length_append]
  omega

theorem DecodeError.brief_limitExceeded : limitExceeded.Brief := by
  unfold Brief
  decide

namespace Cursor

section

variable {c c' : Cursor} {n : Nat} {e : DecodeError}

theorem claim_ok (h : c.claim n = .ok c') : c'.rest = c.rest ∧ n ≤ decodeLimit := by
  unfold claim at h
  split at h
  · cases h
  · cases h
    exact ⟨rfl, by omega⟩

theorem claim_error (h : c.claim n = .error e) : e.Brief := by
  unfold claim at h
  split at h
  · cases h
    exact DecodeError.brief_limitExceeded
  · cases h

theorem byte_ok {b : UInt8} (h : byte c = .ok (b, c')) : c.rest = b :: c'.rest := by
  unfold byte at h
  split at h
  · rename_i hrest
    cases h
    exact hrest
  · cases h

theorem byte_error (h : byte c = .error e) : e.Brief := by
  unfold byte at h
  split at h
  · cases h
  · cases h
    exact DecodeError.brief_unexpectedEnd (by decide)

theorem take_ok {bytes : Bytes} (h : take n c = .ok (bytes, c')) :
    c.rest = bytes ++ c'.rest ∧ bytes.length = n := by
  unfold take at h
  split at h
  · rename_i hcut
    cases h
    exact Bytes.cut_eq_ok_iff.1 hcut
  · cases h

theorem take_error (hn : n ≤ decodeLimit) (h : take n c = .error e) : e.Brief := by
  unfold take at h
  split at h
  · cases h
  · rename_i missing hcut
    cases h
    obtain ⟨-, rfl⟩ := Bytes.cut_eq_error_iff.1 hcut
    refine DecodeError.brief_unexpectedEnd ?_
    unfold decodeLimit at hn
    omega

theorem littleEndian_ok {width : Nat} (h : littleEndian width c = .ok (n, c')) :
    n < 1 <<< (8 * width) ∧ c.rest.length = width + c'.rest.length := by
  unfold littleEndian at h
  split at h
  · rename_i bytes d htake
    cases h
    obtain ⟨hrest, hlen⟩ := take_ok htake
    rw [hrest, List.length_append, hlen]
    exact ⟨hlen ▸ Varint.ofLittleEndian_lt bytes, rfl⟩
  · cases h

theorem littleEndian_error {width : Nat} (hwidth : width ≤ 8) (h : littleEndian width c = .error e) :
    e.Brief := by
  unfold littleEndian at h
  split at h
  · cases h
  · rename_i e' htake
    cases h
    exact take_error (Nat.le_trans hwidth (by decide)) htake

/-- A number takes as many bytes as its shortest form, or more. -/
theorem u32_ok (h : u32 c = .ok (n, c')) :
    n < 4294967296 ∧ 1 + c'.rest.length ≤ c.rest.length := by
  unfold u32 at h
  obtain ⟨d, hclaim, h⟩ := bind_eq_ok h
  obtain ⟨hd, -⟩ := claim_ok hclaim
  obtain ⟨⟨marker, d'⟩, hbyte, h⟩ := bind_eq_ok h
  have hrest := byte_ok hbyte
  have hlen : c.rest.length = d'.rest.length + 1 := by rw [← hd, hrest, List.length_cons]
  have hmarker := marker.toNat_lt
  simp only at h
  split at h
  · cases h
    omega
  · split at h
    · obtain ⟨hn, hle⟩ := littleEndian_ok h
      have hn' : n < 65536 := hn
      omega
    · split at h
      · obtain ⟨hn, hle⟩ := littleEndian_ok h
        have hn' : n < 4294967296 := hn
        omega
      · split at h
        · cases h
        · split at h <;> cases h

theorem u32_error (h : u32 c = .error e) : e.Brief := by
  unfold u32 at h
  rcases bind_eq_error h with hclaim | ⟨d, hclaim, h⟩
  · exact claim_error hclaim
  rcases bind_eq_error h with hbyte | ⟨⟨marker, d'⟩, hbyte, h⟩
  · exact byte_error hbyte
  simp only at h
  repeat' split at h
  · cases h
  · exact littleEndian_error (by decide) h
  · exact littleEndian_error (by decide) h
  all_goals
    cases h
    exact DecodeError.brief_invalidIntegerType _ _

theorem u64_ok (h : u64 c = .ok (n, c')) :
    (Varint.encode n).length + c'.rest.length ≤ c.rest.length := by
  unfold u64 at h
  obtain ⟨d, hclaim, h⟩ := bind_eq_ok h
  obtain ⟨hd, -⟩ := claim_ok hclaim
  obtain ⟨⟨marker, d'⟩, hbyte, h⟩ := bind_eq_ok h
  have hrest := byte_ok hbyte
  have hlen : c.rest.length = d'.rest.length + 1 := by rw [← hd, hrest, List.length_cons]
  simp only at h
  split at h
  · rename_i hsmall
    cases h
    have hone := (Varint.length_encode_le marker.toNat).2.2.2 (UInt8.le_iff_toNat_le.1 hsmall)
    omega
  · split at h
    · obtain ⟨hn, hle⟩ := littleEndian_ok h
      have hthree := (Varint.length_encode_le n).2.2.1 hn
      omega
    · split at h
      · obtain ⟨hn, hle⟩ := littleEndian_ok h
        have hfive := (Varint.length_encode_le n).2.1 hn
        omega
      · split at h
        · obtain ⟨-, hle⟩ := littleEndian_ok h
          have hnine := (Varint.length_encode_le n).1
          omega
        · split at h <;> cases h

theorem u64_error (h : u64 c = .error e) : e.Brief := by
  unfold u64 at h
  rcases bind_eq_error h with hclaim | ⟨d, hclaim, h⟩
  · exact claim_error hclaim
  rcases bind_eq_error h with hbyte | ⟨⟨marker, d'⟩, hbyte, h⟩
  · exact byte_error hbyte
  simp only at h
  repeat' split at h
  · cases h
  · exact littleEndian_error (by decide) h
  · exact littleEndian_error (by decide) h
  · exact littleEndian_error (by decide) h
  all_goals
    cases h
    exact DecodeError.brief_invalidIntegerType _ _

theorem bytes_ok {b : Bytes} (h : bytes c = .ok (b, c')) :
    (encodeBytes b).length + c'.rest.length ≤ c.rest.length := by
  unfold bytes at h
  obtain ⟨⟨n, d⟩, hlength, h⟩ := bind_eq_ok h
  obtain ⟨d', hclaim, h⟩ := bind_eq_ok h
  obtain ⟨hrest, -⟩ := claim_ok hclaim
  obtain ⟨htake, hlen⟩ := take_ok h
  have hn := u64_ok hlength
  rw [encodeBytes, List.length_append, hlen]
  rw [← hrest, htake, List.length_append] at hn
  omega

theorem bytes_error (h : bytes c = .error e) : e.Brief := by
  unfold bytes at h
  rcases bind_eq_error h with hlength | ⟨⟨n, d⟩, hlength, h⟩
  · exact u64_error hlength
  rcases bind_eq_error h with hclaim | ⟨d', hclaim, h⟩
  · exact claim_error hclaim
  exact take_error (claim_ok hclaim).2 h

-- The length is compared with the budget, which must not be computed in unary.
attribute [local irreducible] bytes in
/-- One byte string after the other. -/
theorem items_succ (n : Nat) (acc : List Bytes) (c : Cursor) :
    items (n + 1) acc c =
      match bytes (c.release itemClaim) with
      | .error e => .error e
      | .ok (item, c) => items n (item :: acc) c := rfl

theorem items_ok {acc items' : List Bytes} (h : items n acc c = .ok (items', c')) :
    items'.length = n + acc.length ∧ c'.rest.length ≤ c.rest.length := by
  induction n generalizing acc c with
  | zero =>
    have hpair := Prod.mk.inj (Except.ok.inj h)
    rw [← hpair.1, ← hpair.2, List.length_reverse, Nat.zero_add]
    exact ⟨rfl, Nat.le_refl _⟩
  | succ n ih =>
    rw [items_succ] at h
    generalize hfirst : bytes (c.release itemClaim) = first at h
    cases first with
    | error e' => cases h
    | ok x =>
      obtain ⟨item, d⟩ := x
      obtain ⟨hlen, hrest⟩ := ih h
      have hle := bytes_ok hfirst
      have hsame : (c.release itemClaim).rest = c.rest := rfl
      rw [hsame] at hle
      rw [List.length_cons] at hlen
      exact ⟨by omega, by omega⟩

theorem items_error {acc : List Bytes} (h : items n acc c = .error e) : e.Brief := by
  induction n generalizing acc c with
  | zero => cases h
  | succ n ih =>
    rw [items_succ] at h
    generalize hfirst : bytes (c.release itemClaim) = first at h
    cases first with
    | error e' =>
      cases h
      exact bytes_error hfirst
    | ok x => exact ih h

/-- A list has no more items than can be claimed at once. -/
theorem bytesList_ok {items' : List Bytes} (h : bytesList c = .ok (items', c')) :
    items'.length ≤ decodeLimit ∧ c'.rest.length ≤ c.rest.length := by
  unfold bytesList at h
  obtain ⟨⟨n, d⟩, hlength, h⟩ := bind_eq_ok h
  obtain ⟨d', hclaim, h⟩ := bind_eq_ok h
  obtain ⟨hsame, hn⟩ := claim_ok hclaim
  obtain ⟨hlen, hrest⟩ := items_ok h
  have hle := u64_ok hlength
  unfold itemClaim at hn
  rw [List.length_nil] at hlen
  rw [hsame] at hrest
  exact ⟨by omega, by omega⟩

theorem bytesList_error (h : bytesList c = .error e) : e.Brief := by
  unfold bytesList at h
  rcases bind_eq_error h with hlength | ⟨⟨n, d⟩, hlength, h⟩
  · exact u64_error hlength
  rcases bind_eq_error h with hclaim | ⟨d', hclaim, h⟩
  · exact claim_error hclaim
  exact items_error h

end

end Cursor

end Wire

/-! ## Requests and their replies -/

namespace Message

open Wire (decodeLimit)

theorem Request.read_of_decode {chunk rest : Bytes} {r : Request} (h : decode chunk = .ok (r, rest)) :
    ∃ c, read (.start chunk) = .ok (r, c) ∧ c.rest = rest := by
  unfold decode at h
  cases hr : read (.start chunk) with
  | error e =>
    rw [hr] at h
    cases h
  | ok x =>
    rw [hr] at h
    cases h
    exact ⟨x.2, rfl, rfl⟩

/-- What is sent back needs no more bytes than it came in. -/
theorem Request.decode_ok {chunk rest : Bytes} {r : Request} (h : decode chunk = .ok (r, rest)) :
    rest.length ≤ chunk.length ∧
      (∀ nonce, r = .ping nonce → (Reply.encode (.pong nonce)).length ≤ chunk.length) ∧
      (∀ body, r = .echo body → (Reply.encode (.echo body)).length ≤ chunk.length) ∧
      ∀ id items, r = .batch id items → items.length ≤ decodeLimit := by
  obtain ⟨c, hread, rfl⟩ := read_of_decode h
  unfold read at hread
  obtain ⟨⟨tag, d⟩, htag, hread⟩ := Wire.bind_eq_ok hread
  have htaglen : 1 + d.rest.length ≤ chunk.length := (Wire.Cursor.u32_ok htag).2
  simp only at hread
  split at hread
  · obtain ⟨⟨nonce, d'⟩, hnonce, hread⟩ := Wire.bind_eq_ok hread
    have hlen := Wire.Cursor.u64_ok hnonce
    cases hread
    refine ⟨?_, fun nonce' hsame => ?_, fun body hbody => (nomatch hbody),
      fun id items hbatch => (nomatch hbatch)⟩
    · exact Nat.le_trans (Nat.le_trans (Nat.le_add_left _ _) hlen) (by omega)
    · cases hsame
      have hmod : nonce.toUInt64.toNat ≤ nonce := Nat.mod_le _ _
      have hmono := Wire.Varint.length_encode_mono hmod
      show (Wire.Varint.encode nonce.toUInt64.toNat).length + 1 ≤ chunk.length
      omega
  · obtain ⟨⟨body, d'⟩, hbody, hread⟩ := Wire.bind_eq_ok hread
    have hlen := Wire.Cursor.bytes_ok hbody
    cases hread
    refine ⟨?_, fun nonce hnonce => (nomatch hnonce), fun body' hsame => ?_,
      fun id items hbatch => (nomatch hbatch)⟩
    · exact Nat.le_trans (Nat.le_trans (Nat.le_add_left _ _) hlen) (by omega)
    · cases hsame
      show (Wire.encodeBytes body).length + 1 ≤ chunk.length
      omega
  · obtain ⟨⟨id, d'⟩, hid, hread⟩ := Wire.bind_eq_ok hread
    obtain ⟨⟨items, d''⟩, hitems, hread⟩ := Wire.bind_eq_ok hread
    have hidlen := Wire.Cursor.u64_ok hid
    obtain ⟨hcount, hlen⟩ := Wire.Cursor.bytesList_ok hitems
    cases hread
    refine ⟨?_, fun nonce hnonce => (nomatch hnonce), fun body hbody => (nomatch hbody),
      fun id items' hbatch => ?_⟩
    · exact Nat.le_trans hlen (Nat.le_trans (Nat.le_trans (Nat.le_add_left _ _) hidlen) (by omega))
    · cases hbatch
      exact hcount
  · cases hread

theorem Request.decode_error {chunk : Bytes} {e : Wire.DecodeError} (h : decode chunk = .error e) :
    e.Brief := by
  have hread : read (.start chunk) = .error e := by
    unfold decode at h
    cases hr : read (.start chunk) with
    | error e' =>
      rw [hr] at h
      cases h
      rfl
    | ok x =>
      rw [hr] at h
      cases h
  unfold read at hread
  rcases Wire.bind_eq_error hread with htag | ⟨⟨tag, c⟩, htag, h⟩
  · exact Wire.Cursor.u32_error htag
  have htag32 := (Wire.Cursor.u32_ok htag).1
  simp only at h
  split at h
  · rcases Wire.bind_eq_error h with hnonce | ⟨x, -, h⟩
    · exact Wire.Cursor.u64_error hnonce
    · cases h
  · rcases Wire.bind_eq_error h with hbody | ⟨x, -, h⟩
    · exact Wire.Cursor.bytes_error hbody
    · cases h
  · rcases Wire.bind_eq_error h with hid | ⟨x, -, h⟩
    · exact Wire.Cursor.u64_error hid
    rcases Wire.bind_eq_error h with hitems | ⟨y, -, h⟩
    · exact Wire.Cursor.bytesList_error hitems
    · cases h
  · cases h
    exact Wire.DecodeError.brief_unexpectedVariant (by omega)

theorem Reply.encode_ne_nil (r : Reply) : r.encode ≠ [] := by
  cases r <;> exact List.cons_ne_nil _ _

theorem length_encodeText_le {s : String} (h : (Text.Utf8.encode s).length ≤ 250) :
    (Wire.encodeText s).length ≤ (Text.Utf8.encode s).length + 1 := by
  have hone := (Wire.Varint.length_encode_le (Text.Utf8.encode s).length).2.2.2 (by omega)
  rw [Wire.encodeText, Wire.encodeBytes, List.length_append]
  omega

theorem Reply.length_rejected_le {reason : String} (h : (Text.Utf8.encode reason).length ≤ 96) :
    (encode (.rejected reason)).length ≤ 98 := by
  have hlen := length_encodeText_le (s := reason) (by omega)
  rw [encode, List.length_cons]
  omega

theorem Reply.length_batchDone_le (id : UInt64) (good bad : UInt32) {firstError : Option String}
    (h : ∀ s ∈ firstError, (Text.Utf8.encode s).length ≤ 16) :
    (encode (.batchDone id good bad firstError)).length ≤ 38 := by
  have hid := (Wire.Varint.length_encode_le id.toNat).1
  have hgood := (Wire.Varint.length_encode_le good.toNat).2.1 good.toNat_lt
  have hbad := (Wire.Varint.length_encode_le bad.toNat).2.1 bad.toNat_lt
  have herror : (Wire.encodeOptionalText firstError).length ≤ 18 := by
    cases firstError with
    | none => decide
    | some s =>
      have hs := h s rfl
      have hlen := length_encodeText_le (s := s) (by omega)
      rw [Wire.encodeOptionalText, List.length_cons]
      omega
  rw [encode, List.length_cons, List.length_append, List.length_append, List.length_append]
  omega

end Message

end ChunkRouter
