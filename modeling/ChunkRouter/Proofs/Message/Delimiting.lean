import ChunkRouter.Proofs.Message.RoundTrip

/-!
# Where a message ends

A decoder that accepts has read a front of its bytes. What stands behind that front does not matter, and
a part of it always ends too early: `Delimits` says this of one decoder and the bytes it read, and a
decoder put together from others delimits what they delimit. Numbers may be spelled in more bytes than they need, so
several byte strings can stand for one message; `decoding_delimits` says that its encoding is no longer
than any of them and stands for it too.
-/

namespace ChunkRouter.Wire

/-! ## Decoders and what they read off -/

/-- `front` spells `x`, and a part of it is the start of something longer: a decoder that can afford to
begin on it meets an untimely end. -/
structure Delimits {α : Type} (d : Decoder α) (front : Bytes) (charges : List Charge) (x : α) : Prop
    extends Spells d front charges x where
  cut : ∀ {claimed : Nat} {part missing : Bytes}, front = part ++ missing → missing ≠ [] →
    Affordable claimed charges → ∃ k, d ⟨part, claimed⟩ = .error (.unexpectedEnd k)

/-- What `d` read between two cursors, in at least `size` bytes. -/
def Took {α : Type} (d : Decoder α) (c c' : Cursor) (charges : List Charge) (size : Nat) (x : α) : Prop :=
  ∃ front, c.rest = front ++ c'.rest ∧ size ≤ front.length ∧ Delimits d front charges x

section

variable {α β : Type} {d : Decoder α} {front front' : Bytes} {charges charges' : List Charge} {x : α}
  {f : α × Cursor → Except DecodeError (β × Cursor)} {y : β} {c c' c'' : Cursor} {size size' : Nat}

namespace Delimits

theorem pure (x : α) : Delimits (fun c => .ok (x, c)) [] [] x where
  toSpells := .pure x
  cut hsplit hmissing := by
    obtain ⟨-, hnone⟩ := List.append_eq_nil_iff.1 hsplit.symm
    exact absurd hnone hmissing

/-- A decoder that is another one on every cursor. -/
theorem congr {d' : Decoder α} (h : Delimits d front charges x) (hd : ∀ c, d' c = d c) :
    Delimits d' front charges x := by
  rwa [show d' = d from funext hd]

theorem bind (hd : Delimits d front charges x)
    (hf : Delimits (fun c => f (x, c)) front' charges' y) :
    Delimits (fun c => d c >>= f) (front ++ front') (charges ++ charges') y where
  toSpells := hd.toSpells.bind hf.toSpells
  cut := by
    intro claimed part missing hsplit hmissing hafford
    obtain ⟨hfirst, hsecond⟩ := affordable_append.1 hafford
    show ∃ k, d ⟨part, claimed⟩ >>= f = _
    -- the cut is either behind the front that the first decoder reads, or within it
    rcases List.append_eq_append_iff.1 hsplit with ⟨more, rfl, hmore⟩ | ⟨more, hmore, rfl⟩
    · rw [hd.reads more hfirst]
      exact hf.cut hmore hmissing hsecond
    · rcases more with _ | ⟨b, more⟩
      · rw [List.append_nil] at hmore
        have hread := hd.reads [] hfirst
        rw [List.append_nil, hmore] at hread
        rw [hread]
        exact hf.cut rfl hmissing hsecond
      · obtain ⟨k, hk⟩ := hd.cut hmore (List.cons_ne_nil b more) hfirst
        rw [hk]
        exact ⟨k, rfl⟩

theorem finish (hd : Delimits d front charges x) (hf : ∀ c, f (x, c) = .ok (y, c)) :
    Delimits (fun c => d c >>= f) front charges y := by
  have h := hd.bind ((Delimits.pure y).congr hf)
  rwa [List.append_nil, List.append_nil] at h

theorem claim (n : Nat) (hd : Delimits d front charges x) :
    Delimits (fun c => c.claim n >>= d) front (.claim n :: charges) x where
  toSpells := hd.toSpells.claim n
  cut := by
    intro claimed part missing hsplit hmissing ⟨hle, hafford⟩
    have hclaim : Cursor.claim n ⟨part, claimed⟩ = .ok ⟨part, claimed + n⟩ :=
      if_neg (Nat.not_lt.2 hle)
    show ∃ k, Cursor.claim n ⟨part, claimed⟩ >>= d = _
    rw [hclaim]
    exact hd.cut hsplit hmissing hafford

theorem giveBack (n : Nat) (hd : Delimits d front charges x) :
    Delimits (fun c => d (c.release n)) front (.giveBack n :: charges) x where
  toSpells := hd.toSpells.giveBack n
  cut hsplit hmissing hafford := hd.cut hsplit hmissing hafford.2

end Delimits

namespace Took

theorem pure (x : α) (c : Cursor) : Took (fun c => .ok (x, c)) c c [] 0 x :=
  ⟨[], rfl, Nat.le_refl 0, .pure x⟩

theorem bind (hd : Took d c c' charges size x)
    (hf : Took (fun c => f (x, c)) c' c'' charges' size' y) :
    Took (fun c => d c >>= f) c c'' (charges ++ charges') (size + size') y := by
  obtain ⟨front, hfront, hsize, hd⟩ := hd
  obtain ⟨front', hfront', hsize', hf⟩ := hf
  refine ⟨front ++ front', ?_, ?_, hd.bind hf⟩
  · rw [hfront, hfront', List.append_assoc]
  · rw [List.length_append]
    omega

theorem finish (hd : Took d c c' charges size x) (hf : ∀ c, f (x, c) = .ok (y, c)) :
    Took (fun c => d c >>= f) c c' charges size y := by
  obtain ⟨front, hfront, hsize, hd⟩ := hd
  exact ⟨front, hfront, hsize, hd.finish hf⟩

/-- A claim leaves the bytes alone. -/
theorem claim {n : Nat} (hclaim : c.claim n = .ok c') (hd : Took d c' c'' charges size x) :
    Took (fun c => c.claim n >>= d) c c'' (.claim n :: charges) size x := by
  obtain ⟨front, hfront, hsize, hd⟩ := hd
  exact ⟨front, (Cursor.claim_ok hclaim).1.symm.trans hfront, hsize, hd.claim n⟩

theorem giveBack {n : Nat} (hd : Took d (c.release n) c' charges size x) :
    Took (fun c => d (c.release n)) c c' (.giveBack n :: charges) size x := by
  obtain ⟨front, hfront, hsize, hd⟩ := hd
  exact ⟨front, hfront, hsize, hd.giveBack n⟩

theorem of_le (hd : Took d c c' charges size x) (hle : size' ≤ size) :
    Took d c c' charges size' x := by
  obtain ⟨front, hfront, hsize, hd⟩ := hd
  exact ⟨front, hfront, Nat.le_trans hle hsize, hd⟩

end Took

end

/-! ## Fields -/

namespace Cursor

variable {c c' : Cursor} {n : Nat}

theorem byte_took {b : UInt8} (h : byte c = .ok (b, c')) : Took byte c c' [] 1 b := by
  refine ⟨[b], byte_ok h, Nat.le_refl 1, .free fun _ _ => rfl, ?_⟩
  intro claimed part missing hsplit hmissing _
  -- nothing is left of a single byte that is cut
  rcases part with _ | ⟨a, part⟩
  · exact ⟨1, rfl⟩
  · obtain ⟨-, hnone⟩ := List.append_eq_nil_iff.1 (List.cons.inj hsplit).2.symm
    exact absurd hnone hmissing

theorem delimits_take (bytes : Bytes) : Delimits (take bytes.length) bytes [] bytes where
  toSpells := .free fun rest claimed => by rw [take, Bytes.cut_append]
  cut := by
    intro claimed part missing hsplit hmissing _
    have hpos := List.length_pos_iff.2 hmissing
    have hshort : part.length < bytes.length := by
      rw [hsplit, List.length_append]
      omega
    refine ⟨bytes.length - part.length, ?_⟩
    rw [take, Bytes.cut_eq_error_iff.2 ⟨hshort, rfl⟩]

theorem take_took {bytes : Bytes} (h : take n c = .ok (bytes, c')) : Took (take n) c c' [] n bytes := by
  obtain ⟨hrest, rfl⟩ := take_ok h
  exact ⟨bytes, hrest, Nat.le_refl _, delimits_take bytes⟩

theorem littleEndian_took {width : Nat} (h : littleEndian width c = .ok (n, c')) :
    Took (littleEndian width) c c' [] width n := by
  have hbind : littleEndian width = fun c =>
      take width c >>= fun r => .ok (Varint.ofLittleEndian r.1, r.2) := by
    funext c
    unfold littleEndian
    cases take width c <;> rfl
  rw [hbind] at h ⊢
  obtain ⟨⟨bytes, d⟩, htake, h⟩ := bind_eq_ok h
  cases h
  exact (take_took htake).finish fun c => rfl

/-! ### Numbers -/

/-- How a number goes on behind its marker, if a number can start with it. -/
def payload? (marker : UInt8) : Option (Decoder Nat) :=
  if marker ≤ 250 then some fun c => .ok (marker.toNat, c)
  else if marker = 251 then some (littleEndian 2)
  else if marker = 252 then some (littleEndian 4)
  else if marker = 253 then some (littleEndian 8)
  else none

/-- A 32-bit number behind its marker. -/
def behind32 (r : UInt8 × Cursor) : Except DecodeError (Nat × Cursor) :=
  if r.1 ≤ 250 then .ok (r.1.toNat, r.2)
  else if r.1 = 251 then littleEndian 2 r.2
  else if r.1 = 252 then littleEndian 4 r.2
  else if r.1 = 253 then .error (.invalidIntegerType .u32 .u64)
  else if r.1 = 254 then .error (.invalidIntegerType .u32 .u128)
  else .error (.invalidIntegerType .u32 .reserved)

/-- A 64-bit number behind its marker, `atMarker` being the bytes from the marker on. -/
def behind64 (atMarker : Bytes) (r : UInt8 × Cursor) : Except DecodeError (Nat × Cursor) :=
  if r.1 ≤ 250 then .ok (r.1.toNat, r.2)
  else if r.1 = 251 then littleEndian 2 r.2
  else if r.1 = 252 then littleEndian 4 r.2
  else if r.1 = 253 then littleEndian 8 r.2
  else if r.1 = 254 then .error (.invalidIntegerType (expected64 atMarker) .u128)
  else .error (.invalidIntegerType (expected64 atMarker) .reserved)

theorem u32_eq (c : Cursor) : u32 c = c.claim 4 >>= fun c => byte c >>= behind32 := rfl

theorem u64_eq (c : Cursor) : u64 c = c.claim 8 >>= fun c => byte c >>= behind64 c.rest := rfl

/-- A number that was read is one of 64 bits, and its shortest form is no longer. -/
theorem payload_took {marker : UInt8} {g : Decoder Nat} (hg : payload? marker = some g)
    (h : g c = .ok (n, c')) :
    n < 18446744073709551616 ∧
      ∃ size, (Varint.encode n).length ≤ 1 + size ∧ Took g c c' [] size n := by
  have hlength := Varint.length_encode_le n
  unfold payload? at hg
  split at hg
  · rename_i hsmall
    cases hg
    cases h
    exact ⟨Nat.lt_trans marker.toNat_lt (by decide), 0,
      Nat.le_of_eq (hlength.2.2.2 (UInt8.le_iff_toNat_le.1 hsmall)), .pure _ _⟩
  split at hg
  · cases hg
    have hn := (littleEndian_ok h).1
    exact ⟨Nat.lt_trans hn (by decide), 2, hlength.2.2.1 hn, littleEndian_took h⟩
  split at hg
  · cases hg
    have hn := (littleEndian_ok h).1
    exact ⟨Nat.lt_trans hn (by decide), 4, hlength.2.1 hn, littleEndian_took h⟩
  split at hg
  · cases hg
    exact ⟨(littleEndian_ok h).1, 8, hlength.1, littleEndian_took h⟩
  · cases hg

/-- A number that is accepted goes on in the way of its marker. -/
theorem exists_payload32 {marker : UInt8} {r : Nat × Cursor} (h : behind32 (marker, c) = .ok r) :
    ∃ g, payload? marker = some g ∧ ∀ c, behind32 (marker, c) = g c := by
  unfold payload? behind32 at *
  dsimp only at h ⊢
  by_cases hone : marker ≤ 250
  · exact ⟨_, if_pos hone, fun c => if_pos hone⟩
  by_cases htwo : marker = 251
  · exact ⟨_, by rw [if_neg hone, if_pos htwo], fun c => by rw [if_neg hone, if_pos htwo]⟩
  by_cases hfour : marker = 252
  · exact ⟨_, by rw [if_neg hone, if_neg htwo, if_pos hfour],
      fun c => by rw [if_neg hone, if_neg htwo, if_pos hfour]⟩
  rw [if_neg hone, if_neg htwo, if_neg hfour] at h
  split at h
  · cases h
  split at h <;> cases h

theorem exists_payload64 {atMarker : Bytes} {marker : UInt8} {r : Nat × Cursor}
    (h : behind64 atMarker (marker, c) = .ok r) :
    ∃ g, payload? marker = some g ∧ ∀ atMarker c, behind64 atMarker (marker, c) = g c := by
  unfold payload? behind64 at *
  dsimp only at h ⊢
  by_cases hone : marker ≤ 250
  · exact ⟨_, if_pos hone, fun _ c => if_pos hone⟩
  by_cases htwo : marker = 251
  · exact ⟨_, by rw [if_neg hone, if_pos htwo], fun _ c => by rw [if_neg hone, if_pos htwo]⟩
  by_cases hfour : marker = 252
  · exact ⟨_, by rw [if_neg hone, if_neg htwo, if_pos hfour],
      fun _ c => by rw [if_neg hone, if_neg htwo, if_pos hfour]⟩
  by_cases height : marker = 253
  · exact ⟨_, by rw [if_neg hone, if_neg htwo, if_neg hfour, if_pos height],
      fun _ c => by rw [if_neg hone, if_neg htwo, if_neg hfour, if_pos height]⟩
  rw [if_neg hone, if_neg htwo, if_neg hfour, if_neg height] at h
  split at h <;> cases h

/-- A number of which the first byte is read apart. -/
theorem marked_took {f : Bytes → UInt8 × Cursor → Except DecodeError (Nat × Cursor)} {d d' : Cursor}
    {marker : UInt8} {g : Decoder Nat} {k size : Nat} (hclaim : c.claim k = .ok d)
    (hbyte : byte d = .ok (marker, d')) (hf : ∀ atMarker c, f atMarker (marker, c) = g c)
    (hg : Took g d' c' [] size n) :
    Took (fun c => c.claim k >>= fun c => byte c >>= f c.rest) c c' [.claim k] (1 + size) n := by
  obtain ⟨front, hfront, hsize, hg⟩ := hg
  refine Took.claim hclaim ⟨marker :: front, ?_, ?_, ?_, ?_⟩
  · rw [byte_ok hbyte, hfront]
    rfl
  · rw [List.length_cons]
    omega
  · exact .free fun rest claimed => (hf _ _).trans (hg.reads rest trivial)
  · intro claimed part missing hsplit hmissing _
    rcases part with _ | ⟨b, part⟩
    · exact ⟨1, rfl⟩
    · obtain ⟨rfl, hrest⟩ := List.cons.inj hsplit
      obtain ⟨j, hj⟩ := hg.cut hrest hmissing trivial
      exact ⟨j, (hf _ _).trans hj⟩

theorem u32_took (h : u32 c = .ok (n, c')) :
    n < 4294967296 ∧ Took u32 c c' [.claim 4] (Varint.encode n).length n := by
  refine ⟨(u32_ok h).1, ?_⟩
  rw [u32_eq] at h
  obtain ⟨d, hclaim, h⟩ := bind_eq_ok h
  obtain ⟨⟨marker, d'⟩, hbyte, h⟩ := bind_eq_ok h
  obtain ⟨g, hg, hbehind⟩ := exists_payload32 h
  obtain ⟨-, size, hsize, htook⟩ := payload_took hg ((hbehind d').symm.trans h)
  exact (marked_took hclaim hbyte (f := fun _ => behind32) (fun _ => hbehind) htook).of_le hsize

theorem u64_took (h : u64 c = .ok (n, c')) :
    n < 18446744073709551616 ∧ Took u64 c c' [.claim 8] (Varint.encode n).length n := by
  rw [u64_eq] at h
  obtain ⟨d, hclaim, h⟩ := bind_eq_ok h
  obtain ⟨⟨marker, d'⟩, hbyte, h⟩ := bind_eq_ok h
  obtain ⟨g, hg, hbehind⟩ := exists_payload64 h
  obtain ⟨hn, size, hsize, htook⟩ := payload_took hg ((hbehind d.rest d').symm.trans h)
  exact ⟨hn, (marked_took hclaim hbyte hbehind htook).of_le hsize⟩

/-! ### Byte strings and texts -/

theorem bytes_took {b : Bytes} (h : bytes c = .ok (b, c')) :
    b.length < 18446744073709551616 ∧
      Took bytes c c' (bytesCharges b) (encodeBytes b).length b := by
  unfold bytes at h
  obtain ⟨⟨n, d⟩, hlength, h⟩ := bind_eq_ok h
  obtain ⟨d', hclaim, h⟩ := bind_eq_ok h
  obtain ⟨hn, hnumber⟩ := u64_took hlength
  obtain ⟨-, rfl⟩ := take_ok h
  have hsize : (encodeBytes b).length = (Varint.encode b.length).length + b.length := by
    rw [encodeBytes, List.length_append]
  rw [hsize]
  exact ⟨hn, hnumber.bind (.claim hclaim (take_took h))⟩

/-- The items of a list, one after the other. -/
theorem items_took {acc list : List Bytes} (h : items n acc c = .ok (list, c')) :
    ∃ later, list = acc.reverse ++ later ∧ later.length = n ∧
      (∀ b ∈ later, b.length < 18446744073709551616) ∧
      Took (items n acc) c c' (later.flatMap fun b => .giveBack itemClaim :: bytesCharges b)
        (later.flatMap encodeBytes).length list := by
  induction n generalizing acc c with
  | zero =>
    cases h
    refine ⟨[], (List.append_nil _).symm, rfl, ?_, .pure _ _⟩
    intro b hb
    cases hb
  | succ n ih =>
    have hstep : items (n + 1) acc = fun c =>
        bytes (c.release itemClaim) >>= fun r => items n (r.1 :: acc) r.2 := by
      funext c
      rw [items_succ]
      cases bytes (c.release itemClaim) <;> rfl
    rw [hstep] at h ⊢
    obtain ⟨⟨b, d⟩, hfirst, h⟩ := bind_eq_ok h
    obtain ⟨hb, htook⟩ := bytes_took hfirst
    obtain ⟨later, rfl, hlength, hlater, hrest⟩ := ih h
    refine ⟨b :: later, ?_, ?_, ?_, ?_⟩
    · rw [List.reverse_cons, List.append_assoc]
      rfl
    · rw [List.length_cons, hlength]
    · intro b' hb'
      rcases List.mem_cons.1 hb' with rfl | hb'
      · exact hb
      · exact hlater b' hb'
    · have hsize : ((b :: later).flatMap encodeBytes).length =
          (encodeBytes b).length + (later.flatMap encodeBytes).length := by
        rw [List.flatMap_cons, List.length_append]
      rw [hsize]
      exact htook.giveBack.bind hrest

theorem bytesList_took {list : List Bytes} (h : bytesList c = .ok (list, c')) :
    list.length < 18446744073709551616 ∧ (∀ b ∈ list, b.length < 18446744073709551616) ∧
      Took bytesList c c' (bytesListCharges list) (encodeBytesList list).length list := by
  unfold bytesList at h
  obtain ⟨⟨n, d⟩, hlength, h⟩ := bind_eq_ok h
  obtain ⟨d', hclaim, h⟩ := bind_eq_ok h
  obtain ⟨hn, hnumber⟩ := u64_took hlength
  obtain ⟨later, hlist, rfl, hlater, hitems⟩ := items_took h
  obtain rfl : list = later := hlist
  have hsize : (encodeBytesList list).length =
      (Varint.encode list.length).length + (list.flatMap encodeBytes).length := by
    rw [encodeBytesList, List.length_append]
  rw [hsize]
  exact ⟨hn, hlater, hnumber.bind (.claim hclaim hitems)⟩

theorem text_took {s : String} (h : text c = .ok (s, c')) :
    (Text.Utf8.encode s).length < 18446744073709551616 ∧
      Took text c c' (textCharges s) (encodeText s).length s := by
  unfold text at h
  obtain ⟨⟨raw, d⟩, hraw, h⟩ := bind_eq_ok h
  obtain ⟨hlength, htook⟩ := bytes_took hraw
  dsimp only at h
  cases hs : Text.Utf8.decode raw with
  | error e =>
    rw [hs] at h
    cases h
  | ok s' =>
    rw [hs] at h
    cases h
    -- the bytes that were read are those of the text
    obtain rfl := Text.Utf8.encode_of_decode hs
    refine ⟨hlength, htook.finish fun c => ?_⟩
    simp only [hs]

theorem optionalText_took {o : Option String} (h : optionalText c = .ok (o, c')) :
    (∀ s, o = some s → (Text.Utf8.encode s).length < 18446744073709551616) ∧
      Took optionalText c c' (optionalTextCharges o) (encodeOptionalText o).length o := by
  unfold optionalText at h
  obtain ⟨d, hclaim, h⟩ := bind_eq_ok h
  obtain ⟨⟨tag, d'⟩, hbyte, h⟩ := bind_eq_ok h
  have htag := byte_took hbyte
  dsimp only at h
  split at h
  · rename_i hnone
    cases h
    subst hnone
    refine ⟨?_, .claim hclaim (htag.finish fun c => rfl)⟩
    intro s hs
    cases hs
  split at h
  · rename_i hsome
    obtain ⟨⟨s, d''⟩, htext, h⟩ := bind_eq_ok h
    cases h
    subst hsome
    obtain ⟨hlength, htook⟩ := text_took htext
    have hsize : (encodeOptionalText (some s)).length = 1 + (encodeText s).length := by
      rw [encodeOptionalText, List.length_cons, Nat.add_comm]
    rw [hsize]
    refine ⟨?_, .claim hclaim (htag.bind (htook.finish fun c => rfl))⟩
    intro s' hs'
    cases hs'
    exact hlength
  · cases h

end Cursor

end ChunkRouter.Wire

namespace ChunkRouter.Message

open Wire

/-! ## Messages -/

namespace Request

theorem read_took {c c' : Cursor} {m : Request} (h : read c = .ok (m, c')) :
    m.Measured ∧ Took read c c' m.charges m.encode.length m := by
  unfold read at h
  obtain ⟨⟨tag, d⟩, htag, h⟩ := bind_eq_ok h
  obtain ⟨-, htag⟩ := Cursor.u32_took htag
  dsimp only at h
  split at h
  · obtain ⟨⟨nonce, d'⟩, hnonce, h⟩ := bind_eq_ok h
    obtain ⟨hn, hnonce⟩ := Cursor.u64_took hnonce
    cases h
    have hsize : (ping nonce.toUInt64).encode.length = 1 + (Varint.encode nonce).length := by
      rw [encode, UInt64.toNat_ofNat_of_lt' hn, List.length_cons, Nat.add_comm]
    rw [hsize]
    exact ⟨trivial, htag.bind (hnonce.finish fun c => rfl)⟩
  · obtain ⟨⟨body, d'⟩, hbody, h⟩ := bind_eq_ok h
    obtain ⟨hlength, hbody⟩ := Cursor.bytes_took hbody
    cases h
    have hsize : (echo body).encode.length = 1 + (encodeBytes body).length := by
      rw [encode, List.length_cons, Nat.add_comm]
    rw [hsize]
    exact ⟨hlength, htag.bind (hbody.finish fun c => rfl)⟩
  · obtain ⟨⟨id, d'⟩, hid, h⟩ := bind_eq_ok h
    obtain ⟨⟨items, d''⟩, hitems, h⟩ := bind_eq_ok h
    obtain ⟨hn, hid⟩ := Cursor.u64_took hid
    obtain ⟨hcount, hlengths, hitems⟩ := Cursor.bytesList_took hitems
    cases h
    have hsize : (batch id.toUInt64 items).encode.length =
        1 + ((Varint.encode id).length + (encodeBytesList items).length) := by
      rw [encode, UInt64.toNat_ofNat_of_lt' hn, List.length_cons, List.length_append, Nat.add_comm]
    rw [hsize]
    exact ⟨⟨hcount, hlengths⟩, htag.bind (hid.bind (hitems.finish fun c => rfl))⟩
  · cases h

end Request

namespace Reply

theorem read_took {c c' : Cursor} {m : Reply} (h : read c = .ok (m, c')) :
    m.Measured ∧ Took read c c' m.charges m.encode.length m := by
  unfold read at h
  obtain ⟨⟨tag, d⟩, htag, h⟩ := bind_eq_ok h
  obtain ⟨-, htag⟩ := Cursor.u32_took htag
  dsimp only at h
  split at h
  · obtain ⟨⟨nonce, d'⟩, hnonce, h⟩ := bind_eq_ok h
    obtain ⟨hn, hnonce⟩ := Cursor.u64_took hnonce
    cases h
    have hsize : (pong nonce.toUInt64).encode.length = 1 + (Varint.encode nonce).length := by
      rw [encode, UInt64.toNat_ofNat_of_lt' hn, List.length_cons, Nat.add_comm]
    rw [hsize]
    exact ⟨trivial, htag.bind (hnonce.finish fun c => rfl)⟩
  · obtain ⟨⟨body, d'⟩, hbody, h⟩ := bind_eq_ok h
    obtain ⟨hlength, hbody⟩ := Cursor.bytes_took hbody
    cases h
    have hsize : (echo body).encode.length = 1 + (encodeBytes body).length := by
      rw [encode, List.length_cons, Nat.add_comm]
    rw [hsize]
    exact ⟨hlength, htag.bind (hbody.finish fun c => rfl)⟩
  · obtain ⟨⟨id, d₁⟩, hid, h⟩ := bind_eq_ok h
    obtain ⟨⟨good, d₂⟩, hgood, h⟩ := bind_eq_ok h
    obtain ⟨⟨bad, d₃⟩, hbad, h⟩ := bind_eq_ok h
    obtain ⟨⟨firstError, d₄⟩, herror, h⟩ := bind_eq_ok h
    obtain ⟨hn, hid⟩ := Cursor.u64_took hid
    obtain ⟨hgood32, hgood⟩ := Cursor.u32_took hgood
    obtain ⟨hbad32, hbad⟩ := Cursor.u32_took hbad
    obtain ⟨hlength, herror⟩ := Cursor.optionalText_took herror
    cases h
    have hsize : (batchDone id.toUInt64 good.toUInt32 bad.toUInt32 firstError).encode.length =
        1 + ((Varint.encode id).length + ((Varint.encode good).length +
          ((Varint.encode bad).length + (encodeOptionalText firstError).length))) := by
      rw [encode, UInt64.toNat_ofNat_of_lt' hn, UInt32.toNat_ofNat_of_lt' hgood32,
        UInt32.toNat_ofNat_of_lt' hbad32, List.length_cons, List.length_append, List.length_append,
        List.length_append]
      omega
    rw [hsize]
    exact ⟨hlength, htag.bind (hid.bind (hgood.bind (hbad.bind (herror.finish fun c => rfl))))⟩
  · obtain ⟨⟨reason, d'⟩, hreason, h⟩ := bind_eq_ok h
    obtain ⟨hlength, hreason⟩ := Cursor.text_took hreason
    cases h
    have hsize : (rejected reason).encode.length = 1 + (encodeText reason).length := by
      rw [encode, List.length_cons, Nat.add_comm]
    rw [hsize]
    exact ⟨hlength, htag.bind (hreason.finish fun c => rfl)⟩
  · cases h

end Reply

/-- What a message was decoded from: these bytes, of which every part is too short, spell `m`, in no fewer
bytes than its encoding, which spells it too. -/
structure Spelling {α : Type} (decode : Bytes → Except DecodeError (α × Bytes)) (encode : α → Bytes)
    (front : Bytes) (m : α) : Prop where
  reads : ∀ t, decode (front ++ t) = .ok (m, t)
  cut : ∀ n < front.length, ∃ k, decode (front.take n) = .error (.unexpectedEnd k)
  length_le : (encode m).length ≤ front.length
  again : decode (encode m) = .ok (m, [])

/-- Bytes that were taken as a message spell it. -/
theorem spelling_of_took {α : Type} {read : Decoder α} {encode : α → Bytes} {b : Bytes} {m : α}
    {c : Cursor} {charges : List Charge} (hread : read (.start b) = .ok (m, c))
    (htook : Took read (.start b) c charges (encode m).length m)
    (hspells : Spells read (encode m) charges m) :
    ∃ front, b = front ++ c.rest ∧
      Spelling (fun b => (read (.start b)).map fun p => (p.1, p.2.rest)) encode front m := by
  obtain ⟨front, hfront, hlength, hdelimits⟩ := htook
  have hb : b = front ++ c.rest := hfront
  -- it was affordable, since it was accepted
  have hafford : Affordable 0 charges := by
    refine Decidable.byContradiction fun hnot => ?_
    have hrefused : read ⟨front ++ c.rest, 0⟩ = .error .limitExceeded :=
      hdelimits.refuses c.rest (Nat.zero_le _) hnot
    rw [← hb] at hrefused
    cases hread.symm.trans hrefused
  refine ⟨front, hb, fun t => ?_, fun n hn => ?_, hlength, ?_⟩
  · exact (hdelimits.start t).trans (if_pos hafford)
  · have hmissing : front.drop n ≠ [] := by
      rw [Ne, List.drop_eq_nil_iff]
      omega
    obtain ⟨k, hk⟩ := hdelimits.cut (List.take_append_drop n front).symm hmissing hafford
    refine ⟨k, ?_⟩
    show (read ⟨front.take n, 0⟩).map _ = _
    rw [hk]
    rfl
  · have hagain := hspells.start []
    rw [List.append_nil] at hagain
    exact hagain.trans (if_pos hafford)

theorem of_map_rest {α : Type} {r : Except DecodeError (α × Cursor)} {m : α} {rest : Bytes}
    (h : r.map (fun p => (p.1, p.2.rest)) = .ok (m, rest)) : ∃ c, r = .ok (m, c) ∧ c.rest = rest := by
  cases r with
  | error e => cases h
  | ok p =>
    cases h
    exact ⟨p.2, rfl, rfl⟩

/-- **Messages delimit themselves.** Bytes from which a request or a reply is decoded begin with a spelling
of it: decoding looks at no byte behind it, meets an untimely end in every part of it, and the encoding
of what was decoded is no longer and is decoded to the same. -/
theorem decoding_delimits :
    (∀ (b : Bytes) (m : Request) (rest : Bytes), Request.decode b = .ok (m, rest) →
        ∃ front, b = front ++ rest ∧ Spelling Request.decode Request.encode front m) ∧
      ∀ (b : Bytes) (m : Reply) (rest : Bytes), Reply.decode b = .ok (m, rest) →
        ∃ front, b = front ++ rest ∧ Spelling Reply.decode Reply.encode front m := by
  constructor
  · intro b m rest h
    obtain ⟨c, hread, rfl⟩ := of_map_rest h
    obtain ⟨hmeasured, htook⟩ := Request.read_took hread
    exact spelling_of_took hread htook (Request.spells hmeasured)
  · intro b m rest h
    obtain ⟨c, hread, rfl⟩ := of_map_rest h
    obtain ⟨hmeasured, htook⟩ := Reply.read_took hread
    exact spelling_of_took hread htook (Reply.spells hmeasured)

/-- A batch and its reply, with numbers in more bytes than they need and a byte behind them. -/
theorem decoding_delimits_long_numbers :
    let request : Bytes := [251, 2, 0, 7, 253, 2, 0, 0, 0, 0, 0, 0, 0, 1, 9, 0]
    let reply : Bytes := [2, 7, 252, 1, 0, 0, 0, 1, 1, 251, 2, 0, 0xC3, 0xA9]
    Request.decode (request ++ [99]) = .ok (.batch 7 [[9], []], [99]) ∧
      Reply.decode (reply ++ [99]) = .ok (.batchDone 7 1 1 (some "é"), [99]) ∧
      Spelling Request.decode Request.encode request (.batch 7 [[9], []]) ∧
      Spelling Reply.decode Reply.encode reply (.batchDone 7 1 1 (some "é")) := by
  intro request reply
  have hrequest : Request.decode (request ++ [99]) = .ok (.batch 7 [[9], []], [99]) := by rfl
  have hreply : Reply.decode (reply ++ [99]) = .ok (.batchDone 7 1 1 (some "é"), [99]) :=
    eq_ok_of_toOption (by decide +kernel)
  obtain ⟨front, hfront, hspelling⟩ := decoding_delimits.1 _ _ _ hrequest
  obtain ⟨front', hfront', hspelling'⟩ := decoding_delimits.2 _ _ _ hreply
  rw [← List.append_cancel_right hfront] at hspelling
  rw [← List.append_cancel_right hfront'] at hspelling'
  exact ⟨hrequest, hreply, hspelling, hspelling'⟩

end ChunkRouter.Message
