import ChunkRouter.Text.Utf8

/-!
# Text and back

The bytes of a text decode to it, and bytes that decode are those of the text they decode to. A character
of two bytes or more leads with a byte that tells how many follow, and each of these carries six bits.
`next` looks at the ranges byte by byte, so what is to be shown is that every character comes out of its
own bytes, and out of no others.
-/

namespace ChunkRouter.Text.Utf8

/-! ## Bytes of a character -/

theorem toNat_ofNat {n : Nat} (h : n < 256) : (UInt8.ofNat n).toNat = n := by
  rw [UInt8.toNat_ofNat', Nat.mod_eq_of_lt h]

theorem ofNat_eq_iff {n : Nat} (h : n < 256) (b : UInt8) : UInt8.ofNat n = b ↔ n = b.toNat := by
  rw [← UInt8.toNat_inj, toNat_ofNat h]

/-- The continuation byte that carries the six low bits of `n`. -/
def tail (n : Nat) : UInt8 := UInt8.ofNat (n % 64 + 128)

theorem toNat_tail (n : Nat) : (tail n).toNat = n % 64 + 128 := by
  rw [tail, UInt8.toNat_ofNat']
  omega

theorem low6_tail (n : Nat) : low6 (tail n) = n % 64 := by
  rw [low6, toNat_tail]
  omega

theorem mem_iff {low high c : UInt8} :
    (decide (low ≤ c) && decide (c ≤ high)) = true ↔ low.toNat ≤ c.toNat ∧ c.toNat ≤ high.toNat := by
  rw [Bool.and_eq_true, decide_eq_true_iff, decide_eq_true_iff, UInt8.le_iff_toNat_le,
    UInt8.le_iff_toNat_le]

theorem tail_mem_iff {low high : UInt8} {n : Nat} :
    (decide (low ≤ tail n) && decide (tail n ≤ high)) = true ↔
      low.toNat ≤ n % 64 + 128 ∧ n % 64 + 128 ≤ high.toNat := by
  rw [mem_iff, toNat_tail]

theorem isContinuation_tail (n : Nat) : isContinuation (tail n) = true := by
  refine tail_mem_iff.2 ⟨Nat.le_add_left 128 _, ?_⟩
  show n % 64 + 128 ≤ 191
  omega

/-- Three bytes spell no number below 2048, which two could spell, and no half of a surrogate pair. -/
theorem second3_tail {n : Nat} (hlow : 32 ≤ n) (hhigh : n < 1024) (hpair : n < 864 ∨ 896 ≤ n) :
    second3 (UInt8.ofNat (n / 64 % 16 + 224)) (tail n) = true := by
  have hlead := ofNat_eq_iff (n := n / 64 % 16 + 224) (by omega)
  unfold second3
  split
  · rename_i hb
    have hn : n / 64 % 16 + 224 = 224 := (hlead _).1 hb
    refine tail_mem_iff.2 ?_
    show 160 ≤ n % 64 + 128 ∧ n % 64 + 128 ≤ 191
    omega
  split
  · rename_i hb
    have hn : n / 64 % 16 + 224 = 237 := (hlead _).1 hb
    refine tail_mem_iff.2 ?_
    show 128 ≤ n % 64 + 128 ∧ n % 64 + 128 ≤ 159
    omega
  · exact isContinuation_tail n

/-- Four bytes spell no number that three could spell, and none beyond the last plane. -/
theorem second4_tail {n : Nat} (hlow : 16 ≤ n) (hhigh : n < 272) :
    second4 (UInt8.ofNat (n / 64 % 8 + 240)) (tail n) = true := by
  have hlead := ofNat_eq_iff (n := n / 64 % 8 + 240) (by omega)
  unfold second4
  split
  · rename_i hb
    have hn : n / 64 % 8 + 240 = 240 := (hlead _).1 hb
    refine tail_mem_iff.2 ?_
    show 144 ≤ n % 64 + 128 ∧ n % 64 + 128 ≤ 191
    omega
  split
  · rename_i hb
    have hn : n / 64 % 8 + 240 = 244 := (hlead _).1 hb
    refine tail_mem_iff.2 ?_
    show 128 ≤ n % 64 + 128 ∧ n % 64 + 128 ≤ 143
    omega
  · exact isContinuation_tail n

/-! ## Characters -/

section

variable {n : Nat} (rest : Bytes)

theorem next_one (h : n < 128) : next (UInt8.ofNat n) rest = .ok (Char.ofNat n, 1, rest) := by
  have hn : (UInt8.ofNat n).toNat = n := toNat_ofNat (by omega)
  unfold next
  simp only [UInt8.lt_iff_toNat_lt, hn]
  exact if_pos h

theorem next_two (hlow : 128 ≤ n) (hhigh : n < 2048) :
    next (UInt8.ofNat (n / 64 % 32 + 192)) (tail n :: rest) = .ok (Char.ofNat n, 2, rest) := by
  have hlead : (UInt8.ofNat (n / 64 % 32 + 192)).toNat = n / 64 % 32 + 192 := toNat_ofNat (by omega)
  have hchar : (n / 64 % 32 + 192) % 32 * 64 + n % 64 = n := by omega
  unfold next
  simp only [UInt8.lt_iff_toNat_lt, hlead, isContinuation_tail, low6_tail, hchar, if_true]
  rw [if_neg, if_neg, if_pos]
  · show _ < 224
    omega
  · show ¬ _ < 194
    omega
  · show ¬ _ < 128
    omega

theorem next_three (hlow : 2048 ≤ n) (hhigh : n < 65536) (hpair : n < 55296 ∨ 57344 ≤ n) :
    next (UInt8.ofNat (n / 4096 % 16 + 224)) (tail (n / 64) :: tail n :: rest) =
      .ok (Char.ofNat n, 3, rest) := by
  have hlead : (UInt8.ofNat (n / 4096 % 16 + 224)).toNat = n / 4096 % 16 + 224 :=
    toNat_ofNat (by omega)
  have hchar : (n / 4096 % 16 + 224) % 16 * 4096 + n / 64 % 64 * 64 + n % 64 = n := by omega
  have hsecond : second3 (UInt8.ofNat (n / 4096 % 16 + 224)) (tail (n / 64)) = true := by
    have h := second3_tail (n := n / 64) (by omega) (by omega) (by omega)
    rwa [Nat.div_div_eq_div_mul] at h
  unfold next
  simp only [UInt8.lt_iff_toNat_lt, hlead, hsecond, isContinuation_tail, low6_tail, hchar, if_true]
  rw [if_neg, if_neg, if_neg, if_pos]
  · show _ < 240
    omega
  · show ¬ _ < 224
    omega
  · show ¬ _ < 194
    omega
  · show ¬ _ < 128
    omega

theorem next_four (hlow : 65536 ≤ n) (hhigh : n < 1114112) :
    next (UInt8.ofNat (n / 262144 % 8 + 240)) (tail (n / 4096) :: tail (n / 64) :: tail n :: rest) =
      .ok (Char.ofNat n, 4, rest) := by
  have hlead : (UInt8.ofNat (n / 262144 % 8 + 240)).toNat = n / 262144 % 8 + 240 :=
    toNat_ofNat (by omega)
  have hchar : (n / 262144 % 8 + 240) % 8 * 262144 + n / 4096 % 64 * 4096 + n / 64 % 64 * 64 +
      n % 64 = n := by
    omega
  have hsecond : second4 (UInt8.ofNat (n / 262144 % 8 + 240)) (tail (n / 4096)) = true := by
    have h := second4_tail (n := n / 4096) (by omega) (by omega)
    rwa [Nat.div_div_eq_div_mul] at h
  unfold next
  simp only [UInt8.lt_iff_toNat_lt, hlead, hsecond, isContinuation_tail, low6_tail, hchar, if_true]
  rw [if_neg, if_neg, if_neg, if_neg, if_pos]
  · show _ < 245
    omega
  · show ¬ _ < 240
    omega
  · show ¬ _ < 224
    omega
  · show ¬ _ < 194
    omega
  · show ¬ _ < 128
    omega

end

/-- What Unicode has: seventeen planes, without the halves of surrogate pairs. -/
theorem toNat_bounds (c : Char) : c.toNat < 55296 ∨ 57344 ≤ c.toNat ∧ c.toNat < 1114112 := c.valid

/-- A character comes out of its own bytes. -/
theorem next_utf8EncodeChar (c : Char) :
    ∃ b bytes n, String.utf8EncodeChar c = b :: bytes ∧
      ∀ rest, next b (bytes ++ rest) = .ok (c, n, rest) := by
  have hbounds := toNat_bounds c
  have hc : Char.ofNat c.toNat = c := c.ofNat_toNat
  unfold String.utf8EncodeChar
  by_cases h1 : c.toNat ≤ 127
  · have hnext := fun rest => next_one (n := c.toNat) rest (by omega)
    rw [hc] at hnext
    exact ⟨_, _, 1, if_pos h1, hnext⟩
  by_cases h2 : c.toNat ≤ 2047
  · have hnext := fun rest => next_two (n := c.toNat) rest (by omega) (by omega)
    rw [hc] at hnext
    exact ⟨_, _, 2, (if_neg h1).trans (if_pos h2), hnext⟩
  by_cases h3 : c.toNat ≤ 65535
  · have hnext := fun rest => next_three (n := c.toNat) rest (by omega) (by omega) (by omega)
    rw [hc] at hnext
    exact ⟨_, _, 3, (if_neg h1).trans ((if_neg h2).trans (if_pos h3)), hnext⟩
  · have hnext := fun rest => next_four (n := c.toNat) rest (by omega) (by omega)
    rw [hc] at hnext
    exact ⟨_, _, 4, (if_neg h1).trans ((if_neg h2).trans (if_neg h3)), hnext⟩

/-! ## Texts -/

theorem decodeFrom_flatMap (read : Nat) (acc cs : List Char) :
    decodeFrom read acc (cs.flatMap String.utf8EncodeChar) = .ok (acc.reverse ++ cs) := by
  induction cs generalizing read acc with
  | nil => rw [List.flatMap_nil, decodeFrom, List.append_nil]
  | cons c cs ih =>
    obtain ⟨b, bytes, n, hbytes, hnext⟩ := next_utf8EncodeChar c
    rw [List.flatMap_cons, hbytes, List.cons_append, decodeFrom]
    split
    · rename_i h
      rw [hnext] at h
      cases h
    · rename_i h
      rw [hnext] at h
      cases h
      rw [ih, List.reverse_cons, List.append_assoc]
      rfl

theorem decode_encode (s : String) : decode (encode s) = .ok s := by
  rw [decode, encode, decodeFrom_flatMap]
  exact congrArg Except.ok s.ofList_toList

/-! ## Bytes and back -/

theorem toNat_char {n : Nat} (h : n.isValidChar) : (Char.ofNat n).toNat = n := by
  rw [Char.ofNat, dif_pos h]
  rfl

theorem isContinuation_iff (c : UInt8) : isContinuation c = true ↔ 128 ≤ c.toNat ∧ c.toNat ≤ 191 :=
  mem_iff

/-- A continuation byte is what carries its own bits. -/
theorem tail_low6 {c : UInt8} (h : 128 ≤ c.toNat ∧ c.toNat ≤ 191) {n : Nat} (hn : n % 64 = low6 c) :
    tail n = c := by
  have hbits : n % 64 = c.toNat % 64 := hn
  rw [← UInt8.toNat_inj, toNat_tail]
  omega

theorem of_second3 {b c : UInt8} (h : second3 b c = true) :
    (128 ≤ c.toNat ∧ c.toNat ≤ 191) ∧ (b.toNat = 224 → 160 ≤ c.toNat) ∧
      (b.toNat = 237 → c.toNat ≤ 159) := by
  unfold second3 at h
  split at h
  · rename_i hb
    have hlead : b.toNat = 224 := congrArg UInt8.toNat hb
    have hbounds : 160 ≤ c.toNat ∧ c.toNat ≤ 191 := mem_iff.1 h
    omega
  rename_i hfirst
  have hfirst : b.toNat ≠ 224 := fun hb => hfirst (UInt8.toNat_inj.1 hb)
  split at h
  · have hbounds : 128 ≤ c.toNat ∧ c.toNat ≤ 159 := mem_iff.1 h
    omega
  · rename_i hlast
    have hlast : b.toNat ≠ 237 := fun hb => hlast (UInt8.toNat_inj.1 hb)
    rw [isContinuation_iff] at h
    omega

theorem of_second4 {b c : UInt8} (h : second4 b c = true) :
    (128 ≤ c.toNat ∧ c.toNat ≤ 191) ∧ (b.toNat = 240 → 144 ≤ c.toNat) ∧
      (b.toNat = 244 → c.toNat ≤ 143) := by
  unfold second4 at h
  split at h
  · rename_i hb
    have hlead : b.toNat = 240 := congrArg UInt8.toNat hb
    have hbounds : 144 ≤ c.toNat ∧ c.toNat ≤ 191 := mem_iff.1 h
    omega
  rename_i hfirst
  have hfirst : b.toNat ≠ 240 := fun hb => hfirst (UInt8.toNat_inj.1 hb)
  split at h
  · have hbounds : 128 ≤ c.toNat ∧ c.toNat ≤ 143 := mem_iff.1 h
    omega
  · rename_i hlast
    have hlast : b.toNat ≠ 244 := fun hb => hlast (UInt8.toNat_inj.1 hb)
    rw [isContinuation_iff] at h
    omega

section

variable {n : Nat}

theorem utf8EncodeChar_one (h : n < 128) :
    String.utf8EncodeChar (Char.ofNat n) = [UInt8.ofNat n] := by
  have hn : (Char.ofNat n).val.toNat = n := toNat_char (.inl (by omega))
  unfold String.utf8EncodeChar
  simp only [hn]
  rw [if_pos (by omega)]

theorem utf8EncodeChar_two (hlow : 128 ≤ n) (hhigh : n < 2048) :
    String.utf8EncodeChar (Char.ofNat n) = [UInt8.ofNat (n / 64 % 32 + 192), tail n] := by
  have hn : (Char.ofNat n).val.toNat = n := toNat_char (.inl (by omega))
  unfold String.utf8EncodeChar
  simp only [hn]
  rw [if_neg (by omega), if_pos (by omega)]
  rfl

theorem utf8EncodeChar_three (hlow : 2048 ≤ n) (hhigh : n < 65536) (hpair : n < 55296 ∨ 57344 ≤ n) :
    String.utf8EncodeChar (Char.ofNat n) =
      [UInt8.ofNat (n / 4096 % 16 + 224), tail (n / 64), tail n] := by
  have hvalid : n.isValidChar := by
    rcases hpair with hpair | hpair
    · exact .inl hpair
    · exact .inr ⟨by omega, by omega⟩
  have hn : (Char.ofNat n).val.toNat = n := toNat_char hvalid
  unfold String.utf8EncodeChar
  simp only [hn]
  rw [if_neg (by omega), if_neg (by omega), if_pos (by omega)]
  rfl

theorem utf8EncodeChar_four (hlow : 65536 ≤ n) (hhigh : n < 1114112) :
    String.utf8EncodeChar (Char.ofNat n) =
      [UInt8.ofNat (n / 262144 % 8 + 240), tail (n / 4096), tail (n / 64), tail n] := by
  have hn : (Char.ofNat n).val.toNat = n := toNat_char (.inr ⟨by omega, hhigh⟩)
  unfold String.utf8EncodeChar
  simp only [hn]
  rw [if_neg (by omega), if_neg (by omega), if_neg (by omega)]
  rfl

end

/-! What `next` computes from the bytes of a character spells these bytes. -/

section

variable {b d e f : UInt8}

theorem spelled_two (hb : 194 ≤ b.toNat ∧ b.toNat < 224) (hd : 128 ≤ d.toNat ∧ d.toNat ≤ 191) :
    String.utf8EncodeChar (Char.ofNat (b.toNat % 32 * 64 + low6 d)) = [b, d] := by
  have hlow : low6 d < 64 := Nat.mod_lt _ (by decide)
  generalize hn : b.toNat % 32 * 64 + low6 d = n
  have hlead : UInt8.ofNat (n / 64 % 32 + 192) = b := (ofNat_eq_iff (by omega) b).2 (by omega)
  have hlast : tail n = d := tail_low6 hd (by omega)
  rw [utf8EncodeChar_two (by omega) (by omega), hlead, hlast]

theorem spelled_three (hb : 224 ≤ b.toNat ∧ b.toNat < 240) (hd : second3 b d = true)
    (he : 128 ≤ e.toNat ∧ e.toNat ≤ 191) :
    String.utf8EncodeChar (Char.ofNat (b.toNat % 16 * 4096 + low6 d * 64 + low6 e)) = [b, d, e] := by
  obtain ⟨hd, hfirst, hpair⟩ := of_second3 hd
  have hlow : low6 e < 64 := Nat.mod_lt _ (by decide)
  have hmid : low6 d = d.toNat - 128 := by
    unfold low6
    omega
  generalize hn : b.toNat % 16 * 4096 + low6 d * 64 + low6 e = n
  have hlead : UInt8.ofNat (n / 4096 % 16 + 224) = b := (ofNat_eq_iff (by omega) b).2 (by omega)
  have hsecond : tail (n / 64) = d := tail_low6 hd (by omega)
  have hlast : tail n = e := tail_low6 he (by omega)
  rw [utf8EncodeChar_three (by omega) (by omega) (by omega), hlead, hsecond, hlast]

theorem spelled_four (hb : 240 ≤ b.toNat ∧ b.toNat < 245) (hd : second4 b d = true)
    (he : 128 ≤ e.toNat ∧ e.toNat ≤ 191) (hf : 128 ≤ f.toNat ∧ f.toNat ≤ 191) :
    String.utf8EncodeChar
        (Char.ofNat (b.toNat % 8 * 262144 + low6 d * 4096 + low6 e * 64 + low6 f)) =
      [b, d, e, f] := by
  obtain ⟨hd, hfirst, hend⟩ := of_second4 hd
  have hlow : low6 f < 64 := Nat.mod_lt _ (by decide)
  have hlow' : low6 e < 64 := Nat.mod_lt _ (by decide)
  have hmid : low6 d = d.toNat - 128 := by
    unfold low6
    omega
  generalize hn : b.toNat % 8 * 262144 + low6 d * 4096 + low6 e * 64 + low6 f = n
  have hlead : UInt8.ofNat (n / 262144 % 8 + 240) = b := (ofNat_eq_iff (by omega) b).2 (by omega)
  have hsecond : tail (n / 4096) = d := tail_low6 hd (by omega)
  have hthird : tail (n / 64) = e := tail_low6 he (by omega)
  have hlast : tail n = f := tail_low6 hf (by omega)
  rw [utf8EncodeChar_four (by omega) (by omega), hlead, hsecond, hthird, hlast]

end

/-- The bytes of a character that was read are the bytes it was read off. -/
theorem eq_of_next {b : UInt8} {bytes rest : Bytes} {c : Char} {n : Nat}
    (h : next b bytes = .ok (c, n, rest)) : b :: bytes = String.utf8EncodeChar c ++ rest := by
  unfold next at h
  simp only [UInt8.lt_iff_toNat_lt] at h
  split at h
  · rename_i hone
    cases h
    rw [utf8EncodeChar_one hone, UInt8.ofNat_toNat]
    rfl
  split at h
  · cases h
  rename_i hlow
  split at h
  · -- two bytes
    rename_i hhigh
    rcases bytes with _ | ⟨d, bytes⟩ <;> dsimp only at h
    · cases h
    split at h <;> rename_i hd
    · cases h
      rw [spelled_two ⟨Nat.not_lt.1 hlow, hhigh⟩ ((isContinuation_iff d).1 hd)]
      rfl
    · cases h
  rename_i hlow
  split at h
  · -- three bytes
    rename_i hhigh
    rcases bytes with _ | ⟨d, _ | ⟨e, bytes⟩⟩ <;> dsimp only at h
    · cases h
    · split at h <;> cases h
    split at h <;> rename_i hd
    · split at h <;> rename_i he
      · cases h
        rw [spelled_three ⟨Nat.not_lt.1 hlow, hhigh⟩ hd ((isContinuation_iff e).1 he)]
        rfl
      · cases h
    · cases h
  rename_i hlow
  split at h
  · -- four bytes
    rename_i hhigh
    rcases bytes with _ | ⟨d, _ | ⟨e, _ | ⟨f, bytes⟩⟩⟩ <;> dsimp only at h
    · cases h
    · split at h <;> cases h
    · split at h
      · split at h <;> cases h
      · cases h
    split at h <;> rename_i hd
    · split at h <;> rename_i he
      · split at h <;> rename_i hf
        · cases h
          rw [spelled_four ⟨Nat.not_lt.1 hlow, hhigh⟩ hd ((isContinuation_iff e).1 he)
            ((isContinuation_iff f).1 hf)]
          rfl
        · cases h
      · cases h
    · cases h
  · cases h

theorem flatMap_of_decodeFrom {read : Nat} {acc cs : List Char} {bytes : Bytes}
    (h : decodeFrom read acc bytes = .ok cs) :
    cs.flatMap String.utf8EncodeChar = acc.reverse.flatMap String.utf8EncodeChar ++ bytes := by
  fun_induction decodeFrom read acc bytes with
  | case1 =>
    cases h
    rw [List.append_nil]
  | case2 => cases h
  | case3 read acc b bytes c n rest hnext ih =>
    rw [ih h, eq_of_next hnext, List.reverse_cons, List.flatMap_append, List.flatMap_singleton,
      List.append_assoc]

/-- The bytes that spell a text are the bytes of that text. -/
theorem encode_of_decode {raw : Bytes} {s : String} (h : decode raw = .ok s) : encode s = raw := by
  unfold decode at h
  cases hcs : decodeFrom 0 [] raw with
  | error e =>
    rw [hcs] at h
    cases h
  | ok cs =>
    rw [hcs] at h
    cases h
    rw [encode, String.toList_ofList, flatMap_of_decodeFrom hcs]
    rfl

end ChunkRouter.Text.Utf8
