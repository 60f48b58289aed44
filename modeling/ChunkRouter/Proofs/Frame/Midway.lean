import ChunkRouter.Proofs.Frame.Parsing
import ChunkRouter.Proofs.Frame.Paths

/-!
# Readers in the middle of a chunk

A reader in use may stand anywhere in a chunk. What it has received of that chunk is `Reader.held`, as the
bytes appear on the wire. `run_follows` says that reading on from there is parsing what is held and what
comes, and `held_append` that no byte is lost or read twice: what is held and what comes are the chunks
delivered and what is held then.
-/

namespace ChunkRouter.Frame

open Grammar (Tail Parse parse lengthError? wire)

/-! ## What a wire ends with -/

theorem Header.encode_decode {header : Bytes} (h : header.length = 4) :
    encode (decode header) = header := by
  match header, h with
  | [a, b, c, d], _ =>
    have ha := a.toNat_lt
    have hb := b.toNat_lt
    have hc := c.toNat_lt
    have hd := d.toNat_lt
    simp only [encode, decode, List.foldl_cons, List.foldl_nil, List.cons.injEq, and_true,
      ← UInt8.toNat_inj, UInt8.toNat_ofNat', Nat.toUInt8_eq]
    omega

namespace Grammar

/-- The bytes behind the last whole chunk, as they appear on the wire. -/
def Tail.bytes : Tail → Bytes
  | .header got => got
  | .body n got => Header.encode n ++ got
  | .bad _ rest => rest

/-- What a wire ends with is less than a chunk. -/
def Tail.Within (max : Nat) : Tail → Prop
  | .header got => got.length < prefixSize
  | .body n got => got.length < n ∧ n ≤ max
  | .bad _ _ => True

theorem within_parse (max : Nat) (w : Bytes) : (parse max w).tail.Within max := by
  fun_induction parse max w with
  | case1 w hshort => exact hshort
  | case2 w hshort n rest e he => trivial
  | case3 w hshort n rest hok hlt => exact ⟨hlt, (lengthError?_eq_none_iff.1 hok).2⟩
  | case4 w hshort n rest hok hlt later ih => exact ih

/-- Cutting a wire apart loses nothing. -/
theorem wire_append_bytes {max : Nat} {w : Bytes} (h : (parse max w).tail.error? = none) :
    wire (parse max w).bodies ++ (parse max w).tail.bytes = w := by
  fun_induction parse max w with
  | case1 w hshort => rfl
  | case2 w hshort n rest e he => cases h
  | case3 w hshort n rest hok hlt =>
    have hfour : (w.take 4).length = 4 := List.length_take_of_le (Nat.not_lt.1 hshort)
    show [] ++ (Header.encode n ++ rest) = w
    rw [Header.encode_decode hfour, List.nil_append, List.take_append_drop]
  | case4 w hshort n rest hok hlt later ih =>
    have hfour : (w.take 4).length = 4 := List.length_take_of_le (Nat.not_lt.1 hshort)
    have hbody : (rest.take n).length = n := List.length_take_of_le (Nat.not_lt.1 hlt)
    show frame (rest.take n) ++ wire later.bodies ++ later.tail.bytes = w
    rw [List.append_assoc, ih h, frame, hbody, Header.encode_decode hfour, List.append_assoc,
      List.take_append_drop, List.take_append_drop]

end Grammar

/-! ## Where a reader stands -/

theorem Window.received_rewind (w : Window) : w.rewind.received w.filled.reverse = w := by
  simp [rewind, received]

theorem Window.has_filled (w : Window) : w.Has w.size w.filled.reverse := by
  refine ⟨(List.reverse_reverse _).symm, ?_⟩
  rw [List.length_reverse, size, Nat.add_comm]

namespace Reader

variable {r : Reader}

/-- The part of a chunk that was received. -/
def tail (r : Reader) : Tail :=
  match r.phase with
  | .header => .header r.header.filled.reverse
  | .body length => .body length r.body.filled.reverse

/-- The bytes received of the chunk in progress, its length prefix included. -/
def held (r : Reader) : Bytes := r.tail.bytes

theorem Holds.held_eq {tail : Tail} (h : r.Holds tail) (hok : tail.error? = none) :
    r.held = tail.bytes := by
  cases tail with
  | header got =>
    obtain ⟨-, hphase, ⟨hfilled, -⟩, -⟩ := h
    rw [held, Reader.tail, hphase, hfilled, List.reverse_reverse]
  | body n got =>
    obtain ⟨-, hphase, -, hfilled, -⟩ := h
    rw [held, Reader.tail, hphase, hfilled, List.reverse_reverse]
  | bad e rest => cases hok

/-- What filling a window, and settling it and poisoning while the reader is not poisoned, keep, every
operation keeps. -/
theorem foldl_operate_induction {P : Reader → Prop} (hset : ∀ r w, P r → P (r.setWindow w))
    (hsettle : ∀ r, r.poisoned = false → P r → P r.settle.1)
    (hpoison : ∀ r, r.poisoned = false → P r → P r.poison) {r : Reader} (h : P r) (ops : List Op) :
    P (ops.foldl operate r) := by
  have hrun : ∀ (bytes : Bytes) (r : Reader), P r → P (r.run bytes).reader := by
    intro bytes
    induction bytes with
    | nil => exact fun r h => h
    | cons b bytes ih =>
      intro r h
      have hb : P (r.receive b).1 := by
        unfold receive
        cases hp : r.poisoned with
        | true => exact h
        | false =>
          split
          · exact h
          · exact hsettle _ (by simpa using hp) (hset _ _ h)
      rw [run_cons]
      rcases hreceive : r.receive b with ⟨r', e | chunk⟩ <;> rw [hreceive] at hb
      · exact hb
      · exact ih r' hb
  have hoperate : ∀ (op : Op) (r : Reader), P r → P (r.operate op) := by
    intro op r h
    cases op with
    | feed bytes =>
      rw [operate, feed_eq_run]
      exact hrun bytes r h
    | drip bytes step =>
      rw [operate, drip]
      by_cases hstep : step = 0
      · rw [if_pos hstep]
        exact h
      · rw [if_neg hstep, delivery_eq_run]
        exact hrun bytes r h
    | fill bytes =>
      rw [operate, fill]
      split
      · exact h
      · exact hset _ _ h
    | advance n =>
      rw [operate, advance]
      split
      · exact h
      rename_i hp
      have hp : r.poisoned = false := Bool.of_not_eq_true hp
      split
      · exact hpoison _ hp h
      · exact hsettle _ (by simpa using hp) (hset _ _ h)
  induction ops generalizing r with
  | nil => exact h
  | cons op ops ih => exact ih (hoperate op r h)

theorem limits_foldl (r : Reader) (ops : List Op) : (ops.foldl operate r).limits = r.limits := by
  refine foldl_operate_induction (P := fun s => s.limits = r.limits) ?_ ?_ ?_ rfl ops
  · intro s w h
    rw [← h, setWindow]
    split <;> rfl
  · intro s _ h
    rw [← h, settle]
    split
    · split
      · rw [openBody_eq]
        split <;> rfl
      · rfl
    · rfl
  · exact fun s _ h => h

/-- Between two chunks nothing is counted as received of a body. -/
def Rested (r : Reader) : Prop := r.poisoned = false → r.phase = .header → r.body.filled = []

theorem rested_new (limits : Limits) : (new limits).Rested := fun _ _ => rfl

theorem Rested.setWindow (h : r.Rested) (w : Window) : (r.setWindow w).Rested := by
  intro hp hphase
  unfold Reader.setWindow at hp hphase ⊢
  cases hr : r.phase with
  | header =>
    rw [hr] at hp
    exact h hp hr
  | body length =>
    rw [hr] at hphase
    cases hphase

theorem Rested.settle (h : r.Rested) : r.settle.1.Rested := by
  unfold Reader.settle
  split
  · split
    · unfold openBody
      split
      · intro hp
        cases hp
      split
      · intro hp
        cases hp
      · intro _ hphase
        cases hphase
    · intro _ _
      rfl
  · exact h

theorem rested_foldl (h : r.Rested) (ops : List Op) : (ops.foldl operate r).Rested := by
  refine foldl_operate_induction (fun r w h => h.setWindow w) (fun r _ h => h.settle) ?_ h ops
  intro r _ _ hp
  cases hp

theorem Sound.holds_tail (h : r.Sound) (ht : r.Rested) (hp : r.poisoned = false) :
    r.Holds r.tail := by
  unfold Reader.tail
  cases hphase : r.phase with
  | header => exact ⟨hp, hphase, h.header ▸ r.header.has_filled, ht hp hphase⟩
  | body length =>
    obtain ⟨hfilled, hsize⟩ := h.between hp length hphase
    refine ⟨hp, hphase, ?_, hsize ▸ r.body.has_filled⟩
    have hheader := r.header.has_filled
    rw [hfilled, h.header] at hheader
    exact hheader

/-! ## Reading on -/

/-- What reading comes to, beside what cutting a wire apart yields. -/
structure Follows (r : Reader) (g : Reading) (p : Parse) : Prop where
  chunks : g.chunks = p.bodies
  error : g.error? = p.tail.error?
  holds : g.reader.Holds p.tail
  chunksRead : g.reader.chunksRead = r.chunksRead + p.bodies.length

/-- Reading on behind a length prefix is parsing what comes behind that prefix. -/
theorem run_follows_of_body {n : Nat} (h : r.Holds (.body n [])) (hpos : 0 < n)
    (hmax : n ≤ r.limits.maxChunkLen) (w : Bytes) :
    Follows r (r.run w) (parse r.limits.maxChunkLen (Header.encode n ++ w)) := by
  have h32 : n < 4294967296 := Nat.lt_succ_of_le (Nat.le_trans hmax r.limits.maxChunkLen_le)
  have hok := Grammar.lengthError?_eq_none_iff.2 ⟨hpos, hmax⟩
  rw [Grammar.parse_append (Header.length_encode n), Header.decode_encode h32, hok]
  dsimp only
  by_cases hlt : w.length < n
  · obtain ⟨hrun, hholds⟩ := run_body_part h hlt
    rw [if_pos hlt, hrun]
    exact ⟨rfl, rfl, hholds, rfl⟩
  · have hbody : (w.take n).length = n := List.length_take_of_le (Nat.not_lt.1 hlt)
    have hrun := run_body h hpos hbody (w.drop n)
    rw [List.take_append_drop] at hrun
    have hlater := run_agrees r.limits.maxChunkLen (w.drop n) _ (holds_delivered h (w.take n)) rfl
    rw [if_neg hlt, hrun]
    refine ⟨?_, hlater.error, hlater.holds, ?_⟩
    · rw [Reading.chunks_after, hlater.chunks]
      rfl
    · rw [Reading.reader_after, hlater.chunksRead, List.length_cons]
      show r.chunksRead + 1 + _ = r.chunksRead + (_ + 1)
      omega

/-- Wherever a reader stands, reading on is parsing what it holds and what comes. -/
theorem Sound.run_follows (h : r.Sound) (ht : r.Rested) (hp : r.poisoned = false) (w : Bytes) :
    Follows r (r.run w) (parse r.limits.maxChunkLen (r.held ++ w)) := by
  -- the reader as it was when the window began, which has run over what the window holds
  have hback : ∀ {r₀ : Reader} {got : Bytes}, r₀.run got = ⟨r, [], none⟩ →
      r₀.run (got ++ w) = r.run w := by
    intro r₀ got hgot
    rw [run_append, hgot, if_pos rfl]
    rfl
  have hholds := h.holds_tail ht hp
  have hroom := h.room hp
  rw [Window.space_pos_iff] at hroom
  unfold held
  unfold Reader.tail at hholds ⊢
  cases hphase : r.phase with
  | header =>
    rw [hphase] at hholds
    have hwindow : r.window = r.header := by rw [window, hphase]
    rw [hwindow, h.header] at hroom
    have hbegan : Holds { r with header := r.header.rewind } (.header []) :=
      ⟨hp, hphase, h.header ▸ Window.has_rewind _, ht hp hphase⟩
    have hpart : r.header.filled.reverse.length < 4 := by
      rw [List.length_reverse]
      exact hroom
    have hrun := (run_header_part hbegan hpart).1
    rw [announced, Window.received_rewind] at hrun
    have hagrees := run_agrees r.limits.maxChunkLen (r.header.filled.reverse ++ w) _ hbegan rfl
    rw [hback hrun] at hagrees
    exact ⟨hagrees.chunks, hagrees.error, hagrees.holds, hagrees.chunksRead⟩
  | body n =>
    rw [hphase] at hholds
    have hwindow : r.window = r.body := by rw [window, hphase]
    obtain ⟨hfilled, hsize⟩ := h.between hp n hphase
    rw [hwindow, hsize] at hroom
    have hbegan : Holds { r with body := r.body.rewind } (.body n []) :=
      ⟨hp, hphase, hholds.2.2.1, hsize ▸ Window.has_rewind _⟩
    have hpart : r.body.filled.reverse.length < n := by
      rw [List.length_reverse]
      exact hroom
    have hrun := (run_body_part hbegan hpart).1
    rw [Window.received_rewind] at hrun
    have hfollows := run_follows_of_body hbegan (Nat.zero_lt_of_lt hroom) (hsize ▸ h.body)
      (r.body.filled.reverse ++ w)
    rw [hback hrun, ← List.append_assoc] at hfollows
    exact ⟨hfollows.chunks, hfollows.error, hfollows.holds, hfollows.chunksRead⟩

/-- No byte is lost or read twice. -/
theorem Sound.held_append (h : r.Sound) (ht : r.Rested) (hp : r.poisoned = false) {w : Bytes}
    (hok : (r.run w).error? = none) :
    r.held ++ w = wire (r.run w).chunks ++ (r.run w).reader.held := by
  have hfollows := h.run_follows ht hp w
  rw [hfollows.error] at hok
  rw [hfollows.chunks, hfollows.holds.held_eq hok, Grammar.wire_append_bytes hok]

/-! ## Bytes that go no further than the window -/

/-- A chunk that is delivered leaves the reader between two chunks. -/
theorem Sound.held_of_settle_some (h : r.Sound) (hp : r.poisoned = false) {w : Window} {r' : Reader}
    {chunk : Bytes} (hs : (r.setWindow w).settle = (r', .ok (some chunk))) : r'.held = [] := by
  unfold Reader.settle at hs
  split at hs
  · cases hphase : r.phase with
    | header =>
      rw [setWindow, hphase] at hs
      dsimp only at hs
      rw [openBody_eq] at hs
      split at hs <;> cases hs
    | body n =>
      rw [setWindow, hphase] at hs
      dsimp only [deliverBody] at hs
      cases hs
      show r.header.filled.reverse = []
      rw [(h.between hp n hphase).1]
      rfl
  · cases hs

/-- Only a length prefix that was received whole raises an error. -/
theorem of_settle_error {w : Window} {r' : Reader} {e : FramingError}
    (hs : (r.setWindow w).settle = (r', .error e)) : r.phase = .header ∧ w.space = 0 := by
  unfold settle at hs
  split at hs
  · rename_i hfull
    rw [window_setWindow, Window.isFull_iff] at hfull
    cases hphase : r.phase with
    | header => exact ⟨rfl, hfull⟩
    | body n =>
      rw [setWindow, hphase] at hs
      cases hs
  · cases hs

/-- **Bytes that go no further than the window complete one chunk at most, and then nothing of the next
one was received.** An error is raised right behind a length prefix. -/
theorem Sound.run_within (h : r.Sound) (hp : r.poisoned = false) {bytes : Bytes} (hne : bytes ≠ [])
    (hle : bytes.length ≤ r.space) :
    (r.run bytes).chunks.length ≤ 1 ∧
      ((r.run bytes).chunks ≠ [] → (r.run bytes).reader.held = []) ∧
      ((r.run bytes).error? ≠ none →
        (r.run bytes).chunks = [] ∧ (r.held ++ bytes).length = prefixSize) := by
  have hspace : r.space = r.window.space := by
    rw [space, hp]
    rfl
  rw [hspace] at hle
  have hrun := run_eq_resume hp hne hle []
  rw [List.append_nil] at hrun
  rw [hrun]
  rcases hs : (r.setWindow (r.window.received bytes)).settle with ⟨r', e | _ | chunk⟩
  · refine ⟨Nat.zero_le _, fun hsome => absurd rfl hsome, fun _ => ⟨rfl, ?_⟩⟩
    obtain ⟨hphase, hfull⟩ := of_settle_error hs
    have hwindow : r.window = r.header := by rw [window, hphase]
    have hsize := h.header
    rw [Window.space_received, hwindow] at hfull
    rw [hwindow] at hle
    rw [Window.size] at hsize
    rw [held, Reader.tail, hphase, Grammar.Tail.bytes, List.length_append, List.length_reverse]
    omega
  · exact ⟨Nat.zero_le _, fun hsome => absurd rfl hsome, fun herror => absurd rfl herror⟩
  · exact ⟨Nat.le_refl _, fun _ => h.held_of_settle_some hp hs, fun herror => absurd rfl herror⟩

end Reader

end ChunkRouter.Frame
