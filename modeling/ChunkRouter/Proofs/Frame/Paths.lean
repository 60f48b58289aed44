import ChunkRouter.Proofs.Frame.Delivery

/-!
# Ways to a reader

Bytes reach a reader in one piece or in several, dripping, or by being copied into its target and
reported. `Reader.Sound` is what every reader in use satisfies. On such a reader each way of handing a
part over is running over its bytes, so that no way shows; a report of no bytes to a poisoned reader is
the one that is not.
-/

namespace ChunkRouter.Frame

namespace Window

/-! ## Sizes -/

variable {w v : Window} {bytes : Bytes} {n : Nat}

theorem space_pos_iff : 0 < w.space ↔ w.filled.length < w.size := by
  unfold size
  omega

@[simp] theorem size_rewind (w : Window) : w.rewind.size = w.size := by
  simp only [rewind, size, space, List.length_append, List.length_reverse, List.length_nil]
  omega

@[simp] theorem size_zeros (n : Nat) : (zeros n).size = n := by
  simp [zeros, size, space]

@[simp] theorem size_fill (bytes : Bytes) (w : Window) : (w.fill bytes).size = w.size := by
  have hroom := congrArg List.length (room_fill bytes w)
  simp only [length_room, Bytes.length_overlay] at hroom
  simp only [size, hroom]
  rfl

theorem size_received (h : bytes.length ≤ w.space) : (w.received bytes).size = w.size := by
  simp only [size, filled_received, space_received, List.length_append, List.length_reverse]
  omega

theorem size_advance? (h : w.advance? n = some v) : v.size = w.size := by
  have hle : n ≤ w.space := by
    unfold advance? at h
    split at h
    · assumption
    · cases h
  have hroom := congrArg List.length (room_advance? h)
  simp only [length_room, List.length_drop] at hroom
  simp only [size, filled_advance? h, hroom, List.length_append, List.length_reverse,
    List.length_take, length_room]
  omega

end Window

namespace Reader

/-! ## Readers in use -/

/-- What may be done to a reader. -/
inductive Op where
  | feed (bytes : Bytes)
  | drip (bytes : Bytes) (step : Nat)
  /-- Bytes are copied into the target and not reported. -/
  | fill (bytes : Bytes)
  /-- Bytes are reported, copied or not. -/
  | advance (n : Nat)

/-- The reader after an operation. A step of zero is refused. -/
def operate (r : Reader) : Op → Reader
  | .feed bytes => (r.feed bytes).reader
  | .drip bytes step =>
    match r.drip bytes step with
    | .ok d => d.reader
    | .error _ => r
  | .fill bytes => r.fill bytes
  | .advance n => (r.advance n).1

/-- The windows have the sizes that the phase asks for, and the one that is being filled has room, as
long as the reader is not poisoned. -/
structure Sound (r : Reader) : Prop where
  header : r.header.size = prefixSize
  body : r.body.size ≤ r.limits.maxChunkLen
  room : r.poisoned = false → 0 < r.window.space
  between : r.poisoned = false → ∀ length, r.phase = .body length →
    r.header.filled = [] ∧ r.body.size = length

theorem sound_new (limits : Limits) : (new limits).Sound where
  header := rfl
  body := Nat.zero_le _
  room := fun _ => Nat.zero_lt_of_lt (show 3 < 4 by decide)
  between := fun _ _ h => nomatch h

section

variable {r : Reader} {w : Window} {bytes : Bytes}

theorem sound_poison (h : r.header.size = prefixSize) (hbody : r.body.size ≤ r.limits.maxChunkLen) :
    r.poison.Sound where
  header := h
  body := hbody
  room := fun hp => nomatch hp
  between := fun hp => nomatch hp

theorem sound_openBody (h : r.header.size = prefixSize) (hbody : r.body.size ≤ r.limits.maxChunkLen)
    (length : Nat) : (r.openBody length).1.Sound := by
  have hpoison := sound_poison h hbody
  unfold Reader.openBody
  split
  · exact hpoison
  split
  · exact hpoison
  rename_i hne hle
  have hsize : (if r.body.size == length then r.body.rewind else Window.zeros length).size =
      length := by
    split <;> simp_all
  have hfilled : (if r.body.size == length then r.body.rewind else Window.zeros length).filled =
      [] := by
    split <;> rfl
  refine ⟨by simpa using h, ?_, fun _ => ?_, fun _ n hn => ⟨rfl, ?_⟩⟩
  · show Window.size (if r.body.size == length then _ else _) ≤ r.limits.maxChunkLen
    rw [hsize]
    omega
  · show 0 < Window.space (if r.body.size == length then _ else _)
    rw [Window.space_pos_iff, hsize, hfilled]
    exact Nat.pos_of_ne_zero hne
  · cases hn
    exact hsize

/-- Receiving in the window, and settling it when it is full. -/
theorem Sound.settle (h : r.Sound) (hr : r.poisoned = false) (hw : w.size = r.window.size) :
    (r.setWindow w).settle.1.Sound := by
  have hfull : ¬ w.isFull = true → 0 < w.space := fun hfull =>
    Nat.pos_of_ne_zero fun h0 => hfull ((Window.isFull_iff _).2 h0)
  cases hphase : r.phase with
  | header =>
    have hset : r.setWindow w = { r with header := w } := by rw [setWindow, hphase]
    have hwindow : r.window = r.header := by rw [window, hphase]
    have hsize : w.size = prefixSize := hw.trans (hwindow ▸ h.header)
    unfold Reader.settle
    rw [window_setWindow]
    split
    · have hopen := sound_openBody (r := { r with header := w }) hsize h.body
        (Header.decode w.contents)
      rw [hset]
      simpa only [hphase] using hopen
    · rename_i hnot
      refine ⟨?_, ?_, fun _ => ?_, fun _ length hlength => ?_⟩
      · rw [hset]
        exact hsize
      · rw [hset]
        exact h.body
      · rw [window_setWindow]
        exact hfull hnot
      · rw [hset] at hlength
        cases hphase.symm.trans hlength
  | body length =>
    obtain ⟨hfilled, hlength⟩ := h.between hr length hphase
    have hset : r.setWindow w = { r with body := w } := by rw [setWindow, hphase]
    have hwindow : r.window = r.body := by rw [window, hphase]
    have hsize : w.size = r.body.size := hw.trans (congrArg _ hwindow)
    unfold Reader.settle
    rw [window_setWindow]
    split
    · rw [hset]
      simp only [hphase]
      refine ⟨h.header, ?_, fun _ => ?_, fun _ n hn => nomatch hn⟩
      · show w.rewind.size ≤ r.limits.maxChunkLen
        rw [Window.size_rewind, hsize]
        exact h.body
      · show 0 < r.header.space
        rw [Window.space_pos_iff, hfilled, h.header]
        decide
    · rename_i hnot
      refine ⟨?_, ?_, fun _ => ?_, fun _ n hn => ?_⟩
      · rw [hset]
        exact h.header
      · rw [hset]
        show w.size ≤ r.limits.maxChunkLen
        rw [hsize]
        exact h.body
      · rw [window_setWindow]
        exact hfull hnot
      · rw [hset] at hn ⊢
        cases hphase.symm.trans hn
        exact ⟨hfilled, hsize.trans hlength⟩

theorem Sound.receive (h : r.Sound) (b : UInt8) : (r.receive b).1.Sound := by
  cases hr : r.poisoned with
  | true =>
    simp only [Reader.receive, hr, if_true]
    exact h
  | false =>
    have hpos := h.room hr
    rw [receive_of_space_pos b hr hpos]
    exact h.settle hr (Window.size_received hpos)

theorem Sound.run (h : r.Sound) (bytes : Bytes) : (r.run bytes).reader.Sound := by
  induction bytes generalizing r with
  | nil => exact h
  | cons b bytes ih =>
    have hb := h.receive b
    rw [run_cons]
    rcases hreceive : r.receive b with ⟨r', e | chunk⟩ <;> rw [hreceive] at hb
    · exact hb
    · exact ih hb

theorem Sound.fill (h : r.Sound) (bytes : Bytes) : (r.fill bytes).Sound := by
  unfold Reader.fill
  split
  · exact h
  · rename_i hr
    have hr : r.poisoned = false := Bool.of_not_eq_true hr
    have hsize : (r.window.fill bytes).size = r.window.size := Window.size_fill _ _
    have hroom : 0 < (r.window.fill bytes).space := by
      rw [Window.space_pos_iff, hsize]
      exact Window.space_pos_iff.1 (h.room hr)
    have hsettle := h.settle hr hsize
    rwa [settle_of_space_pos (by simpa using hroom)] at hsettle

theorem Sound.advance (h : r.Sound) (n : Nat) : (r.advance n).1.Sound := by
  unfold Reader.advance
  split
  · exact h
  · rename_i hr
    split
    · exact sound_poison h.header h.body
    · rename_i w hw
      exact h.settle (Bool.of_not_eq_true hr) (Window.size_advance? hw)

theorem Sound.operate (h : r.Sound) (op : Op) : (r.operate op).Sound := by
  cases op with
  | feed bytes =>
    rw [Reader.operate, feed_eq_run]
    exact h.run bytes
  | drip bytes step =>
    rw [Reader.operate, drip]
    by_cases hstep : step = 0
    · rw [if_pos hstep]
      exact h
    · rw [if_neg hstep, delivery_eq_run]
      exact h.run bytes
  | fill bytes => exact h.fill bytes
  | advance n => exact h.advance n

/-- Whatever is done to a sound reader, it stays sound. -/
theorem Sound.foldl (h : r.Sound) (ops : List Op) : (ops.foldl Reader.operate r).Sound := by
  induction ops generalizing r with
  | nil => exact h
  | cons op ops ih => exact ih (h.operate op)

end

/-! ## Handing bytes over -/

/-- One way of handing some bytes over. -/
inductive Part where
  | feed (bytes : Bytes)
  | drip (bytes : Bytes) (step : Nat) (pos : 0 < step)
  /-- The bytes are copied into the target, and their number is reported. -/
  | copy (bytes : Bytes)

def Part.bytes : Part → Bytes
  | .feed bytes => bytes
  | .drip bytes _ _ => bytes
  | .copy bytes => bytes

def Part.isCopy : Part → Bool
  | .copy _ => true
  | _ => false

/-- No more bytes are copied than the target has. -/
def Part.Fits (r : Reader) : Part → Prop
  | .copy bytes => bytes.length ≤ r.target.length
  | _ => True

def hand (r : Reader) : Part → Except Panic Delivery
  | .feed bytes => .ok (r.feed bytes)
  | .drip bytes step _ => r.drip bytes step
  | .copy bytes =>
    match (r.fill bytes).advance bytes.length with
    | (r', .error e) => .ok ⟨r', [], .error e⟩
    | (r', .ok chunk) => .ok ⟨r', chunk.toList, .ok chunk.toList.length⟩

end Reader

/-- One delivery, and another that followed it: the numbers add up unless one is an error. -/
def Delivery.join (d later : Delivery) : Delivery where
  reader := later.reader
  chunks := d.chunks ++ later.chunks
  result :=
    match d.result with
    | .ok n => later.result.map (n + ·)
    | .error e => .error e

namespace Reader

/-- Hand parts over one after another, errors or not. -/
def handAll (r : Reader) : List Part → Except Panic Delivery
  | [] => .ok ⟨r, [], .ok 0⟩
  | p :: parts => do
    let d ← r.hand p
    let later ← d.reader.handAll parts
    return d.join later

/-- The parts hand over `w`: each is what `w` goes on with. What follows an error is left open. -/
def Delivers (r : Reader) (w : Bytes) : List Part → Prop
  | [] => w = []
  | p :: parts =>
    p.Fits r ∧ p.bytes <+: w ∧
      match r.hand p with
      | .ok ⟨r', _, .ok _⟩ => r'.Delivers (w.drop p.bytes.length) parts
      | _ => True

instance (r : Reader) (p : Part) : Decidable (p.Fits r) :=
  match p with
  | .feed _ => isTrue trivial
  | .drip _ _ _ => isTrue trivial
  | .copy bytes => inferInstanceAs (Decidable (bytes.length ≤ r.target.length))

instance decidableDelivers (r : Reader) (w : Bytes) : (parts : List Part) →
    Decidable (r.Delivers w parts)
  | [] => inferInstanceAs (Decidable (w = []))
  | p :: parts =>
    have : Decidable
        (match r.hand p with
          | .ok ⟨r', _, .ok _⟩ => r'.Delivers (w.drop p.bytes.length) parts
          | _ => True) :=
      match r.hand p with
      | .ok ⟨r', _, .ok _⟩ => decidableDelivers r' (w.drop p.bytes.length) parts
      | .ok ⟨_, _, .error _⟩ => isTrue trivial
      | .error _ => isTrue trivial
    inferInstanceAs (Decidable (_ ∧ _ ∧ _))

section

variable {r : Reader} {w : Bytes} {p : Part} {parts : List Part}

/-! ## Errors and poison -/

/-- Settling raises an error just when it poisons the reader. -/
theorem poisoned_settle (hr : r.poisoned = false) :
    r.settle.1.poisoned = true ↔ ∃ e, r.settle.2 = .error e := by
  unfold settle
  split
  · split
    · unfold openBody
      split
      · exact ⟨fun _ => ⟨_, rfl⟩, fun _ => rfl⟩
      split
      · exact ⟨fun _ => ⟨_, rfl⟩, fun _ => rfl⟩
      · simp [hr]
    · simp [deliverBody, hr]
  · simp [hr]

/-- A sound reader that runs over bytes is poisoned just when one of them raised an error. -/
theorem Sound.poisoned_run (h : r.Sound) (hr : r.poisoned = false) (bytes : Bytes) :
    (r.run bytes).reader.poisoned = true ↔ (r.run bytes).error? ≠ none := by
  induction bytes generalizing r with
  | nil => simp [hr]
  | cons b bytes ih =>
    have hsound := h.receive b
    have hsettle := receive_of_space_pos b hr (h.room hr)
    have hpoisoned := poisoned_settle (r := r.setWindow (r.window.received [b])) (by simpa using hr)
    rw [← hsettle] at hpoisoned
    rw [run_cons]
    rcases hreceive : r.receive b with ⟨r', e | chunk⟩ <;>
      rw [hreceive] at hpoisoned hsound
    · have hr' : r'.poisoned = true := hpoisoned.2 ⟨e, rfl⟩
      simpa [resume] using hr'
    · have hr' : r'.poisoned = false := by
        simpa using hpoisoned
      exact ih hsound hr'

theorem run_of_poisoned (hr : r.poisoned = true) (bytes : Bytes) :
    r.run bytes = ⟨r, [], if bytes = [] then none else some .poisoned⟩ := by
  cases bytes with
  | nil => rfl
  | cons b bytes =>
    rw [run_cons, receive, if_pos hr]
    rfl

/-! ## Each way is a run -/

theorem drip_eq_run {step : Nat} (r : Reader) (w : Bytes) (hstep : 0 < step) :
    r.drip w step = .ok (r.run w).delivery := by
  rw [drip, if_neg (Nat.ne_of_gt hstep), delivery_eq_run]

/-- A report of no bytes leaves a sound reader as it is, unless it is poisoned. -/
theorem Sound.hand_copy_nil (h : r.Sound) :
    r.hand (.copy []) = .ok ⟨r, [], if r.poisoned then .error .poisoned else .ok 0⟩ := by
  cases hr : r.poisoned with
  | true => simp [hand, Reader.fill, Reader.advance, hr]
  | false =>
    have hnone : ([] : Bytes).length ≤ r.window.space := Nat.zero_le _
    have hadvance := advance_fill hr hnone
    rw [Window.received_nil, setWindow_window, settle_of_space_pos (h.room hr)] at hadvance
    rw [hand, hadvance]
    rfl

/-- Handing a part over is running over its bytes, if there are any or the reader is not poisoned. -/
theorem Sound.hand_eq_run (h : r.Sound) (hfits : p.Fits r)
    (hsome : p.isCopy = true → r.poisoned = false ∨ p.bytes ≠ []) :
    r.hand p = .ok (r.run p.bytes).delivery := by
  cases p with
  | feed bytes => rw [hand, feed_eq_run, Part.bytes]
  | drip bytes step pos => exact drip_eq_run r bytes pos
  | copy bytes =>
    by_cases hne : bytes = []
    · have hr : r.poisoned = false := (hsome rfl).resolve_right fun hnot => hnot hne
      rw [hne, h.hand_copy_nil, hr]
      rfl
    · have hle : bytes.length ≤ r.space := (length_target r) ▸ hfits
      rw [Part.bytes, run_eq_advance hne hle, hand]
      rcases (r.fill bytes).advance bytes.length with ⟨r', e | chunk⟩ <;> rfl

/-! ## All ways agree -/

/-- Whether handing the part to a poisoned reader raises an error. -/
def Part.raises (p : Part) : Bool := p.isCopy || !p.bytes.isEmpty

/-- A poisoned reader is left as it is, whatever is handed to it. -/
theorem hand_of_poisoned (hr : r.poisoned = true) (p : Part) :
    r.hand p = .ok ⟨r, [], if p.raises then .error .poisoned else .ok 0⟩ := by
  have hrun : ∀ bytes, (r.run bytes).delivery =
      ⟨r, [], if (!bytes.isEmpty) = true then .error .poisoned else .ok 0⟩ := by
    intro bytes
    rw [run_of_poisoned hr]
    cases bytes <;> rfl
  cases p with
  | feed bytes => rw [hand, feed_eq_run, hrun]; rfl
  | drip bytes step pos => rw [hand, drip_eq_run r bytes pos, hrun]; rfl
  | copy bytes => simp [hand, Reader.fill, Reader.advance, hr, Part.raises, Part.isCopy]

theorem handAll_of_poisoned (hr : r.poisoned = true) (parts : List Part) :
    r.handAll parts = .ok ⟨r, [], if parts.any Part.raises then .error .poisoned else .ok 0⟩ := by
  induction parts with
  | nil => rfl
  | cons p parts ih =>
    rw [handAll, hand_of_poisoned hr]
    simp only [bind, Except.bind, ih, pure, Except.pure, Delivery.join, List.any_cons]
    by_cases hp : p.raises = true
    · simp [hp]
    · by_cases hparts : parts.any Part.raises = true <;> simp [hp, hparts, Except.map]

/-- Bytes handed to a poisoned reader, and reports of no bytes, raise an error. -/
theorem any_raises (hr : r.poisoned = true) (h : r.Delivers w parts) :
    parts.any Part.raises = (parts.any Part.isCopy || !w.isEmpty) := by
  induction parts generalizing w with
  | nil =>
    cases h
    rfl
  | cons p parts ih =>
    obtain ⟨-, ⟨rest, rfl⟩, hrest⟩ := h
    rw [hand_of_poisoned hr, List.drop_left] at hrest
    rw [List.any_cons, List.any_cons]
    cases hraises : p.raises with
    | true =>
      unfold Part.raises at hraises
      cases hcopy : p.isCopy <;> cases hbytes : p.bytes <;> simp_all
    | false =>
      obtain ⟨hcopy, hbytes⟩ : p.isCopy = false ∧ p.bytes = [] := by
        simpa [Part.raises] using hraises
      rw [hraises] at hrest
      rw [ih hrest, hcopy, hbytes]
      rfl

/-- What comes of bytes, and then of further ones unless there was an error. -/
theorem join_run (v w : Bytes) (hnone : (r.run v).error? = none) :
    (r.run v).delivery.join ((r.run v).reader.run w).delivery = (r.run (v ++ w)).delivery := by
  rw [run_append, if_pos hnone]
  simp only [Delivery.join, Reading.delivery, hnone, Reading.reader_after, Reading.chunks_after,
    Reading.error?_after, List.length_append]
  cases ((r.run v).reader.run w).error? <;> rfl

/-- On a sound reader that is not poisoned every way of handing bytes over is running over them. -/
theorem Sound.handAll_eq_run (h : r.Sound) (hr : r.poisoned = false) (hd : r.Delivers w parts) :
    r.handAll parts = .ok (r.run w).delivery := by
  induction parts generalizing r w with
  | nil =>
    cases hd
    rfl
  | cons p parts ih =>
    obtain ⟨hfits, ⟨rest, rfl⟩, hrest⟩ := hd
    have hhand := h.hand_eq_run hfits fun _ => .inl hr
    rw [hhand, List.drop_left] at hrest
    have hpoisoned := h.poisoned_run hr p.bytes
    rw [handAll, hhand]
    simp only [bind, Except.bind, pure, Except.pure]
    cases herror : (r.run p.bytes).error? with
    | none =>
      have hr' : (r.run p.bytes).reader.poisoned = false := by simpa [herror] using hpoisoned
      simp only [Reading.delivery, herror] at hrest
      rw [show (r.run p.bytes).delivery.reader = (r.run p.bytes).reader from rfl,
        ih (h.run p.bytes) hr' hrest]
      exact congrArg _ (join_run _ _ herror)
    | some e =>
      have hr' : (r.run p.bytes).reader.poisoned = true := by simpa [herror] using hpoisoned
      rw [show (r.run p.bytes).delivery.reader = (r.run p.bytes).reader from rfl,
        handAll_of_poisoned hr', run_append_of_error rest (herror ▸ Option.some_ne_none e)]
      simp [Delivery.join, Reading.delivery, herror]

/-- **The way does not show.** Whatever was done to a reader before, however bytes are handed to it, in
parts that are fed, dripped, or copied into the target and reported: the reader afterwards and the
chunks are those of feeding the bytes at once, and so is the number of chunks or the first error. Only
where there are no bytes and the reader is poisoned does reporting none of them raise an error. -/
theorem handAll_agrees_feed (limits : Limits) (ops : List Op) (w : Bytes) (parts : List Part)
    (hd : (ops.foldl operate (new limits)).Delivers w parts) :
    let r := ops.foldl operate (new limits)
    ∃ d, r.handAll parts = .ok d ∧ d.reader = (r.feed w).reader ∧ d.chunks = (r.feed w).chunks ∧
      d.result =
        if r.poisoned = true ∧ w = [] ∧ parts.any Part.isCopy = true then .error .poisoned
        else (r.feed w).result := by
  intro r
  have hsound : r.Sound := (sound_new limits).foldl ops
  cases hr : r.poisoned with
  | false =>
    refine ⟨(r.run w).delivery, hsound.handAll_eq_run hr hd, ?_⟩
    simp [feed_eq_run]
  | true =>
    refine ⟨_, handAll_of_poisoned hr parts, ?_⟩
    rw [any_raises hr hd, feed_eq_run, run_of_poisoned hr]
    cases w with
    | nil => cases hcopy : parts.any Part.isCopy <;> simp [Reading.delivery]
    | cons b w => simp [Reading.delivery]

/-- Three bytes and a chunk, on a reader whose target still shows old bytes: two are copied, none are
fed, the rest drips. -/
theorem handAll_agrees_feed_mixed :
    let ops := [Op.feed [0, 0, 0, 1, 5], .fill [9, 9, 9], .drip [0] 3, .advance 0]
    let parts := [Part.copy [0, 0], .feed [], .drip [2, 7, 8, 0] 3 (by decide), .copy []]
    let r := ops.foldl operate (new .standard)
    r.Delivers [0, 0, 2, 7, 8, 0] parts ∧
      ∃ d, r.handAll parts = .ok d ∧ d.reader = (r.feed [0, 0, 2, 7, 8, 0]).reader ∧
        d.chunks = [[7, 8]] ∧ d.result = (r.feed [0, 0, 2, 7, 8, 0]).result := by
  intro ops parts r
  have hd : r.Delivers [0, 0, 2, 7, 8, 0] parts := by decide +kernel
  obtain ⟨d, hall, hreader, hchunks, hresult⟩ := handAll_agrees_feed .standard ops _ parts hd
  exact ⟨hd, d, hall, hreader, hchunks.trans (by decide +kernel), hresult.trans (if_neg (by simp))⟩

/-- A report of no bytes is an error to a poisoned reader, feeding it none is not. -/
theorem not_handAll_agrees_feed :
    ¬ ∀ (limits : Limits) (ops : List Op) (w : Bytes) (parts : List Part),
      (ops.foldl operate (new limits)).Delivers w parts →
        ∃ d, (ops.foldl operate (new limits)).handAll parts = .ok d ∧
          d.result = ((ops.foldl operate (new limits)).feed w).result := by
  intro h
  obtain ⟨d, hall, hresult⟩ := h .standard [.feed [0, 0, 0, 0]] [] [.copy []] (by decide +kernel)
  rw [handAll_of_poisoned (by decide +kernel)] at hall
  rw [feed_eq_run] at hresult
  cases hall
  cases hresult

end

end Reader

end ChunkRouter.Frame
