import ChunkRouter.Proofs.Frame.Poisoning

/-!
# Readers in memory

In memory a reader is two buffers and an offset into the one that is being filled. `Layout` is that reader,
and its operations check what they do: a slice out of the range of its buffer, a difference below zero, and
a round of a loop that takes nothing and would be repeated for ever are panics. `layout_keeps_bounds` says
which states there are, and that no check fails in any of them.
-/

namespace ChunkRouter.Frame

/-- A buffer was sliced beyond its range. -/
def sliceOutOfRange : Panic := ⟨"range out of bounds"⟩

def belowZero : Panic := ⟨"attempt to subtract with overflow"⟩

/-- A round took nothing, and every later one would take nothing either. -/
def endlessLoop : Panic := ⟨"a round took no bytes"⟩

/-- The bytes of a buffer from `low` up to but not including `high`. -/
def slice (buffer : Bytes) (low high : Nat) : Except Panic Bytes :=
  if low ≤ high ∧ high ≤ buffer.length then .ok ((buffer.take high).drop low) else .error sliceOutOfRange

def difference (a b : Nat) : Except Panic Nat := if b ≤ a then .ok (a - b) else .error belowZero

theorem slice_eq_ok {buffer : Bytes} {low high : Nat} (hlow : low ≤ high) (hhigh : high ≤ buffer.length) :
    slice buffer low high = .ok ((buffer.take high).drop low) := if_pos ⟨hlow, hhigh⟩

theorem difference_eq_ok {a b : Nat} (h : b ≤ a) : difference a b = .ok (a - b) := if_pos h

/-- A reader as it lies in memory. -/
structure Layout where
  limits : Limits
  phase : Phase
  header : Bytes
  body : Bytes
  /-- How many bytes of the buffer in use were received. -/
  offset : Nat
  poisoned : Bool
  chunksRead : Nat
  buffersReused : Nat
  meter : Meter

namespace Layout

/-- A reader that nothing was done to. -/
def new (limits : Limits) : Layout where
  limits := limits
  phase := .header
  header := Bytes.zeros prefixSize
  body := []
  offset := 0
  poisoned := false
  chunksRead := 0
  buffersReused := 0
  meter := .empty

/-! ## Checked operations -/

/-- The bytes that the transport may overwrite next. -/
def target (s : Layout) : Except Panic Bytes :=
  if s.poisoned then .ok []
  else
    match s.phase with
    | .header => slice s.header s.offset s.header.length
    | .body length => slice s.body s.offset length

/-- How many bytes are missing. -/
def remaining (s : Layout) : Except Panic Nat :=
  match s.phase with
  | .header => difference prefixSize s.offset
  | .body length => difference length s.offset

/-- Bytes laid over a buffer from `offset` on. -/
def overwrite (offset : Nat) (bytes buffer : Bytes) : Bytes :=
  buffer.take offset ++ (bytes ++ buffer.drop (offset + bytes.length))

theorem overwrite_nil (offset : Nat) (buffer : Bytes) : overwrite offset [] buffer = buffer :=
  List.take_append_drop offset buffer

/-- The buffer that is being filled. -/
def buffer (s : Layout) : Bytes :=
  match s.phase with
  | .header => s.header
  | .body _ => s.body

def setBuffer (s : Layout) (buffer : Bytes) : Layout :=
  match s.phase with
  | .header => { s with header := buffer }
  | .body _ => { s with body := buffer }

theorem setBuffer_buffer (s : Layout) : s.setBuffer s.buffer = s := by
  unfold setBuffer buffer
  rcases s with ⟨limits, _ | length⟩ <;> rfl

/-- Copy the first `n` of `bytes` to the front of the target. -/
def copy (s : Layout) (n : Nat) (bytes : Bytes) : Except Panic Layout := do
  let _ ← slice (← s.target) 0 n
  let source ← slice bytes 0 n
  return s.setBuffer (overwrite s.offset source s.buffer)

def poison (s : Layout) : Layout := { s with poisoned := true, meter := s.meter.bump .framingErrors }

def openBody (s : Layout) (length : Nat) : Layout × Except FramingError (Option Bytes) :=
  if length = 0 then (s.poison, .error .empty)
  else if s.limits.maxChunkLen < length then
    (s.poison, .error (.oversized length s.limits.maxChunkLen))
  else
    let kept := s.body.length == length
    ({ s with
        phase := .body length
        body := if kept then s.body else Bytes.zeros length
        offset := 0
        buffersReused := if kept then s.buffersReused + 1 else s.buffersReused },
      .ok none)

/-- Act on the buffer in use if it is full. -/
def settle (s : Layout) : Except Panic (Layout × Except FramingError (Option Bytes)) :=
  match s.phase with
  | .header =>
    if s.offset = prefixSize then .ok (s.openBody (Header.decode s.header)) else .ok (s, .ok none)
  | .body length =>
    if s.offset = length then do
      let chunk ← slice s.body 0 length
      return ({ s with
          phase := .header
          offset := 0
          chunksRead := s.chunksRead + 1
          meter := s.meter.bump (.chunks .inbound) },
        .ok (some chunk))
    else .ok (s, .ok none)

/-- The transport wrote `n` bytes. -/
def advance (s : Layout) (n : Nat) : Except Panic (Layout × Except FramingError (Option Bytes)) :=
  if s.poisoned then .ok (s, .error .poisoned)
  else do
    let available ← s.remaining
    if available < n then return (s.poison, .error (.overrun n available))
    else settle { s with offset := s.offset + n }

/-- One round of handing bytes over: as many of them as the target takes, and `most` at most, are copied
into it and reported. The others come back. -/
def round (s : Layout) (most : Nat) (bytes : Bytes) :
    Except Panic (Layout × Except FramingError (Option Bytes) × Bytes) := do
  let n := min (← s.target).length (min most bytes.length)
  let (s, answer) ← (← s.copy n bytes).advance n
  return (s, answer, ← slice bytes n bytes.length)

/-- Hand bytes over in rounds, up to the first error; the chunks that were delivered come back. A loop that
looks at the target stops at an empty one. -/
def handOver (looks : Bool) (most : Nat) (s : Layout) (bytes : Bytes) :
    Except Panic (Layout × List Bytes × Option FramingError) :=
  if bytes = [] then .ok (s, [], none)
  else
    match s.target with
    | .error panic => .error panic
    | .ok target =>
      if looks = true ∧ target = [] then .ok (s, [], some .poisoned)
      else
        match s.round most bytes with
        | .error panic => .error panic
        | .ok (s', .error e, _) => .ok (s', [], some e)
        | .ok (s', .ok chunk, rest) =>
          if rest.length < bytes.length then
            (handOver looks most s' rest).map fun (s'', chunks, e?) => (s'', chunk.toList ++ chunks, e?)
          else .error endlessLoop
termination_by bytes.length

/-- What handing bytes over is answered with. -/
def summary (handed : Layout × List Bytes × Option FramingError) :
    Layout × List Bytes × Except FramingError Nat :=
  match handed with
  | (s, chunks, none) => (s, chunks, .ok chunks.length)
  | (s, chunks, some e) => (s, chunks, .error e)

/-- An operation on a reader in memory: the chunks that the listener is given, and the answer. -/
def attempt (s : Layout) : Reader.Op → Except Panic (Layout × List Bytes × Except FramingError Nat)
  | .feed bytes => (s.handOver true bytes.length bytes).map summary
  | .drip bytes step =>
    if step = 0 then .error .zeroStep else (s.handOver false step bytes).map summary
  | .fill bytes => do
    let n := min (← s.target).length bytes.length
    return (← s.copy n bytes, [], .ok 0)
  | .advance n => do
    match ← s.advance n with
    | (s, .ok chunk) => return (s, chunk.toList, .ok chunk.toList.length)
    | (s, .error e) => return (s, [], .error e)

/-- The reader after an operation; a caller that panics leaves it as it is. -/
def operate (s : Layout) (op : Reader.Op) : Layout :=
  match s.attempt op with
  | .ok (s', _) => s'
  | .error _ => s

end Layout

/-! ## Windows and buffers -/

namespace Window

variable {w v : Window} {n : Nat}

theorem filled_rewind (w : Window) : w.rewind.filled = [] := rfl

theorem filled_zeros (n : Nat) : (zeros n).filled = [] := rfl

theorem take_contents (w : Window) : w.contents.take w.filled.length = w.filled.reverse :=
  List.take_left' (List.length_reverse)

theorem drop_contents (w : Window) (n : Nat) :
    w.contents.drop (w.filled.length + n) = w.room.drop n := by
  rw [contents, ← List.length_reverse, List.drop_append]
  simp

theorem contents_fill (bytes : Bytes) (w : Window) :
    (w.fill bytes).contents =
      Layout.overwrite w.filled.length (bytes.take w.space) w.contents := by
  rw [contents, room_fill, Layout.overwrite, take_contents, drop_contents, Bytes.overlay, length_room]
  rfl

/-- Bytes that there is no room for are not looked at. -/
theorem fill_take (w : Window) (bytes : Bytes) : w.fill (bytes.take w.space) = w.fill bytes := by
  have hstale : w.stale.drop (min w.space bytes.length) = w.stale.drop bytes.length := by
    by_cases hle : bytes.length ≤ w.space
    · rw [Nat.min_eq_right hle]
    · have hspace : w.stale.length ≤ w.space := Nat.le_add_right _ _
      rw [List.drop_eq_nil_of_le (by omega), List.drop_eq_nil_of_le (by omega)]
  have hblank : w.blank - (min w.space bytes.length - w.stale.length) =
      w.blank - (bytes.length - w.stale.length) := by
    unfold space
    omega
  rw [fill, fill, List.length_take, List.take_take, Nat.min_self, hstale, hblank]

theorem contents_advance? (h : w.advance? n = some v) : v.contents = w.contents := by
  rw [contents, contents, filled_advance? h, room_advance? h, List.reverse_append, List.reverse_reverse,
    List.append_assoc, List.take_append_drop]

theorem le_space_of_advance? (h : w.advance? n = some v) : n ≤ w.space := by
  refine Nat.le_of_not_lt fun hlt => ?_
  rw [advance?_eq_none_iff.2 hlt] at h
  cases h

theorem length_filled_advance? (h : w.advance? n = some v) :
    v.filled.length = w.filled.length + n := by
  have hle : n ≤ w.room.length := by
    rw [length_room]
    exact le_space_of_advance? h
  rw [filled_advance? h, List.length_append, List.length_reverse, List.length_take_of_le hle, Nat.add_comm]

theorem isFull_iff_length {size : Nat} (h : w.size = size) :
    w.isFull = true ↔ w.filled.length = size := by
  rw [isFull_iff, ← h, Window.size]
  omega

end Window

/-! ## The layout of a reader -/

namespace Reader

/-- The reader in memory. -/
def layout (r : Reader) : Layout where
  limits := r.limits
  phase := r.phase
  header := r.header.contents
  body := r.body.contents
  offset := r.buffered
  poisoned := r.poisoned
  chunksRead := r.chunksRead
  buffersReused := r.buffersReused
  meter := r.meter

variable {r : Reader} {n : Nat}

theorem slice_contents {w : Window} {size : Nat} (h : w.size = size) :
    slice w.contents w.filled.length size = .ok w.room := by
  have hlow : w.filled.length ≤ size := h ▸ Nat.le_add_right _ _
  have hhigh : size = w.contents.length := h.symm.trans w.length_contents.symm
  have hdrop := w.drop_contents 0
  rw [Nat.add_zero, List.drop_zero] at hdrop
  rw [slice_eq_ok hlow (Nat.le_of_eq hhigh), hhigh, List.take_length, hdrop]

theorem Sound.layout_target (h : r.Sound) : r.layout.target = .ok r.target := by
  obtain ⟨limits, phase, header, body, _ | _, read, reused, meter⟩ := r
  · cases phase with
    | header => exact slice_contents header.length_contents.symm
    | body length => exact slice_contents (h.between rfl length rfl).2
  · rfl

theorem difference_size {w : Window} {size : Nat} (h : w.size = size) :
    difference size w.filled.length = .ok w.space := by
  rw [← h, Window.size, difference_eq_ok (Nat.le_add_right _ _), Nat.add_sub_cancel_left]

/-- What is missing is what there is room for. -/
theorem Sound.layout_remaining (h : r.Sound) (hr : r.poisoned = false) :
    r.layout.remaining = .ok r.window.space := by
  obtain ⟨limits, _ | length, header, body, poisoned, read, reused, meter⟩ := r
  · exact difference_size h.header
  · exact difference_size (h.between hr length rfl).2

theorem layout_buffer (r : Reader) : r.layout.buffer = r.window.contents := by
  unfold Layout.buffer window
  rcases r with ⟨limits, _ | length⟩ <;> rfl

theorem layout_setWindow (r : Reader) (w : Window) :
    (r.setWindow w).layout = { r.layout.setBuffer w.contents with offset := w.filled.length } := by
  unfold Layout.setBuffer setWindow
  rcases r with ⟨limits, _ | length⟩ <;> rfl

/-- Nothing more was received in the window. -/
theorem layout_setWindow_of_length {w : Window} (h : w.filled.length = r.window.filled.length) :
    (r.setWindow w).layout = r.layout.setBuffer w.contents := by
  rw [layout_setWindow, h]
  unfold Layout.setBuffer
  rcases r with ⟨limits, _ | length⟩ <;> rfl

/-- Copying bytes overwrites the front of the target, and reads no byte that there is not. -/
theorem Sound.layout_copy (h : r.Sound) {bytes : Bytes} (hn : n ≤ r.target.length)
    (hbytes : n ≤ bytes.length) : r.layout.copy n bytes = .ok (r.fill (bytes.take n)).layout := by
  have htake : (bytes.take n).length = n := List.length_take_of_le hbytes
  have hsource : slice bytes 0 n = .ok (bytes.take n) := by
    rw [slice_eq_ok (Nat.zero_le _) hbytes, List.drop_zero]
  rw [Layout.copy, h.layout_target]
  show (slice r.target 0 n >>= _) = _
  rw [slice_eq_ok (Nat.zero_le _) hn]
  show (slice bytes 0 n >>= _) = _
  rw [hsource]
  refine congrArg Except.ok ?_
  show r.layout.setBuffer (Layout.overwrite r.window.filled.length (bytes.take n) r.layout.buffer) = _
  by_cases hp : r.poisoned = true
  · -- the target of a poisoned reader is empty, and nothing is copied
    rw [target, if_pos hp] at hn
    cases Nat.le_zero.1 hn
    rw [List.take_zero, Layout.overwrite_nil, Layout.setBuffer_buffer, Reader.fill, if_pos hp]
  · rw [length_target, space, if_neg hp] at hn
    have hfit : (bytes.take n).take r.window.space = bytes.take n :=
      List.take_of_length_le (htake.symm ▸ hn)
    have hlength : (r.window.fill (bytes.take n)).filled.length = r.window.filled.length := rfl
    rw [Reader.fill, if_neg hp, layout_setWindow_of_length hlength, Window.contents_fill, hfit,
      layout_buffer]

/-! ## Settling -/

theorem layout_openBody (r : Reader) (length : Nat) :
    r.layout.openBody length = ((r.openBody length).1.layout, (r.openBody length).2) := by
  have hlimits : r.layout.limits = r.limits := rfl
  have hbody : r.layout.body.length = r.body.size := r.body.length_contents
  unfold Layout.openBody openBody
  rw [hlimits, hbody]
  by_cases h0 : length = 0
  · rw [if_pos h0, if_pos h0]
    rfl
  by_cases hmax : r.limits.maxChunkLen < length
  · rw [if_neg h0, if_neg h0, if_pos hmax, if_pos hmax]
    rfl
  rw [if_neg h0, if_neg h0, if_neg hmax, if_neg hmax]
  cases r.body.size == length with
  | true => simp [layout, buffered, window, Window.filled_rewind]
  | false => simp [layout, buffered, window, Window.filled_zeros]

/-- Handing the body over is reading its buffer out and expecting the next header. -/
theorem layout_deliverBody (hheader : r.header.filled = []) :
    { r.layout with
        phase := .header
        offset := 0
        chunksRead := r.layout.chunksRead + 1
        meter := r.layout.meter.bump (.chunks .inbound) } = r.deliverBody.1.layout := by
  simp [layout, deliverBody, buffered, window, hheader]

/-- Settling a window is settling its buffer. -/
theorem layout_settle (hheader : r.header.size = prefixSize)
    (hbody : ∀ length, r.phase = .body length → r.header.filled = [] ∧ r.body.size = length) :
    r.layout.settle = .ok (r.settle.1.layout, r.settle.2) := by
  have hlayout : r.layout.phase = r.phase := rfl
  unfold Layout.settle settle
  rw [hlayout]
  cases hphase : r.phase with
  | header =>
    have hwindow : r.window = r.header := by rw [window, hphase]
    have hoffset : r.layout.offset = r.header.filled.length := congrArg (·.filled.length) hwindow
    rw [hwindow]
    by_cases hdone : r.header.filled.length = prefixSize
    · rw [if_pos ((Window.isFull_iff_length hheader).2 hdone)]
      show (if r.layout.offset = prefixSize then _ else _) = _
      rw [hoffset, if_pos hdone]
      exact congrArg Except.ok (layout_openBody _ _)
    · rw [if_neg (mt (Window.isFull_iff_length hheader).1 hdone)]
      show (if r.layout.offset = prefixSize then _ else _) = _
      rw [hoffset, if_neg hdone]
  | body length =>
    obtain ⟨hfilled, hsize⟩ := hbody length hphase
    have hwindow : r.window = r.body := by rw [window, hphase]
    have hoffset : r.layout.offset = r.body.filled.length := congrArg (·.filled.length) hwindow
    rw [hwindow]
    by_cases hdone : r.body.filled.length = length
    · have hlength : r.body.contents.length = length := r.body.length_contents.trans hsize
      have hslice : slice r.layout.body 0 length = .ok r.body.contents := by
        have htake : r.body.contents.take length = r.body.contents := by
          rw [← hlength, List.take_length]
        exact (slice_eq_ok (Nat.zero_le _) (Nat.le_of_eq hlength.symm)).trans (congrArg Except.ok htake)
      rw [if_pos ((Window.isFull_iff_length hsize).2 hdone)]
      show (if r.layout.offset = length then _ else _) = _
      rw [hoffset, if_pos hdone, hslice, ← layout_deliverBody hfilled]
      rfl
    · rw [if_neg (mt (Window.isFull_iff_length hsize).1 hdone)]
      show (if r.layout.offset = length then _ else _) = _
      rw [hoffset, if_neg hdone]

/-- Counting bytes as received moves the offset. -/
theorem layout_setWindow_advance? {w : Window} (h : r.window.advance? n = some w) :
    (r.setWindow w).layout = { r.layout with offset := r.layout.offset + n } := by
  rw [layout_setWindow, Window.contents_advance? h, Window.length_filled_advance? h, ← layout_buffer,
    Layout.setBuffer_buffer]
  rfl

/-- Another window of the same size may be filled. -/
theorem Sound.sizes_setWindow (h : r.Sound) (hr : r.poisoned = false) {w : Window}
    (hw : w.size = r.window.size) :
    (r.setWindow w).header.size = prefixSize ∧
      ∀ length, (r.setWindow w).phase = .body length →
        (r.setWindow w).header.filled = [] ∧ (r.setWindow w).body.size = length := by
  obtain ⟨limits, _ | length, header, body, poisoned, read, reused, meter⟩ := r
  · exact ⟨hw.trans h.header, fun length hphase => nomatch hphase⟩
  · refine ⟨h.header, fun n hphase => ?_⟩
    obtain ⟨hfilled, hsize⟩ := h.between hr n hphase
    exact ⟨hfilled, hw.trans hsize⟩

theorem Sound.layout_advance (h : r.Sound) (n : Nat) :
    r.layout.advance n = .ok ((r.advance n).1.layout, (r.advance n).2) := by
  by_cases hp : r.poisoned = true
  · rw [Layout.advance, Reader.advance, if_pos hp, if_pos (show r.layout.poisoned = true from hp)]
  have hr : r.poisoned = false := Bool.of_not_eq_true hp
  rw [Layout.advance, if_neg (show ¬ r.layout.poisoned = true from hp), h.layout_remaining hr]
  show (if r.window.space < n then _ else _) = _
  cases hw : r.window.advance? n with
  | none =>
    have hadvance : r.advance n = (r.poison, .error (.overrun n r.window.space)) := by
      rw [Reader.advance, if_neg hp, hw]
    rw [if_pos (Window.advance?_eq_none_iff.1 hw), hadvance]
    rfl
  | some w =>
    have hadvance : r.advance n = (r.setWindow w).settle := by rw [Reader.advance, if_neg hp, hw]
    rw [if_neg (Nat.not_lt.2 (Window.le_space_of_advance? hw)), ← layout_setWindow_advance? hw, hadvance]
    obtain ⟨hheader, hbody⟩ := h.sizes_setWindow hr (Window.size_advance? hw)
    exact layout_settle hheader hbody

/-! ## Handing bytes over -/

theorem length_target_of_not_poisoned (hr : r.poisoned = false) : r.target.length = r.window.space := by
  rw [length_target, space, hr]
  rfl

/-- How many bytes a round takes. -/
def portion (r : Reader) (most : Nat) (bytes : Bytes) : Nat := min r.target.length (min most bytes.length)

theorem portion_le (r : Reader) (most : Nat) (bytes : Bytes) : r.portion most bytes ≤ bytes.length :=
  Nat.le_trans (Nat.min_le_right _ _) (Nat.min_le_right _ _)

/-- A round copies a portion of the bytes and reports it. -/
theorem Sound.layout_round (h : r.Sound) (most : Nat) (bytes : Bytes) :
    let n := r.portion most bytes
    let advanced := (r.fill (bytes.take n)).advance n
    r.layout.round most bytes = .ok (advanced.1.layout, advanced.2, bytes.drop n) := by
  intro n advanced
  have hbytes : n ≤ bytes.length := r.portion_le most bytes
  have hrest : slice bytes n bytes.length = .ok (bytes.drop n) := by
    rw [slice_eq_ok hbytes (Nat.le_refl _), List.take_length]
  rw [Layout.round, h.layout_target]
  show (r.layout.copy n bytes >>= _) = _
  rw [h.layout_copy (n := n) (Nat.min_le_left _ _) hbytes]
  show ((r.fill (bytes.take n)).layout.advance n >>= _) = _
  rw [(h.fill _).layout_advance]
  show (slice bytes n bytes.length >>= _) = _
  rw [hrest]
  rfl

/-- The target is empty just when the reader is poisoned. -/
theorem Sound.target_eq_nil_iff (h : r.Sound) : r.target = [] ↔ r.poisoned = true := by
  rw [← List.length_eq_zero_iff, length_target, space]
  cases hr : r.poisoned with
  | true => simp
  | false => simpa using Nat.ne_of_gt (h.room hr)

/-- A round takes at least one byte. -/
theorem Sound.portion_pos (h : r.Sound) (hr : r.poisoned = false) {most : Nat} (hmost : 0 < most)
    {bytes : Bytes} (hne : bytes ≠ []) : 0 < r.portion most bytes := by
  have htarget : 0 < r.target.length := length_target_of_not_poisoned hr ▸ h.room hr
  have hbytes : 0 < bytes.length := List.length_pos_iff.2 hne
  unfold portion
  omega

/-- Bytes that the target has no room for are not looked at. -/
theorem fill_take (r : Reader) (bytes : Bytes) :
    r.fill (bytes.take (min r.target.length bytes.length)) = r.fill bytes := by
  unfold fill
  split
  · rfl
  · rename_i hp
    rw [length_target, space, if_neg hp, ← List.take_eq_take_min, Window.fill_take]

/-- Running over bytes begins with a round. -/
theorem Sound.run_eq_resume_round (h : r.Sound) (hr : r.poisoned = false) {most : Nat} (hmost : 0 < most)
    {bytes : Bytes} (hne : bytes ≠ []) :
    let n := r.portion most bytes
    r.run bytes = resume ((r.fill (bytes.take n)).advance n) (bytes.drop n) := by
  intro n
  have hpos : 0 < n := h.portion_pos hr hmost hne
  have hspace : n ≤ r.window.space := length_target_of_not_poisoned hr ▸ Nat.min_le_left _ _
  have htake : (bytes.take n).length = n := List.length_take_of_le (r.portion_le most bytes)
  have hsome : bytes.take n ≠ [] := List.length_pos_iff.1 (htake.symm ▸ hpos)
  have hrun := run_eq_resume hr hsome (htake.symm ▸ hspace) (bytes.drop n)
  rwa [← advance_fill hr (htake.symm ▸ hspace), htake, List.take_append_drop] at hrun

/-- Handing bytes over in rounds is running over them. -/
theorem Sound.layout_handOver (h : r.Sound) (looks : Bool) {most : Nat} {bytes : Bytes}
    (hmost : bytes ≠ [] → 0 < most) :
    r.layout.handOver looks most bytes =
      .ok ((r.run bytes).reader.layout, (r.run bytes).chunks, (r.run bytes).error?) := by
  induction hlen : bytes.length using Nat.strongRecOn generalizing r bytes with
  | ind size ih =>
  rw [Layout.handOver]
  by_cases hne : bytes = []
  · rw [if_pos hne, hne]
    rfl
  rw [if_neg hne, h.layout_target]
  show (if looks = true ∧ r.target = [] then _ else _) = _
  cases hr : r.poisoned with
  | true =>
    have htarget : r.target = [] := h.target_eq_nil_iff.2 hr
    rw [run_of_poisoned hr, if_neg hne]
    cases looks with
    | true => rw [if_pos ⟨rfl, htarget⟩]
    | false =>
      have hadvance : (r.fill (bytes.take (r.portion most bytes))).advance (r.portion most bytes) =
          (r, .error .poisoned) := by
        rw [Reader.fill, if_pos hr, Reader.advance, if_pos hr]
      have hlooks : ¬ (false = true ∧ r.target = []) := by
        rintro ⟨hlooks, -⟩
        cases hlooks
      rw [if_neg hlooks, h.layout_round, hadvance]
  | false =>
    have htarget : ¬ (looks = true ∧ r.target = []) := fun hlooks => by
      rw [h.target_eq_nil_iff.1 hlooks.2] at hr
      cases hr
    have hpos := h.portion_pos hr (hmost hne) hne
    have hadvanced := (h.fill (bytes.take (r.portion most bytes))).advance (r.portion most bytes)
    rw [if_neg htarget, h.layout_round, h.run_eq_resume_round hr (hmost hne) hne]
    rcases hround : (r.fill (bytes.take (r.portion most bytes))).advance (r.portion most bytes)
      with ⟨r', e | chunk⟩
    · rfl
    · rw [hround] at hadvanced
      have hless : (bytes.drop (r.portion most bytes)).length < bytes.length := by
        rw [List.length_drop]
        have hlength := List.length_pos_iff.2 hne
        omega
      have hrest := ih _ (hlen ▸ hless) hadvanced (fun _ => hmost hne) rfl
      show (if _ < _ then _ else _) = _
      rw [if_pos hless, hrest]
      rfl

/-- An operation on a sound reader in memory is the operation on the reader. -/
theorem Sound.layout_attempt (h : r.Sound) (op : Op) :
    r.layout.attempt op = (r.outcome op).map fun answer => ((r.operate op).layout, answer) := by
  have hsummary : ∀ bytes : Bytes,
      Layout.summary ((r.run bytes).reader.layout, (r.run bytes).chunks, (r.run bytes).error?) =
        ((r.run bytes).delivery.reader.layout, (r.run bytes).delivery.chunks,
          (r.run bytes).delivery.result) := by
    intro bytes
    rcases r.run bytes with ⟨r', chunks, _ | e⟩ <;> rfl
  cases op with
  | feed bytes =>
    rw [Layout.attempt, h.layout_handOver true List.length_pos_iff.2, outcome, Reader.operate,
      feed_eq_run]
    exact congrArg Except.ok (hsummary bytes)
  | drip bytes step =>
    rw [Layout.attempt, outcome, Reader.operate, drip]
    by_cases hstep : step = 0
    · rw [if_pos hstep, if_pos hstep]
      rfl
    · rw [if_neg hstep, if_neg hstep, h.layout_handOver false fun _ => Nat.pos_of_ne_zero hstep,
        delivery_eq_run]
      exact congrArg Except.ok (hsummary bytes)
  | fill bytes =>
    rw [Layout.attempt, h.layout_target]
    show (r.layout.copy (min r.target.length bytes.length) bytes >>= _) = _
    rw [h.layout_copy (Nat.min_le_left _ _) (Nat.min_le_right _ _), fill_take]
    rfl
  | advance n =>
    rw [Layout.attempt, h.layout_advance, outcome, Reader.operate]
    rcases r.advance n with ⟨r', e | chunk⟩ <;> rfl

/-- An operation panics only as a drip whose step is zero. -/
theorem eq_drip_of_outcome {op : Op} {panic : Panic} (h : r.outcome op = .error panic) :
    ∃ bytes, op = .drip bytes 0 := by
  cases op with
  | feed bytes => cases h
  | drip bytes step =>
    by_cases hstep : step = 0
    · exact ⟨bytes, by rw [hstep]⟩
    · rw [outcome, drip, if_neg hstep] at h
      cases h
  | fill bytes => cases h
  | advance n =>
    rw [outcome] at h
    split at h <;> cases h

theorem Sound.layout_operate (h : r.Sound) (op : Op) : r.layout.operate op = (r.operate op).layout := by
  rw [Layout.operate, h.layout_attempt]
  cases houtcome : r.outcome op with
  | ok answer => rfl
  | error panic =>
    obtain ⟨bytes, rfl⟩ := eq_drip_of_outcome houtcome
    rfl

theorem Sound.layout_foldl (h : r.Sound) (ops : List Op) :
    ops.foldl Layout.operate r.layout = (ops.foldl Reader.operate r).layout := by
  induction ops generalizing r with
  | nil => rfl
  | cons op ops ih => rw [List.foldl_cons, List.foldl_cons, h.layout_operate, ih (h.operate op)]

/-! ## In bounds -/

/-- What is missing of a header or a body, and how long the body may be. -/
theorem Sound.layout_within (h : r.Sound) (hr : r.poisoned = false) :
    r.layout.phase = .header ∧ r.layout.offset < prefixSize ∨
      ∃ length, r.layout.phase = .body length ∧ 1 ≤ length ∧ length ≤ r.limits.maxChunkLen ∧
        r.layout.body.length = length ∧ r.layout.offset < length := by
  have hroom := Window.space_pos_iff.1 (h.room hr)
  obtain ⟨limits, _ | length, header, body, poisoned, read, reused, meter⟩ := r
  · exact .inl ⟨rfl, Nat.lt_of_lt_of_eq hroom h.header⟩
  · obtain ⟨-, hsize⟩ := h.between hr length rfl
    have hbody : body.size ≤ limits.maxChunkLen := h.body
    have hoffset : body.filled.length < length := Nat.lt_of_lt_of_eq hroom hsize
    exact .inr ⟨length, rfl, Nat.lt_of_le_of_lt (Nat.zero_le _) hoffset, hsize ▸ hbody,
      body.length_contents.trans hsize, hoffset⟩

/-- A round is copying and reporting at least one byte. -/
theorem Sound.layout_round_takes (h : r.Sound) (hr : r.poisoned = false) {most : Nat} (hmost : 0 < most)
    {bytes : Bytes} (hne : bytes ≠ []) :
    ∃ n answer, 0 < n ∧ n ≤ bytes.length ∧
      r.layout.round most bytes =
        .ok ((r.layout.operate (.fill (bytes.take n))).operate (.advance n), answer, bytes.drop n) := by
  have hround : r.layout.round most bytes =
      .ok (((r.operate (.fill (bytes.take (r.portion most bytes)))).operate
        (.advance (r.portion most bytes))).layout, _, bytes.drop (r.portion most bytes)) :=
    h.layout_round most bytes
  rw [← (h.operate _).layout_operate, ← h.layout_operate] at hround
  exact ⟨_, _, h.portion_pos hr hmost hne, r.portion_le most bytes, hround⟩

/-- **A reader in memory stays in bounds.** Whatever was done to it: while it is not poisoned it has less
than a whole length prefix, or less than a whole body whose length is announced, at least one and at most
the largest that is accepted, and the length of the body's buffer. Its target is there, is not empty and has
as many bytes as are missing, and a round takes at least one of the bytes that are handed over and leaves a
reader that this can be said of again. Poisoned or not, the body's buffer is no longer than the largest body
that is accepted. No check fails: only dripping with a step of zero panics, and every other operation is
what it is on the windows. -/
theorem layout_keeps_bounds (limits : Limits) (ops : List Op) :
    let r := ops.foldl operate (new limits)
    let s := ops.foldl Layout.operate (Layout.new limits)
    (s.poisoned = false →
      (s.phase = .header ∧ s.offset < prefixSize ∨
        ∃ length, s.phase = .body length ∧ 1 ≤ length ∧ length ≤ limits.maxChunkLen ∧
          s.body.length = length ∧ s.offset < length) ∧
      (∃ target, s.target = .ok target ∧ target ≠ [] ∧ s.remaining = .ok target.length) ∧
      ∀ most bytes, 0 < most → bytes ≠ [] → ∃ n answer, 0 < n ∧ n ≤ bytes.length ∧
        s.round most bytes =
          .ok ((s.operate (.fill (bytes.take n))).operate (.advance n), answer, bytes.drop n)) ∧
    s.body.length ≤ limits.maxChunkLen ∧ s = r.layout ∧
    ∀ op, s.attempt op = (r.outcome op).map (fun answer => (s.operate op, answer)) ∧
      ∀ panic, s.attempt op = .error panic → ∃ bytes, op = .drip bytes 0 := by
  intro r s
  have h : r.Sound := (sound_new limits).foldl ops
  have hs : s = r.layout := (sound_new limits).layout_foldl ops
  have hlimits : r.limits = limits := limits_foldl (new limits) ops
  have hattempt : ∀ op, r.layout.attempt op =
      (r.outcome op).map fun answer => (r.layout.operate op, answer) := fun op => by
    rw [h.layout_attempt, h.layout_operate]
  rw [hs, ← hlimits]
  refine ⟨fun hr => ⟨h.layout_within hr, ⟨r.target, h.layout_target, ?_, ?_⟩, ?_⟩, ?_, rfl, fun op =>
    ⟨hattempt op, fun panic hpanic => ?_⟩⟩
  · intro hnil
    cases hr.symm.trans (h.target_eq_nil_iff.1 hnil)
  · rw [h.layout_remaining hr, length_target_of_not_poisoned hr]
  · exact fun most bytes hmost hne => h.layout_round_takes hr hmost hne
  · exact Nat.le_trans (Nat.le_of_eq r.body.length_contents) h.body
  · rw [hattempt] at hpanic
    cases houtcome : r.outcome op with
    | ok answer =>
      rw [houtcome] at hpanic
      cases hpanic
    | error panic => exact eq_drip_of_outcome houtcome

/-- A prefix and one byte are fed, and three bytes are copied where one fits. -/
example :
    let s := [Op.feed [0, 0, 0, 2, 7], .fill [1, 2, 3]].foldl Layout.operate (Layout.new .standard)
    s.body = [7, 1] ∧ s.offset = 1 ∧ s.remaining.toOption = some 1 := by
  decide +kernel

end Reader

end ChunkRouter.Frame
