import ChunkRouter.Frame.Reader

/-!
# Delivery byte by byte

`Reader.run` hands a wire over one byte at a time. `deliver_eq_run` says that the pieces in which a
wire is handed over do not matter, `run_append` that it may be cut anywhere, and `run_eq_resume`
passes over all bytes up to the end of a window at once.
-/

namespace ChunkRouter.Frame

/-! ## Windows that receive bytes -/

namespace Window

/-- The window after receiving `bytes`. -/
def received (bytes : Bytes) (w : Window) : Window where
  filled := bytes.reverse ++ w.filled
  stale := w.stale.drop bytes.length
  blank := w.blank - (bytes.length - w.stale.length)

@[simp] theorem filled_received (bytes : Bytes) (w : Window) :
    (w.received bytes).filled = bytes.reverse ++ w.filled := rfl

@[simp] theorem space_received (bytes : Bytes) (w : Window) :
    (w.received bytes).space = w.space - bytes.length := by
  simp only [received, space, List.length_drop]
  omega

@[simp] theorem received_nil (w : Window) : w.received [] = w := by
  simp [received]

theorem received_cons (b : UInt8) (bytes : Bytes) (w : Window) :
    (w.received [b]).received bytes = w.received (b :: bytes) := by
  simp only [received, List.reverse_cons, List.reverse_nil, List.nil_append, List.append_assoc,
    List.drop_drop, List.length_cons, List.length_nil, List.length_drop, mk.injEq, true_and]
  constructor
  · rw [Nat.add_comm]
  · omega

theorem push?_eq_some {w : Window} (b : UInt8) (h : 0 < w.space) :
    w.push? b = some (w.received [b]) := by
  rcases w with ⟨filled, _ | ⟨s, stale⟩, _ | blank⟩
  · simp [space] at h
  all_goals simp [push?, received]

theorem push?_eq_none {w : Window} (b : UInt8) (h : w.space = 0) : w.push? b = none := by
  rcases w with ⟨filled, _ | ⟨s, stale⟩, _ | blank⟩
  · rfl
  all_goals simp [space] at h

theorem space_pos_of_push? {w v : Window} {b : UInt8} (h : w.push? b = some v) : 0 < w.space := by
  rcases Nat.eq_zero_or_pos w.space with h0 | hpos
  · rw [push?_eq_none b h0] at h
    cases h
  · exact hpos

theorem isFull_eq_false {w : Window} (h : 0 < w.space) : w.isFull = false := by
  rw [Bool.eq_false_iff, Ne, isFull_iff]
  omega

/-- A window that has just been filled up holds what was in it before and the bytes received. -/
theorem contents_received {bytes : Bytes} {w : Window} (h : w.space = bytes.length) :
    (w.received bytes).contents = w.filled.reverse ++ bytes := by
  have hroom : (w.received bytes).room = [] := by
    rw [← List.length_eq_zero_iff, length_room, space_received]
    omega
  simp [contents, hroom]

/-- Bytes that were laid over the front of the room are received by advancing over them. -/
theorem advance?_fill {w : Window} {bytes : Bytes} (hle : bytes.length ≤ w.space) :
    (w.fill bytes).advance? bytes.length = some (w.received bytes) := by
  have htake : bytes.take w.space = bytes := List.take_of_length_le hle
  have hstale : (w.fill bytes).stale = bytes ++ w.stale.drop bytes.length := by
    rw [fill, htake]
  have hblank : (w.fill bytes).blank = w.blank - (bytes.length - w.stale.length) := rfl
  have hover : bytes.length - (w.fill bytes).stale.length = 0 := by
    rw [hstale, List.length_append]
    omega
  have hspace : bytes.length ≤ (w.fill bytes).space := by
    unfold space
    omega
  rw [advance?, if_pos hspace, hover, hstale, hblank]
  rw [List.take_left, List.drop_left]
  rfl

end Window

namespace Reader

/-! ## One byte -/

@[simp] theorem window_setWindow (r : Reader) (w : Window) : (r.setWindow w).window = w := by
  unfold setWindow window
  cases r.phase <;> rfl

@[simp] theorem setWindow_setWindow (r : Reader) (w v : Window) :
    (r.setWindow w).setWindow v = r.setWindow v := by
  unfold setWindow
  rcases r with ⟨limits, _ | length⟩ <;> rfl

@[simp] theorem setWindow_window (r : Reader) : r.setWindow r.window = r := by
  unfold setWindow window
  rcases r with ⟨limits, _ | length⟩ <;> rfl

@[simp] theorem poisoned_setWindow (r : Reader) (w : Window) :
    (r.setWindow w).poisoned = r.poisoned := by
  unfold setWindow
  cases r.phase <;> rfl

/-- A window with room left settles nothing. -/
theorem settle_of_space_pos {r : Reader} (h : 0 < r.window.space) : r.settle = (r, .ok none) := by
  simp [settle, Window.isFull_eq_false h]

/-- Hand one byte over. -/
def receive (r : Reader) (b : UInt8) : Reader × Except FramingError (Option Bytes) :=
  match if r.poisoned then none else r.window.push? b with
  | none => (r, .error .poisoned)
  | some w => (r.setWindow w).settle

theorem receive_of_space_pos {r : Reader} (b : UInt8) (hr : r.poisoned = false)
    (h : 0 < r.window.space) :
    r.receive b = (r.setWindow (r.window.received [b])).settle := by
  simp [receive, hr, Window.push?_eq_some b h]

/-! ## Any number of bytes -/

/-- What came of handing bytes over: the chunks delivered, and the error that ended it. -/
structure Reading where
  reader : Reader
  chunks : List Bytes
  error? : Option FramingError

/-- Summed up: the number of chunks, or the error. -/
def Reading.delivery (g : Reading) : Delivery :=
  ⟨g.reader, g.chunks,
    match g.error? with
    | none => .ok g.chunks.length
    | some e => .error e⟩

theorem Reading.result_delivery (g : Reading) :
    g.delivery.result =
      match g.error? with
      | none => .ok g.chunks.length
      | some e => .error e := rfl

/-- The same with `chunks` delivered before. -/
def Reading.after (chunks : List Bytes) (g : Reading) : Reading :=
  { g with chunks := chunks ++ g.chunks }

/-- Hand bytes over one at a time, up to the first error. -/
def run (r : Reader) : Bytes → Reading
  | [] => ⟨r, [], none⟩
  | b :: bytes =>
    match r.receive b with
    | (r', .error e) => ⟨r', [], some e⟩
    | (r', .ok chunk) => (run r' bytes).after chunk.toList

/-- Go on with `bytes` after a window was settled. -/
def resume (settled : Reader × Except FramingError (Option Bytes)) (bytes : Bytes) : Reading :=
  match settled with
  | (r, .error e) => ⟨r, [], some e⟩
  | (r, .ok chunk) => (run r bytes).after chunk.toList

@[simp] theorem run_nil (r : Reader) : r.run [] = ⟨r, [], none⟩ := rfl

theorem run_cons (r : Reader) (b : UInt8) (bytes : Bytes) :
    r.run (b :: bytes) = resume (r.receive b) bytes := rfl

@[simp] theorem Reading.reader_after (chunks : List Bytes) (g : Reading) :
    (g.after chunks).reader = g.reader := rfl

@[simp] theorem Reading.chunks_after (chunks : List Bytes) (g : Reading) :
    (g.after chunks).chunks = chunks ++ g.chunks := rfl

@[simp] theorem Reading.error?_after (chunks : List Bytes) (g : Reading) :
    (g.after chunks).error? = g.error? := rfl

@[simp] theorem Reading.after_nil (g : Reading) : g.after [] = g := rfl

/-- A wire may be cut anywhere; nothing after an error is looked at. -/
theorem run_append (r : Reader) (v w : Bytes) :
    r.run (v ++ w) =
      if (r.run v).error? = none then ((r.run v).reader.run w).after (r.run v).chunks
      else r.run v := by
  induction v generalizing r with
  | nil => simp
  | cons b v ih =>
    rw [List.cons_append, run_cons, run_cons]
    rcases r.receive b with ⟨r', e | chunk⟩
    · simp [resume]
    · simp only [resume, ih r']
      split <;> simp_all [Reading.after]

theorem run_append_of_error {r : Reader} {v : Bytes} (w : Bytes) (h : (r.run v).error? ≠ none) :
    r.run (v ++ w) = r.run v := by
  rw [run_append, if_neg h]

/-- Bytes that go no further than the end of the window settle it once. -/
theorem run_eq_resume {r : Reader} {bytes : Bytes} (hr : r.poisoned = false) (hne : bytes ≠ [])
    (hle : bytes.length ≤ r.window.space) (rest : Bytes) :
    r.run (bytes ++ rest) = resume (r.setWindow (r.window.received bytes)).settle rest := by
  induction bytes generalizing r with
  | nil => exact absurd rfl hne
  | cons b bytes ih =>
    have hpos : 0 < r.window.space := Nat.lt_of_lt_of_le (Nat.succ_pos _) hle
    rw [List.cons_append, run_cons, receive_of_space_pos b hr hpos]
    rcases bytes with _ | ⟨c, bytes⟩
    · rfl
    · have hle' : (c :: bytes).length ≤ (r.setWindow (r.window.received [b])).window.space := by
        simp only [window_setWindow, Window.space_received, List.length_cons, List.length_nil]
          at hle ⊢
        omega
      have hpos' : 0 < (r.setWindow (r.window.received [b])).window.space :=
        Nat.lt_of_lt_of_le (Nat.succ_pos _) hle'
      rw [settle_of_space_pos hpos']
      have hstep := ih (r := r.setWindow (r.window.received [b])) (by simpa using hr)
        (List.cons_ne_nil _ _) hle'
      simpa [resume, Window.received_cons] using hstep

/-- Bytes that leave room in the window are kept there. -/
theorem run_of_length_lt {r : Reader} {bytes : Bytes} (hr : r.poisoned = false)
    (hlt : bytes.length < r.window.space) :
    r.run bytes = ⟨r.setWindow (r.window.received bytes), [], none⟩ := by
  rcases bytes with _ | ⟨b, bytes⟩
  · rw [Window.received_nil, setWindow_window, run_nil]
  · have hrun := run_eq_resume hr (List.cons_ne_nil b bytes) (Nat.le_of_lt hlt) []
    rw [List.append_nil] at hrun
    rw [hrun, settle_of_space_pos]
    · simp [resume]
    · simp only [window_setWindow, Window.space_received]
      omega

/-! ## Bytes that are already there -/

/-- Reporting bytes that were copied into the target settles the window they fill. -/
theorem advance_fill {r : Reader} {bytes : Bytes} (hr : r.poisoned = false)
    (hle : bytes.length ≤ r.window.space) :
    (r.fill bytes).advance bytes.length = (r.setWindow (r.window.received bytes)).settle := by
  have hfill : r.fill bytes = r.setWindow (r.window.fill bytes) := by rw [fill, hr]; rfl
  rw [hfill, advance, poisoned_setWindow, hr, window_setWindow, Window.advance?_fill hle]
  simp only [Bool.false_eq_true, if_false, setWindow_setWindow]

/-- Telling a reader how many bytes arrived is running it over them. -/
theorem run_eq_advance {r : Reader} {bytes : Bytes} (hne : bytes ≠ []) (hle : bytes.length ≤ r.space) :
    r.run bytes =
      match (r.fill bytes).advance bytes.length with
      | (r', .error e) => ⟨r', [], some e⟩
      | (r', .ok chunk) => ⟨r', chunk.toList, none⟩ := by
  have hpos : 0 < bytes.length := List.length_pos_iff.2 hne
  have hr : r.poisoned = false := by
    unfold space at hle
    split at hle
    · omega
    · exact Bool.of_not_eq_true (by assumption)
  have hspace : r.space = r.window.space := by rw [space, hr]; rfl
  rw [hspace] at hle
  have hrun := run_eq_resume hr hne hle []
  rw [List.append_nil] at hrun
  rw [hrun, advance_fill hr hle]
  rcases (r.setWindow (r.window.received bytes)).settle with ⟨r', e | chunk⟩
  · rfl
  · show Reading.after chunk.toList (r'.run []) = _
    rw [run_nil, Reading.after, List.append_nil]

/-! ## Pieces do not matter -/

/-- Pouring is the same as receiving byte by byte and settling at the end. -/
theorem resume_pour {r : Reader} (hr : r.poisoned = false) (n : Nat) (bytes : Bytes) (w : Window) :
    resume (r.setWindow (Window.pour n bytes w).1).settle (Window.pour n bytes w).2 =
      resume (r.setWindow w).settle bytes := by
  fun_induction Window.pour n bytes w with
  | case1 n b bytes w v hpush ih =>
    have hpos := Window.space_pos_of_push? hpush
    rw [ih, settle_of_space_pos (r := r.setWindow w) (by simpa using hpos)]
    have hbyte := receive_of_space_pos (r := r.setWindow w) b (by simpa using hr) (by simpa using hpos)
    rw [Window.push?_eq_some b hpos] at hpush
    cases hpush
    simp only [window_setWindow, setWindow_setWindow] at hbyte
    rw [← hbyte]
    rfl
  | case2 => rfl
  | case3 => rfl

/-- What a piece of a wire settles is what its bytes settle one at a time. -/
theorem resume_pour_push {r : Reader} {b : UInt8} {w : Window}
    (h : (if r.poisoned then none else r.window.push? b) = some w) (n : Nat) (bytes : Bytes) :
    resume (r.setWindow (Window.pour n bytes w).1).settle (Window.pour n bytes w).2 =
      r.run (b :: bytes) := by
  have hr : r.poisoned = false := by
    cases hp : r.poisoned
    · rfl
    · rw [hp] at h
      cases h
  rw [resume_pour hr, run_cons, receive, h]

theorem deliver_eq_run (more : Nat) (r : Reader) (acc : List Bytes) (wire : Bytes) :
    r.deliver more acc wire =
      ((r.run wire).reader, (r.run wire).chunks.reverse ++ acc, (r.run wire).error?) := by
  fun_induction deliver more r acc wire with
  | case1 r acc => rfl
  | case2 r acc b bytes hnone =>
    rw [dite_eq_ite] at hnone
    rw [run_cons, receive, hnone]
    rfl
  | case3 r acc b bytes w hsome piece r' e hsettle =>
    rw [dite_eq_ite] at hsome
    rw [← resume_pour_push hsome more bytes, hsettle]
    rfl
  | case4 r acc b bytes w hsome piece r' hsettle ih =>
    rw [dite_eq_ite] at hsome
    rw [← resume_pour_push hsome more bytes, hsettle, ih]
    rfl
  | case5 r acc b bytes w hsome piece r' chunk hsettle ih =>
    rw [dite_eq_ite] at hsome
    rw [← resume_pour_push hsome more bytes, hsettle, ih]
    simp [resume, Reading.after, piece]

/-- What a delivery comes to, whatever the size of its pieces. -/
theorem delivery_eq_run (more : Nat) (r : Reader) (wire : Bytes) :
    r.delivery more wire = (r.run wire).delivery := by
  unfold delivery Reading.delivery
  rw [deliver_eq_run]
  cases (r.run wire).error? <;> simp

theorem feed_eq_run (r : Reader) (wire : Bytes) : r.feed wire = (r.run wire).delivery :=
  delivery_eq_run wire.length r wire

/-- Hand wires over one after another, up to the first error. Each comes with the number of bytes that
may follow the first one in a piece: its length for feeding, one less than the step for dripping. -/
def deliveries (r : Reader) : List (Nat × Bytes) → Delivery
  | [] => ⟨r, [], .ok 0⟩
  | (more, wire) :: wires =>
    match r.delivery more wire with
    | ⟨r', chunks, .error e⟩ => ⟨r', chunks, .error e⟩
    | ⟨r', chunks, .ok n⟩ =>
      let later := r'.deliveries wires
      ⟨later.reader, chunks ++ later.chunks, later.result.map (n + ·)⟩

/-- However a wire is cut, delivering the parts is delivering the whole. -/
theorem deliveries_eq_run (r : Reader) (wires : List (Nat × Bytes)) :
    r.deliveries wires = (r.run (wires.flatMap (·.2))).delivery := by
  induction wires generalizing r with
  | nil => rfl
  | cons part wires ih =>
    obtain ⟨more, wire⟩ := part
    rw [deliveries, delivery_eq_run, List.flatMap_cons, run_append]
    rcases herr : (r.run wire).error? with _ | e
    · simp only [Reading.delivery, herr, if_true, ih]
      rcases hlater : ((r.run wire).reader.run (wires.flatMap (·.2))).error? with _ | e <;>
        simp [Except.map, hlater]
    · simp [Reading.delivery, herr]

end Reader

end ChunkRouter.Frame
