import ChunkRouter.Frame.Grammar
import ChunkRouter.Proofs.Frame.Delivery

/-!
# Reading is parsing

A reader that is fed a wire delivers what cutting the wire apart at once yields. `Reader.Holds` ties
the state of a reader to the part of the wire that it has not delivered; each window that fills up
carries it from one part to the next, and `run_agrees` follows the parser chunk by chunk.
`feed_new_eq_parse` reads off what can be seen of a new reader.
-/

namespace ChunkRouter.Frame

/-! ## The grammar -/

namespace Grammar

/-- The error that ends a wire, if one does. -/
def Tail.error? : Tail → Option FramingError
  | .bad e _ => some e
  | _ => none

/-- The lengths announced by the prefixes that were accepted, in order. -/
def Parse.lengths (p : Parse) : List Nat :=
  p.bodies.map List.length ++
    match p.tail with
    | .body n _ => [n]
    | _ => []

/-- How many members of a list are equal to the one before them. -/
def repeats : List Nat → Nat
  | a :: b :: l => (if a = b then 1 else 0) + repeats (b :: l)
  | _ => 0

theorem lengthError?_eq_none_iff {max n : Nat} : lengthError? max n = none ↔ 0 < n ∧ n ≤ max := by
  unfold lengthError?
  split
  · simp_all
  · split
    · simp_all
    · simp only [true_iff]
      omega

/-- A wire that begins with a whole length prefix. -/
theorem parse_append {max : Nat} {header : Bytes} (hlen : header.length = 4) (rest : Bytes) :
    parse max (header ++ rest) =
      match lengthError? max (Header.decode header) with
      | some e => ⟨[], .bad e rest⟩
      | none =>
        if rest.length < Header.decode header then ⟨[], .body (Header.decode header) rest⟩
        else
          ⟨rest.take (Header.decode header) ::
              (parse max (rest.drop (Header.decode header))).bodies,
            (parse max (rest.drop (Header.decode header))).tail⟩ := by
  rw [parse]
  have hshort : ¬ (header ++ rest).length < 4 := by
    rw [List.length_append]
    omega
  cases he : lengthError? max (Header.decode header) <;>
    simp only [hshort, dite_false, List.take_left' hlen, List.drop_left' hlen, he]

/-- Accepted prefixes announce a length that a chunk may have. -/
theorem admissible_of_mem_lengths {max n : Nat} {w : Bytes} (h : n ∈ (parse max w).lengths) :
    0 < n ∧ n ≤ max := by
  fun_induction parse max w with
  | case1 w hshort => simp [Parse.lengths] at h
  | case2 w hshort k rest e he => simp [Parse.lengths] at h
  | case3 w hshort k rest hok hlt =>
    have hk := lengthError?_eq_none_iff.1 hok
    simp only [Parse.lengths, List.map_nil, List.nil_append, List.mem_singleton] at h
    exact h ▸ hk
  | case4 w hshort k rest hok hlt later ih =>
    have hk := lengthError?_eq_none_iff.1 hok
    have hlen : (rest.take k).length = k := List.length_take_of_le (Nat.not_lt.1 hlt)
    simp only [Parse.lengths, List.map_cons, List.cons_append, List.mem_cons, hlen] at h
    rcases h with rfl | h
    · exact hk
    · exact ih h

theorem pos_of_mem_lengths {max n : Nat} {w : Bytes} (h : n ∈ (parse max w).lengths) : 0 < n :=
  (admissible_of_mem_lengths h).1

/-- The chunks of a wire have lengths that chunks may have. -/
theorem admissible_of_mem_bodies {max : Nat} {w body : Bytes} (h : body ∈ (parse max w).bodies) :
    1 ≤ body.length ∧ body.length ≤ max :=
  admissible_of_mem_lengths (List.mem_append_left _ (List.mem_map_of_mem h))

theorem repeats_zero_cons {l : List Nat} (h : ∀ n ∈ l, 0 < n) : repeats (0 :: l) = repeats l := by
  rcases l with _ | ⟨a, l⟩
  · rfl
  · have ha : 0 < a := h a List.mem_cons_self
    rw [repeats, if_neg (by omega), Nat.zero_add]

/-- A wire with a bad prefix is cut alike whatever follows the prefix. -/
theorem exists_reached {max : Nat} {w rest : Bytes} {e : FramingError}
    (h : (parse max w).tail = .bad e rest) :
    ∃ reached, w = reached ++ rest ∧
      ∀ v, parse max (reached ++ v) = ⟨(parse max w).bodies, .bad e v⟩ := by
  fun_induction parse max w with
  | case1 w hshort => cases h
  | case2 w hshort n after e' he =>
    injection h with he' hafter
    refine ⟨w.take 4, ?_, fun v => ?_⟩
    · rw [← hafter, List.take_append_drop]
    · rw [parse_append (List.length_take_of_le (Nat.not_lt.1 hshort)), he, he']
  | case3 w hshort n after hok hlt => cases h
  | case4 w hshort n after hok hlt later ih =>
    obtain ⟨reached, hsplit, hparse⟩ := ih h
    have hbody : (after.take n).length = n := List.length_take_of_le (Nat.not_lt.1 hlt)
    refine ⟨w.take 4 ++ (after.take n ++ reached), ?_, fun v => ?_⟩
    · rw [List.append_assoc, List.append_assoc, ← hsplit, List.take_append_drop,
        List.take_append_drop]
    · rw [List.append_assoc, List.append_assoc,
        parse_append (List.length_take_of_le (Nat.not_lt.1 hshort)), hok]
      simp only
      rw [if_neg (by rw [List.length_append, hbody]; omega), List.take_left' hbody,
        List.drop_left' hbody, hparse]

end Grammar

open Grammar (Tail Parse parse lengthError? repeats)

/-! ## What a reader holds -/

/-- A buffer of `size` bytes in which `got` was received. -/
def Window.Has (w : Window) (size : Nat) (got : Bytes) : Prop :=
  w.filled = got.reverse ∧ w.space + got.length = size

theorem Window.Has.received {w : Window} {size : Nat} {got : Bytes} (h : w.Has size [])
    (hle : got.length ≤ size) : (w.received got).Has size got := by
  obtain ⟨hfilled, hspace⟩ := h
  rw [List.length_nil, Nat.add_zero] at hspace
  refine ⟨by simp [hfilled], ?_⟩
  rw [Window.space_received, hspace]
  omega

theorem Window.Has.size_eq {w : Window} {size : Nat} {got : Bytes} (h : w.Has size got) :
    w.size = size := by
  rw [Window.size, h.1, List.length_reverse, Nat.add_comm]
  exact h.2

theorem Window.has_rewind (w : Window) : w.rewind.Has w.size [] := by
  refine ⟨rfl, ?_⟩
  simp only [Window.rewind, Window.space, Window.size, List.length_append, List.length_reverse,
    List.length_nil]
  omega

theorem Window.has_zeros (n : Nat) : (Window.zeros n).Has n [] := by
  simp [Window.Has, Window.zeros, Window.space]

namespace Reader

/-- The reader has delivered everything but this end of the wire. -/
def Holds (r : Reader) : Tail → Prop
  | .header got =>
    r.poisoned = false ∧ r.phase = .header ∧ r.header.Has prefixSize got ∧ r.body.filled = []
  | .body n got =>
    r.poisoned = false ∧ r.phase = .body n ∧ r.header.Has prefixSize [] ∧ r.body.Has n got
  | .bad _ _ => r.poisoned = true

theorem holds_new (limits : Limits) : (new limits).Holds (.header []) :=
  ⟨rfl, rfl, Window.has_zeros _, rfl⟩

/-! ## A length prefix -/

/-- The reader in which a whole length prefix was received. -/
def announced (r : Reader) (header : Bytes) : Reader :=
  { r with header := r.header.received header }

/-- The reader that expects a body of `n` bytes. -/
def opened (r : Reader) (n : Nat) : Reader :=
  { r with
    phase := .body n
    header := r.header.rewind
    body := if r.body.size == n then r.body.rewind else Window.zeros n
    buffersReused := if r.body.size == n then r.buffersReused + 1 else r.buffersReused }

theorem openBody_eq (r : Reader) (n : Nat) :
    r.openBody n =
      match lengthError? r.limits.maxChunkLen n with
      | some e => (r.poison, .error e)
      | none => (r.opened n, .ok none) := by
  unfold openBody lengthError?
  by_cases h0 : n = 0
  · simp [h0]
  · by_cases hmax : r.limits.maxChunkLen < n
    · simp [h0, hmax]
    · simp only [h0, hmax, if_false]
      rfl

/-- A whole length prefix either poisons the reader or opens a body. -/
theorem run_header {r : Reader} {header : Bytes} (h : r.Holds (.header []))
    (hlen : header.length = 4) (rest : Bytes) :
    r.run (header ++ rest) =
      resume ((r.announced header).openBody (Header.decode header)) rest := by
  obtain ⟨hp, hphase, ⟨hfilled, hspace⟩, -⟩ := h
  have hwindow : r.window = r.header := by rw [window, hphase]
  have hroom : r.header.space = header.length := by
    rw [hlen]
    exact hspace
  have hfit : header.length ≤ r.window.space := by
    rw [hwindow]
    exact Nat.le_of_eq hroom.symm
  rw [run_eq_resume hp (List.ne_nil_of_length_pos (by omega)) hfit]
  have hset : r.setWindow (r.window.received header) = r.announced header := by
    rw [hwindow, setWindow, hphase, announced, hphase]
  have hfull : (r.announced header).window.isFull = true := by
    rw [← hset, window_setWindow, Window.isFull_iff, Window.space_received, hwindow, hroom]
    exact Nat.sub_self _
  have hcontents : (r.announced header).header.contents = header := by
    rw [announced, Window.contents_received hroom, hfilled]
    rfl
  have hphase' : (r.announced header).phase = .header := hphase
  rw [hset, settle, if_pos hfull, hphase']
  simp only [hcontents]

theorem run_header_of_error {r : Reader} {header : Bytes} {e : FramingError}
    (h : r.Holds (.header [])) (hlen : header.length = 4)
    (he : lengthError? r.limits.maxChunkLen (Header.decode header) = some e) (rest : Bytes) :
    r.run (header ++ rest) = ⟨(r.announced header).poison, [], some e⟩ := by
  rw [run_header h hlen, openBody_eq, show (r.announced header).limits = r.limits from rfl, he]
  rfl

theorem run_header_of_ok {r : Reader} {header : Bytes} (h : r.Holds (.header []))
    (hlen : header.length = 4)
    (hok : lengthError? r.limits.maxChunkLen (Header.decode header) = none) (rest : Bytes) :
    r.run (header ++ rest) = ((r.announced header).opened (Header.decode header)).run rest := by
  rw [run_header h hlen, openBody_eq, show (r.announced header).limits = r.limits from rfl, hok]
  rfl

theorem holds_opened {r : Reader} {header : Bytes} (h : r.Holds (.header []))
    (hlen : header.length = 4) (n : Nat) : ((r.announced header).opened n).Holds (.body n []) := by
  obtain ⟨hp, -, hheader, -⟩ := h
  have hsize : (r.header.received header).size = prefixSize :=
    (hheader.received (Nat.le_of_eq hlen)).size_eq
  refine ⟨hp, rfl, hsize ▸ Window.has_rewind _, ?_⟩
  show Window.Has (if r.body.size == n then r.body.rewind else Window.zeros n) n []
  by_cases hn : r.body.size = n
  · rw [if_pos (by simpa using hn)]
    exact hn ▸ Window.has_rewind _
  · rw [if_neg (by simpa using hn)]
    exact Window.has_zeros n

theorem buffersReused_opened (r : Reader) (header : Bytes) (n : Nat) (l : List Nat) :
    ((r.announced header).opened n).buffersReused + repeats (n :: l) =
      r.buffersReused + repeats (r.body.size :: n :: l) := by
  show (if r.body.size == n then r.buffersReused + 1 else r.buffersReused) + _ = _
  rw [repeats]
  by_cases hn : r.body.size = n
  · simp only [hn, BEq.rfl, if_true]
    omega
  · simp [hn]

/-! ## A body -/

/-- The reader in which a whole body was received and delivered. -/
def delivered (r : Reader) (body : Bytes) : Reader :=
  { r with
    phase := .header
    body := (r.body.received body).rewind
    chunksRead := r.chunksRead + 1
    meter := r.meter.bump (.chunks .inbound) }

theorem window_of_holds_body {r : Reader} {n : Nat} {got : Bytes} (h : r.Holds (.body n got)) :
    r.window = r.body := by
  rw [window, h.2.1]

theorem run_body {r : Reader} {n : Nat} {body : Bytes} (h : r.Holds (.body n [])) (hn : 0 < n)
    (hlen : body.length = n) (rest : Bytes) :
    r.run (body ++ rest) = ((r.delivered body).run rest).after [body] := by
  have hwindow := window_of_holds_body h
  obtain ⟨hp, hphase, -, hfilled, hspace⟩ := h
  have hroom : r.body.space = body.length := by
    rw [hlen]
    exact hspace
  have hfit : body.length ≤ r.window.space := by
    rw [hwindow]
    exact Nat.le_of_eq hroom.symm
  rw [run_eq_resume hp (List.ne_nil_of_length_pos (by omega)) hfit]
  have hfull : (r.setWindow (r.body.received body)).window.isFull = true := by
    rw [window_setWindow, Window.isFull_iff, Window.space_received, hroom]
    exact Nat.sub_self _
  have hset : r.setWindow (r.body.received body) = { r with body := r.body.received body } := by
    rw [setWindow, hphase]
  have hcontents : (r.body.received body).contents = body := by
    rw [Window.contents_received hroom, hfilled]
    rfl
  rw [hwindow, settle, if_pos hfull, hset]
  simp only [hphase, deliverBody, hcontents, resume]
  rfl

theorem holds_delivered {r : Reader} {n : Nat} (h : r.Holds (.body n [])) (body : Bytes) :
    (r.delivered body).Holds (.header []) :=
  ⟨h.1, rfl, h.2.2.1, rfl⟩

theorem size_body_delivered {r : Reader} {n : Nat} {body : Bytes} (h : r.Holds (.body n []))
    (hlen : body.length = n) : (r.delivered body).body.size = n := by
  have hrewind := Window.has_rewind (r.body.received body)
  show (r.body.received body).rewind.size = n
  rw [hrewind.size_eq, (h.2.2.2.received (Nat.le_of_eq hlen)).size_eq]

/-! ## Wires that end early -/

theorem run_header_part {r : Reader} {got : Bytes} (h : r.Holds (.header []))
    (hlt : got.length < 4) :
    r.run got = ⟨r.announced got, [], none⟩ ∧ (r.announced got).Holds (.header got) := by
  obtain ⟨hp, hphase, hheader, hbody⟩ := h
  have hwindow : r.window = r.header := by rw [window, hphase]
  have hroom : r.header.space = 4 := hheader.2
  refine ⟨?_, hp, hphase, hheader.received (Nat.le_of_lt hlt), hbody⟩
  rw [run_of_length_lt hp (by rw [hwindow, hroom]; exact hlt), hwindow, setWindow, hphase,
    announced, hphase]

theorem run_body_part {r : Reader} {n : Nat} {got : Bytes} (h : r.Holds (.body n []))
    (hlt : got.length < n) :
    r.run got = ⟨{ r with body := r.body.received got }, [], none⟩ ∧
      Holds { r with body := r.body.received got } (.body n got) := by
  have hwindow := window_of_holds_body h
  obtain ⟨hp, hphase, hheader, hbody⟩ := h
  have hroom : r.body.space = n := hbody.2
  refine ⟨?_, hp, hphase, hheader, hbody.received (Nat.le_of_lt hlt)⟩
  rw [run_of_length_lt hp (by rw [hwindow, hroom]; exact hlt), hwindow, setWindow, hphase]

/-! ## Whole wires -/

/-- What reading a wire comes to, beside what cutting it apart yields. -/
structure Agrees (r : Reader) (g : Reading) (p : Parse) : Prop where
  chunks : g.chunks = p.bodies
  error : g.error? = p.tail.error?
  holds : g.reader.Holds p.tail
  chunksRead : g.reader.chunksRead = r.chunksRead + p.bodies.length
  buffersReused : g.reader.buffersReused = r.buffersReused + repeats (r.body.size :: p.lengths)

/-- On a chunk boundary, reading a wire is parsing it. -/
theorem run_agrees (max : Nat) (w : Bytes) :
    ∀ r : Reader, r.Holds (.header []) → r.limits.maxChunkLen = max →
      Agrees r (r.run w) (parse max w) := by
  -- one case for each way a wire goes on: each window that is full settles as the parser cuts
  fun_induction parse max w with
  | case1 w hshort =>
    intro r h hmax
    obtain ⟨hrun, hholds⟩ := run_header_part h hshort
    rw [hrun]
    exact ⟨rfl, rfl, hholds, rfl, rfl⟩
  | case2 w hshort n after e he =>
    intro r h hmax
    have hfour : (w.take 4).length = 4 := List.length_take_of_le (Nat.not_lt.1 hshort)
    have hrun := run_header_of_error h hfour (hmax ▸ he) after
    rw [List.take_append_drop] at hrun
    rw [hrun]
    exact ⟨rfl, rfl, rfl, rfl, rfl⟩
  | case3 w hshort n after hok hlt =>
    intro r h hmax
    have hfour : (w.take 4).length = 4 := List.length_take_of_le (Nat.not_lt.1 hshort)
    have hrun := run_header_of_ok h hfour (hmax ▸ hok) after
    rw [List.take_append_drop] at hrun
    obtain ⟨hpart, hholds⟩ := run_body_part (holds_opened h hfour n) hlt
    rw [hrun, hpart]
    exact ⟨rfl, rfl, hholds, rfl, buffersReused_opened r (w.take 4) n []⟩
  | case4 w hshort n after hok hlt later ih =>
    intro r h hmax
    have hfour : (w.take 4).length = 4 := List.length_take_of_le (Nat.not_lt.1 hshort)
    have hbody : (after.take n).length = n := List.length_take_of_le (Nat.not_lt.1 hlt)
    have hrun := run_header_of_ok h hfour (hmax ▸ hok) after
    have hopened := holds_opened h hfour n
    have hdeliver := run_body hopened (Grammar.lengthError?_eq_none_iff.1 hok).1 hbody
      (after.drop n)
    rw [List.take_append_drop] at hrun hdeliver
    have hlater := ih _ (holds_delivered hopened (after.take n)) hmax
    have hreused := buffersReused_opened r (w.take 4) n later.lengths
    rw [hrun, hdeliver]
    refine ⟨?_, hlater.error, hlater.holds, ?_, ?_⟩
    · rw [Reading.chunks_after, hlater.chunks]
      rfl
    · rw [Reading.reader_after, hlater.chunksRead, List.length_cons]
      show r.chunksRead + 1 + later.bodies.length = r.chunksRead + (later.bodies.length + 1)
      omega
    · rw [Reading.reader_after, hlater.buffersReused, size_body_delivered hopened hbody]
      show ((r.announced (w.take 4)).opened n).buffersReused + _ = _
      rw [hreused]
      simp [Parse.lengths, hbody, later]

/-- What can be seen of a reader at the end of a wire. -/
def Shows (r : Reader) : Tail → Prop
  | .header got =>
    r.poisoned = false ∧ r.isIdle = got.isEmpty ∧ r.pendingLen? = none ∧
      r.buffered = got.length
  | .body n got =>
    r.poisoned = false ∧ r.isIdle = false ∧ r.pendingLen? = some n ∧ r.buffered = got.length
  | .bad _ _ => r.poisoned = true

theorem Holds.shows {r : Reader} {tail : Tail} (h : r.Holds tail) : r.Shows tail := by
  cases tail with
  | header got =>
    obtain ⟨hp, hphase, ⟨hfilled, -⟩, -⟩ := h
    refine ⟨hp, ?_, ?_, ?_⟩
    · simp [isIdle, hphase, hfilled]
    · rw [pendingLen?, hphase]
    · rw [buffered, window, hphase, hfilled, List.length_reverse]
  | body n got =>
    have hwindow := window_of_holds_body h
    obtain ⟨hp, hphase, -, hfilled, -⟩ := h
    refine ⟨hp, ?_, ?_, ?_⟩
    · simp [isIdle, hphase]
    · rw [pendingLen?, hphase]
    · rw [buffered, hwindow, hfilled, List.length_reverse]
  | bad e rest => exact h

/-- **A new reader accepts exactly the grammar.** It delivers the bodies before the first bad length
prefix, answers with their number or with the error of that prefix, looks at nothing behind it, and
shows the end of the wire as it is. A body buffer is used again for each accepted length equal to
the one before. -/
theorem feed_new_eq_parse (limits : Limits) (w : Bytes) :
    let p := parse limits.maxChunkLen w
    let d := (new limits).feed w
    d.chunks = p.bodies ∧
      d.result = (match p.tail.error? with
        | none => .ok p.bodies.length
        | some e => .error e) ∧
      (∀ e rest, p.tail = .bad e rest →
        ∃ reached, w = reached ++ rest ∧ ∀ v, (new limits).feed (reached ++ v) = d) ∧
      d.reader.Shows p.tail ∧
      d.reader.chunksRead = p.bodies.length ∧
      d.reader.buffersReused = repeats p.lengths := by
  intro p d
  have hnew := holds_new limits
  have hrun : Agrees (new limits) ((new limits).run w) p := run_agrees _ w _ hnew rfl
  have hd : d = _ := feed_eq_run (new limits) w
  refine ⟨?_, ?_, ?_, ?_, ?_, ?_⟩
  · rw [hd]
    exact hrun.chunks
  · cases herror : p.tail.error? <;>
      simp only [hd, Reading.result_delivery, hrun.error, hrun.chunks, herror]
  · intro e rest htail
    obtain ⟨reached, hsplit, hparse⟩ := Grammar.exists_reached htail
    refine ⟨reached, hsplit, fun v => ?_⟩
    have hreached := hparse []
    rw [List.append_nil] at hreached
    have herror : ((new limits).run reached).error? ≠ none := by
      rw [(run_agrees limits.maxChunkLen reached _ hnew rfl).error, hreached]
      exact Option.some_ne_none e
    rw [hd, hsplit, feed_eq_run, run_append_of_error v herror, run_append_of_error rest herror]
  · rw [hd]
    exact hrun.holds.shows
  · rw [hd]
    exact hrun.chunksRead.trans (Nat.zero_add _)
  · rw [hd]
    refine hrun.buffersReused.trans ?_
    rw [show (new limits).body.size = 0 from rfl, show (new limits).buffersReused = 0 from rfl,
      Nat.zero_add, Grammar.repeats_zero_cons fun n hn => Grammar.pos_of_mem_lengths hn]

end Reader

end ChunkRouter.Frame
