import Mathlib.Logic.Relation
import ChunkRouter.ByteStream.Transfer
import ChunkRouter.Proofs.Frame.Midway

/-!
# Reading a stream to its end

A stream yields bytes in pieces of any size and then ends or fails (`Yields`). Reading it out delivers what
feeding those bytes delivers, and `read_to_end_classifies` says how it ends: with the error of a length
prefix as soon as that prefix is there, with the stream's failure, or at the end of the stream with what
that end cuts off. A single read stays inside the chunk in progress.
-/

namespace ChunkRouter

open ChunkRouter.ByteStream (Inlet RelayError)
open ChunkRouter.Frame.Grammar (Tail parse wire)

/-! ## Ends -/

/-- What a stream comes to that ends here. -/
def Frame.Grammar.Tail.ending : Tail → Except RelayError Unit
  | .header [] => .ok ()
  | .header got => .error (.eof (.midHeader got.length prefixSize))
  | .body n got => .error (.eof (.midChunk got.length n))
  | .bad e _ => .error (.framing e)

theorem Frame.Grammar.Tail.ending_of_error {tail : Tail} {e : Frame.FramingError}
    (h : tail.error? = some e) : tail.ending = .error (.framing e) := by
  cases tail with
  | bad e' rest => rw [ending, Option.some.inj h]
  | header got | body n got => cases h

/-- The end of a stream is timely if nothing is left of it. -/
theorem Frame.Reader.Holds.checkEof {r : Reader} {tail : Tail} (h : r.Holds tail)
    (hok : tail.error? = none) : (Inlet.checkEof r).mapError .eof = tail.ending := by
  have hshows := h.shows
  unfold Inlet.checkEof
  cases tail with
  | header got =>
    obtain ⟨-, hidle, hpending, hbuffered⟩ := hshows
    rw [hidle, hpending, hbuffered]
    cases got <;> rfl
  | body n got =>
    obtain ⟨-, hidle, hpending, hbuffered⟩ := hshows
    rw [hidle, hpending, hbuffered]
    rfl
  | bad e rest => cases hok

namespace ByteStream

open ChunkRouter.Frame (Reader Limits FramingError)

/-- What reading out `count` chunks and this tail comes to, on a stream that ends or fails behind it. -/
def verdict (tail : Tail) (failure : Option IoKind) (count : Nat) : Except RelayError Nat :=
  match tail, failure with
  | .bad e _, _ => .error (.framing e)
  | _, some kind => .error (.io (.ofKind kind))
  | tail, none => tail.ending.map fun _ => count

/-! ## What a stream yields -/

/-- A stream with these turns yields these bytes, and then ends or fails. No piece is empty, since a read
of no bytes is the end. -/
inductive Yields : List ReadTurn → Bytes → Option IoKind → Prop where
  | exhausted : Yields [] [] none
  | eof (later : List ReadTurn) : Yields (.eof :: later) [] none
  | fail (kind : IoKind) (later : List ReadTurn) : Yields (.fail kind :: later) [] (some kind)
  | pending {turns : List ReadTurn} {w : Bytes} {failure : Option IoKind} :
      Yields turns w failure → Yields (.pending :: turns) w failure
  | data {turns : List ReadTurn} {w : Bytes} {failure : Option IoKind} (piece : Bytes) :
      piece ≠ [] → Yields turns w failure → Yields (.data piece :: turns) (piece ++ w) failure

/-- The answer of a stream to a read at its end. -/
def ended : Option IoKind → Except IoError Bytes
  | none => .ok []
  | some kind => .error (.ofKind kind)

variable {turns : List ReadTurn} {w : Bytes} {failure : Option IoKind}

/-- A read gives a front of the bytes, or the end if there are none. -/
theorem Yields.readTurns (h : Yields turns w failure) {room : Nat} (hroom : 0 < room)
    (calls : List Call) :
    (w = [] ∧ (Script.readTurns room turns calls).1 = ended failure) ∨
      ∃ u v, w = u ++ v ∧ u ≠ [] ∧ u.length ≤ room ∧
        (Script.readTurns room turns calls).1 = .ok u ∧
        Yields (Script.readTurns room turns calls).2.1 v failure := by
  induction h generalizing calls with
  | exhausted => exact .inl ⟨rfl, rfl⟩
  | eof later => exact .inl ⟨rfl, rfl⟩
  | fail kind later => exact .inl ⟨rfl, rfl⟩
  | pending _ ih => exact ih _
  | @data turns w failure piece hpiece hlater ih =>
    have hpos : 0 < piece.length := List.length_pos_iff.2 hpiece
    refine .inr ⟨piece.take room, piece.drop room ++ w, ?_, ?_, ?_, rfl, ?_⟩
    · rw [← List.append_assoc, List.take_append_drop]
    · apply List.ne_nil_of_length_pos
      rw [List.length_take]
      omega
    · exact List.length_take_le _ _
    · simp only [Script.readTurns]
      by_cases hrest : piece.drop room = []
      · rw [hrest]
        exact hlater
      · rw [if_neg (by simpa using hrest)]
        exact .data _ hrest hlater

theorem Yields.read {s : Script} (h : Yields s.reads w failure) {room : Nat} (hroom : 0 < room) :
    (w = [] ∧ ∃ s', s.read room = (s', ended failure)) ∨
      ∃ s' u v, w = u ++ v ∧ u ≠ [] ∧ u.length ≤ room ∧ s.read room = (s', .ok u) ∧
        Yields s'.reads v failure := by
  rcases h.readTurns hroom s.calls with ⟨hw, hresult⟩ | ⟨u, v, hw, hne, hle, hresult, hlater⟩
  · exact .inl ⟨hw, (s.read room).1, Prod.ext rfl hresult⟩
  · exact .inr ⟨(s.read room).1, u, v, hw, hne, hle, Prod.ext rfl hresult, hlater⟩

theorem Script.readTurns_le {room : Nat} {calls : List Call} {bytes : Bytes}
    (h : (readTurns room turns calls).1 = .ok bytes) : bytes.length ≤ room := by
  fun_induction readTurns room turns calls with
  | case1 calls | case4 calls turns =>
    cases h
    exact Nat.zero_le _
  | case2 calls turns ih => exact ih h
  | case3 calls kind turns => cases h
  | case5 calls piece turns rest =>
    cases h
    exact List.length_take_le _ _

/-- No stream gives more than there is room for. -/
theorem Script.length_le_of_read {s s' : Script} {room : Nat} {bytes : Bytes}
    (h : s.read room = (s', .ok bytes)) : bytes.length ≤ room :=
  readTurns_le (congrArg Prod.snd h)

/-! ## One read -/

namespace Inlet

variable {i j : Inlet}

/-- What a read answers that ends the reading: the error of a length prefix, or the end of the stream. -/
def lastAnswer : Option FramingError → Option IoKind → Except RelayError ReadStatus
  | some e, _ => .error (.framing e)
  | none, some kind => .error (.io (.ofKind kind))
  | none, none => .ok .eof

/-- A read runs the reader over what the stream gave. -/
theorem readOnce_of_read {stream : Script} {u : Bytes}
    (hread : i.stream.read i.reader.space = (stream, .ok u)) (hne : u ≠ []) :
    i.readOnce = (⟨stream, (i.reader.run u).reader⟩,
      match (i.reader.run u).error? with
      | some e => .error (.framing e)
      | none => .ok (.progress u.length (i.reader.run u).chunks.head?)) := by
  have hle := Script.length_le_of_read hread
  have hpos : 0 < u.length := List.length_pos_iff.2 hne
  have hrun := Reader.run_eq_advance hne hle
  rw [readOnce, if_neg (by omega), hread]
  rcases u with _ | ⟨b, u⟩
  · exact absurd rfl hne
  dsimp only
  rcases hadvance : (i.reader.fill (b :: u)).advance (b :: u).length with ⟨r', e | chunk⟩
  · rw [hadvance] at hrun
    rw [hrun]
  · rw [hadvance] at hrun
    rw [hrun]
    cases chunk <;> rfl

/-- A read at the end of a stream. -/
theorem readOnce_of_ended {stream : Script} (hspace : 0 < i.reader.space)
    (hread : i.stream.read i.reader.space = (stream, ended failure)) :
    i.readOnce = (⟨stream, i.reader⟩, lastAnswer none failure) := by
  unfold readOnce
  rw [if_neg (Nat.ne_of_gt hspace), hread]
  cases failure <;> rfl

/-- A poisoned reader leaves the stream alone. -/
theorem readOnce_of_poisoned (h : i.reader.poisoned = true) :
    i.readOnce = (i, .error (.framing .poisoned)) := by
  unfold readOnce
  rw [if_pos]
  rw [Reader.space, h]
  rfl

/-! ## Reading on -/

/-- One read that makes progress. -/
def Advances (i j : Inlet) : Prop := ∃ n chunk, i.readOnce = (j, .ok (.progress n chunk))

/-- What reading a stream out comes to, when the last read left `reader` and gave this answer. -/
def conclusion (reader : Reader) : Except RelayError ReadStatus → Except RelayError Nat
  | .error e => .error e
  | .ok _ => ((checkEof reader).mapError .eof).map fun _ => reader.chunksRead

theorem readLoop_of_error {e : RelayError} (h : i.readOnce = (j, .error e)) (acc : List Bytes) :
    i.readLoop acc = (j, acc, .error e) := by
  rw [readLoop]
  split <;> rename_i hfirst <;> rw [h] at hfirst <;> cases hfirst
  rfl

theorem readLoop_of_eof (h : i.readOnce = (j, .ok .eof)) (acc : List Bytes) :
    i.readLoop acc = (j, acc, conclusion j.reader (.ok .eof)) := by
  rw [readLoop]
  split <;> rename_i hfirst <;> rw [h] at hfirst <;> cases hfirst
  rw [conclusion]
  cases checkEof j.reader <;> rfl

theorem readLoop_of_progress {n : Nat} {chunk : Option Bytes}
    (h : i.readOnce = (j, .ok (.progress n chunk))) (acc : List Bytes) :
    i.readLoop acc = j.readLoop (chunk.toList ++ acc) := by
  rw [readLoop]
  split <;> rename_i hfirst <;> rw [h] at hfirst <;> cases hfirst
  rfl

theorem readLoop_of_last {error? : Option FramingError}
    (h : i.readOnce = (j, lastAnswer error? failure)) (acc : List Bytes) :
    i.readLoop acc = (j, acc, conclusion j.reader (lastAnswer error? failure)) := by
  cases error? with
  | some e => exact readLoop_of_error h acc
  | none =>
    cases failure with
    | some kind => exact readLoop_of_error h acc
    | none => exact readLoop_of_eof h acc

/-- How reading a stream ends that yields `w`. -/
structure ReadsOut (i : Inlet) (w : Bytes) (failure : Option IoKind) (acc : List Bytes)
    (out : Inlet × List Bytes × Except RelayError Nat) : Prop where
  reader : out.1.reader = (i.reader.run w).reader
  chunks : out.2.1 = (i.reader.run w).chunks.reverse ++ acc
  /-- The last read follows reads that make progress, and nothing follows it. -/
  reads : ∃ j, Relation.ReflTransGen Advances i j ∧
    j.readOnce = (out.1, lastAnswer (i.reader.run w).error? failure)
  result : out.2.2 = conclusion out.1.reader (lastAnswer (i.reader.run w).error? failure)

/-- The first read may be the last one. -/
theorem readsOut_of_last (hreader : j.reader = (i.reader.run w).reader)
    (hchunks : (i.reader.run w).chunks = [])
    (h : i.readOnce = (j, lastAnswer (i.reader.run w).error? failure)) (acc : List Bytes) :
    ReadsOut i w failure acc (i.readLoop acc) := by
  rw [readLoop_of_last h]
  refine ⟨hreader, ?_, ⟨i, .refl, h⟩, rfl⟩
  rw [hchunks]
  rfl

/-- Bytes that raise no error come before what the reading goes on to do. -/
theorem ReadsOut.of_read {u v : Bytes} {n : Nat} {chunk : Option Bytes} {acc : List Bytes}
    {out : Inlet × List Bytes × Except RelayError Nat}
    (hfirst : i.readOnce = (j, .ok (.progress n chunk))) (hreader : j.reader = (i.reader.run u).reader)
    (hchunks : (i.reader.run u).chunks = chunk.toList) (hok : (i.reader.run u).error? = none)
    (h : ReadsOut j v failure (chunk.toList ++ acc) out) : ReadsOut i (u ++ v) failure acc out := by
  have hrun : i.reader.run (u ++ v) = (j.reader.run v).after chunk.toList := by
    rw [Reader.run_append, if_pos hok, ← hreader, hchunks]
  have hreads := h.reads
  have hresult := h.result
  constructor
  case reader => rw [hrun, h.reader]; rfl
  case chunks =>
    have hsingle : chunk.toList.reverse = chunk.toList := by cases chunk <;> rfl
    rw [hrun, h.chunks, Reader.Reading.chunks_after, List.reverse_append, hsingle, List.append_assoc]
  case reads =>
    obtain ⟨k, hrest, hlast⟩ := hreads
    rw [hrun]
    exact ⟨k, .head ⟨n, chunk, hfirst⟩ hrest, hlast⟩
  case result => rw [hrun]; exact hresult

theorem toList_head?_of_length_le {chunks : List Bytes} (h : chunks.length ≤ 1) :
    chunks.head?.toList = chunks := by
  rcases chunks with _ | ⟨c, _ | ⟨d, more⟩⟩
  · rfl
  · rfl
  · simp at h

/-- **Reading a stream out is feeding what it yields**, up to the first error, with the answer that the
last read and the reader give. -/
theorem readsOut_readLoop {i : Inlet} (hs : i.reader.Sound) (hp : i.reader.poisoned = false)
    (h : Yields i.stream.reads w failure) (acc : List Bytes) :
    ReadsOut i w failure acc (i.readLoop acc) := by
  -- each read that makes progress leaves less to be read
  induction hlength : w.length using Nat.strongRecOn generalizing i w acc with
  | ind length ih =>
    have hroom : 0 < i.reader.space := by
      rw [Reader.space, hp]
      exact hs.room hp
    rcases h.read hroom with ⟨rfl, stream, hread⟩ | ⟨stream, u, v, rfl, hne, -, hread, hlater⟩
    · exact readsOut_of_last (j := ⟨stream, i.reader⟩) rfl rfl (readOnce_of_ended hroom hread) acc
    · have hfirst := readOnce_of_read hread hne
      have hwithin := hs.run_within hp hne (Script.length_le_of_read hread)
      cases herror : (i.reader.run u).error? with
      | some e =>
        rw [herror] at hfirst
        have herr : (i.reader.run u).error? ≠ none := herror ▸ Option.some_ne_none e
        have hrun : i.reader.run (u ++ v) = i.reader.run u := Reader.run_append_of_error v herr
        refine readsOut_of_last (j := ⟨stream, (i.reader.run u).reader⟩) ?_ ?_ ?_ acc
        · rw [hrun]
        · rw [hrun]
          exact (hwithin.2.2 herr).1
        · rw [hrun, herror]
          exact hfirst
      | none =>
        rw [herror] at hfirst
        have hchunks := (toList_head?_of_length_le hwithin.1).symm
        have hp' : (i.reader.run u).reader.poisoned = false := by
          rw [← Bool.not_eq_true, hs.poisoned_run hp, herror]
          exact fun hnot => hnot rfl
        rw [readLoop_of_progress hfirst]
        refine ReadsOut.of_read hfirst rfl hchunks herror (ih v.length ?_ (hs.run u) hp' hlater _ rfl)
        have hpos : 0 < u.length := List.length_pos_iff.2 hne
        rw [← hlength, List.length_append]
        omega

/-! ## Staying in the chunk -/

/-- A read that neither fails nor meets the end was given bytes. -/
theorem exists_read_of_readOnce {a : Except RelayError ReadStatus} (hspace : 0 < i.reader.space)
    (h : i.readOnce = (j, a)) (hio : ∀ e, a ≠ .error (.io e)) (heof : a ≠ .ok .eof) :
    ∃ stream u, i.stream.read i.reader.space = (stream, .ok u) ∧ u ≠ [] := by
  rcases hread : i.stream.read i.reader.space with ⟨stream, e | u⟩
  · unfold readOnce at h
    rw [if_neg (Nat.ne_of_gt hspace), hread] at h
    exact absurd (congrArg Prod.snd h).symm (hio e)
  · refine ⟨stream, u, rfl, ?_⟩
    rintro rfl
    unfold readOnce at h
    rw [if_neg (Nat.ne_of_gt hspace), hread] at h
    exact absurd (congrArg Prod.snd h).symm heof

/-- A read that makes progress moves bytes from the stream to the chunk in progress, and completes that
chunk or not. -/
theorem held_of_progress {n : Nat} {chunk : Option Bytes} (hs : i.reader.Sound)
    (ht : i.reader.Rested) (h : i.readOnce = (j, .ok (.progress n chunk))) :
    ∃ u, i.stream.read i.reader.space = (j.stream, .ok u) ∧ u.length = n ∧ 0 < n ∧
      i.reader.held ++ u = wire chunk.toList ++ j.reader.held ∧
      (chunk ≠ none → j.reader.held = []) := by
  cases hp : i.reader.poisoned with
  | true =>
    rw [readOnce_of_poisoned hp] at h
    cases h
  | false =>
    have hspace : 0 < i.reader.space := by
      rw [Reader.space, hp]
      exact hs.room hp
    obtain ⟨stream, u, hread, hne⟩ :=
      exists_read_of_readOnce hspace h (by intro e he; cases he) (by intro he; cases he)
    obtain ⟨hone, hempty, -⟩ := hs.run_within hp hne (Script.length_le_of_read hread)
    rw [readOnce_of_read hread hne] at h
    cases herror : (i.reader.run u).error? with
    | some e =>
      rw [herror] at h
      cases h
    | none =>
      have hheld := hs.held_append ht hp herror
      rw [herror] at h
      cases h
      have hchunks := toList_head?_of_length_le hone
      refine ⟨u, hread, rfl, List.length_pos_iff.2 hne, hchunks.symm ▸ hheld, fun hsome => ?_⟩
      apply hempty
      intro hnil
      rw [hnil] at hsome
      exact hsome rfl

/-- A read that raises an error ends right behind a length prefix. -/
theorem length_held_of_error {e : FramingError} (hs : i.reader.Sound)
    (hp : i.reader.poisoned = false) (h : i.readOnce = (j, .error (.framing e))) :
    ∃ u, i.stream.read i.reader.space = (j.stream, .ok u) ∧
      (i.reader.held ++ u).length = Frame.prefixSize := by
  have hspace : 0 < i.reader.space := by
    rw [Reader.space, hp]
    exact hs.room hp
  obtain ⟨stream, u, hread, hne⟩ :=
    exists_read_of_readOnce hspace h (by intro e he; cases he) (by intro he; cases he)
  obtain ⟨-, -, hbehind⟩ := hs.run_within hp hne (Script.length_le_of_read hread)
  rw [readOnce_of_read hread hne] at h
  cases herror : (i.reader.run u).error? with
  | none =>
    rw [herror] at h
    cases h
  | some e' =>
    rw [herror] at h
    cases h
    exact ⟨u, hread, (hbehind (herror ▸ Option.some_ne_none _)).2⟩

/-- What a reader shows is what the wire ends with. -/
theorem conclusion_eq_verdict {reader : Reader} {tail : Tail} (h : reader.Holds tail)
    (failure : Option IoKind) :
    conclusion reader (lastAnswer tail.error? failure) =
      verdict tail failure reader.chunksRead := by
  cases tail with
  | bad e rest => rfl
  | header got =>
    cases failure with
    | some kind => rfl
    | none =>
      show ((checkEof reader).mapError RelayError.eof).map _ = _
      rw [h.checkEof rfl]
      rfl
  | body n got =>
    cases failure with
    | some kind => rfl
    | none =>
      show ((checkEof reader).mapError RelayError.eof).map _ = _
      rw [h.checkEof rfl]
      rfl

end Inlet

/-- **Reading to the end classifies every stream.** Take a reader after any operations, and a stream that
yields `w` and then ends or fails. A poisoned reader leaves the stream alone. Any other delivers what
feeding it `w` delivers, the chunks of what it held and `w`; the verdict is that of the bytes behind the
last of them, which are less than a chunk unless a length prefix was bad; and the reading consists of reads
that make progress and the one with the last answer, which a bad length prefix is at once. A read, on any
stream, moves bytes into the chunk in progress only. -/
theorem read_to_end_classifies (limits : Limits) (ops : List Reader.Op) (stream : Script)
    (h : Yields stream.reads w failure) :
    let r := ops.foldl Reader.operate (.new limits)
    let i : Inlet := ⟨stream, r⟩
    let out := i.readToEnd
    let p := parse limits.maxChunkLen (r.held ++ w)
    (r.poisoned = true → out = (i, [], .error (.framing .poisoned))) ∧
      (r.poisoned = false →
        out.1.reader = (r.feed w).reader ∧ out.2.1 = (r.feed w).chunks ∧ out.2.1 = p.bodies ∧
          (∀ e, (r.feed w).result = .error e ↔ p.tail.error? = some e) ∧
          out.2.2 = verdict p.tail failure (r.chunksRead + p.bodies.length) ∧
          p.tail.Within limits.maxChunkLen ∧ out.1.reader.Shows p.tail ∧
          out.1.reader.chunksRead = r.chunksRead + p.bodies.length ∧
          ∃ j, Relation.ReflTransGen Inlet.Advances i j ∧
            j.readOnce = (out.1, Inlet.lastAnswer p.tail.error? failure)) ∧
      (∀ (s : Script) j n chunk, Inlet.readOnce ⟨s, r⟩ = (j, .ok (.progress n chunk)) →
        ∃ u, s.read r.space = (j.stream, .ok u) ∧ u.length = n ∧ 0 < n ∧
          r.held ++ u = wire chunk.toList ++ j.reader.held ∧
          (chunk ≠ none → j.reader.held = [])) ∧
      ∀ (s : Script) j e, r.poisoned = false →
        Inlet.readOnce ⟨s, r⟩ = (j, .error (.framing e)) →
        ∃ u, s.read r.space = (j.stream, .ok u) ∧ (r.held ++ u).length = Frame.prefixSize := by
  intro r i out p
  have hs : r.Sound := (Reader.sound_new limits).foldl ops
  have ht : r.Rested := Reader.rested_foldl (Reader.rested_new limits) ops
  have hlimits : r.limits = limits := Reader.limits_foldl _ ops
  refine ⟨fun hp => ?_, fun hp => ?_, fun s j n chunk hread => Inlet.held_of_progress hs ht hread,
    fun s j e hp hread => Inlet.length_held_of_error hs hp hread⟩
  · show i.readToEnd = _
    rw [Inlet.readToEnd, Inlet.readLoop_of_error (Inlet.readOnce_of_poisoned hp)]
    rfl
  · have hout := Inlet.readsOut_readLoop (i := i) hs hp h []
    have hfollows := hs.run_follows ht hp w
    rw [hlimits] at hfollows
    have hreader : out.1.reader = (r.run w).reader := by
      show (i.readLoop []).1.reader = _
      exact hout.reader
    have hchunks : out.2.1 = (r.run w).chunks := by
      show (i.readLoop []).2.1.reverse = _
      rw [hout.chunks, List.append_nil, List.reverse_reverse]
    have hresult : out.2.2 = Inlet.conclusion out.1.reader (Inlet.lastAnswer p.tail.error? failure) := by
      rw [← hfollows.error]
      exact hout.result
    have hholds : out.1.reader.Holds p.tail := hreader ▸ hfollows.holds
    have hcount : out.1.reader.chunksRead = r.chunksRead + p.bodies.length :=
      hreader ▸ hfollows.chunksRead
    obtain ⟨j, hreads, hlast⟩ := hout.reads
    refine ⟨?_, ?_, hchunks.trans hfollows.chunks, fun e => ?_, ?_,
      Frame.Grammar.within_parse _ _, hholds.shows, hcount, j, hreads, ?_⟩
    · rw [hreader, Reader.feed_eq_run]
      rfl
    · rw [hchunks, Reader.feed_eq_run]
      rfl
    · rw [Reader.feed_eq_run, Reader.Reading.result_delivery, hfollows.error]
      cases p.tail.error? with
      | none =>
        constructor
        · intro hok
          cases hok
        · intro hnone
          cases hnone
      | some e' =>
        constructor
        · intro he
          cases he
          rfl
        · intro he
          cases he
          rfl
    · rw [hresult, Inlet.conclusion_eq_verdict hholds, hcount]
    · rw [← hfollows.error]
      exact hlast

/-- A reader that has delivered a chunk and holds three bytes of the next length prefix; the stream ends in
the body after that. -/
theorem read_to_end_in_a_body :
    let ops := [Reader.Op.feed [0, 0, 0, 1, 5], .drip [0, 0, 0] 2]
    let stream : Script := ⟨[.data [2], .pending, .data [7, 8, 0], .data [0, 0], .data [3, 1], .eof],
      [], [], [], []⟩
    let r := ops.foldl Reader.operate (.new .standard)
    let out := Inlet.readToEnd ⟨stream, r⟩
    Yields stream.reads [2, 7, 8, 0, 0, 0, 3, 1] none ∧ r.poisoned = false ∧ r.held = [0, 0, 0] ∧
      out.2 = ([[7, 8]], .error (.eof (.midChunk 1 3))) := by
  intro ops stream r out
  have hyields : Yields stream.reads [2, 7, 8, 0, 0, 0, 3, 1] none :=
    .data [2] (by decide) <| .pending <| .data [7, 8, 0] (by decide) <|
      .data [0, 0] (by decide) <| .data [3, 1] (by decide) <| .eof []
  have hp : r.poisoned = false := by decide +kernel
  have hheld : r.held = [0, 0, 0] := by decide +kernel
  obtain ⟨-, hout, -⟩ := read_to_end_classifies .standard ops stream hyields
  obtain ⟨-, -, hchunks, -, hresult, -⟩ := hout hp
  have hparse : parse Limits.standard.maxChunkLen (r.held ++ [2, 7, 8, 0, 0, 0, 3, 1]) =
      ⟨[[7, 8]], .body 3 [1]⟩ := by
    rw [hheld]
    decide +kernel
  rw [hparse] at hchunks hresult
  exact ⟨hyields, hp, hheld, Prod.ext hchunks hresult⟩

end ByteStream

end ChunkRouter
