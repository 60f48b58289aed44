import ChunkRouter.Proofs.ByteStream.ReadingOut
import ChunkRouter.Router.Client

/-!
# Replies in the order of their arrival

What a client receives depends on the bytes that its stream yields and on nothing else that it does.
`Due` says which chunks are yet to come and how the stream ends behind them, wherever the reads stop; a
receive takes the first of these chunks, whether it decodes or not, and comes to the end once there is
none left.
-/

namespace ChunkRouter

open ChunkRouter.ByteStream (Inlet Outlet RelayError Script Yields)
open ChunkRouter.Frame.Grammar (Tail parse)
open Message (Reply Request)

/-! ## Writing leaves the reads alone -/

namespace ByteStream

theorem Script.reads_write {s s' : Script} {bytes : Bytes} {result : Except IoError Nat}
    (h : s.write bytes = (s', result)) : s'.reads = s.reads := by
  unfold write at h
  split at h <;> cases h <;> rfl

theorem Outlet.reads_flushLoop (o : Outlet) (finished : Nat) :
    (o.flushLoop finished).1.stream.reads = o.stream.reads := by
  fun_induction flushLoop o finished with
  | case1 o finished hready stream e hflush => exact congrArg (fun r => r.1.reads) hflush.symm
  | case2 o finished hready stream hflush => exact congrArg (fun r => r.1.reads) hflush.symm
  | case3 o finished front ready hready stream e hwrite => exact Script.reads_write hwrite
  | case4 o finished front ready hready stream hwrite => exact Script.reads_write hwrite
  | case5 o finished front ready hready stream n hwrite hn w e hrefused => exact Script.reads_write hwrite
  | case6 o finished front ready hready stream n hwrite hn w hadvance ih =>
    exact ih.trans (Script.reads_write hwrite)

theorem reads_writeAll (s : Script) (bytes : Bytes) : (writeAll s bytes).1.reads = s.reads := by
  fun_induction writeAll s bytes with
  | case1 s => rfl
  | case2 s bytes hb s' e hwrite => exact Script.reads_write hwrite
  | case3 s bytes hb s' hwrite => exact Script.reads_write hwrite
  | case4 s bytes hb s' n hwrite hn ih => exact ih.trans (Script.reads_write hwrite)

end ByteStream

namespace Router

/-! ## What a client does -/

namespace Client

/-- What is done with a client. -/
inductive Act where
  | send (request : Request)
  | sendRaw (bytes : Bytes)
  | finish
  | receive

/-- The client afterwards, whether that went well or not. -/
def act (c : Client) : Act → Client
  | .send request => (c.send request).1
  | .sendRaw bytes => (c.sendRaw bytes).1
  | .finish => c.finish.1
  | .receive => c.receive.1

def after (c : Client) (acts : List Act) : Client := acts.foldl act c

/-- How many times something is received. -/
def receives : List Act → Nat
  | [] => 0
  | .receive :: acts => receives acts + 1
  | _ :: acts => receives acts

/-- Two clients that receive the same. -/
structure Alike (c c' : Client) : Prop where
  reads : c'.stream.reads = c.stream.reads
  reader : c'.reader = c.reader
  inbox : c'.inbox = c.inbox

variable {c : Client}

theorem alike_send (c : Client) (request : Request) : c.Alike (c.send request).1 := by
  unfold send
  split
  · exact ⟨rfl, rfl, rfl⟩
  split
  · exact ⟨rfl, rfl, rfl⟩
  · rename_i writer n hcomplete
    exact ⟨Outlet.reads_flushLoop ⟨c.stream, writer⟩ 0, rfl, rfl⟩

theorem alike_sendRaw (c : Client) (bytes : Bytes) : c.Alike (c.sendRaw bytes).1 := by
  have hreads := ByteStream.reads_writeAll c.stream bytes
  unfold sendRaw
  split
  · rename_i stream e hwrite
    rw [hwrite] at hreads
    exact ⟨hreads, rfl, rfl⟩
  · rename_i stream hwrite
    rw [hwrite] at hreads
    exact ⟨hreads, rfl, rfl⟩

theorem alike_finish (c : Client) : c.Alike c.finish.1 := ⟨rfl, rfl, rfl⟩

/-! ## One receive -/

/-- What is received of a chunk: the reply at its front. -/
def replyOf (chunk : Bytes) : Except RelayError (Option Reply) :=
  match Reply.decode chunk with
  | .ok (reply, _) => .ok (some reply)
  | .error e => .error (.decode e)

theorem receive_of_inbox {chunk : Bytes} {inbox : List Bytes} (h : c.inbox = chunk :: inbox) :
    c.receive = ({ c with inbox := inbox }, replyOf chunk) := by
  rw [receive]
  split
  · rename_i chunk' inbox' hsplit
    obtain ⟨rfl, rfl⟩ := List.cons.inj (h.symm.trans hsplit)
    unfold replyOf
    dsimp only
    cases Reply.decode chunk <;> rfl
  · rename_i hnone
    cases h.symm.trans hnone

variable {i : Inlet}

theorem receive_of_error {e : RelayError} (h : c.inbox = [])
    (hread : Inlet.readOnce ⟨c.stream, c.reader⟩ = (i, .error e)) :
    c.receive = ({ c with stream := i.stream, reader := i.reader }, .error e) := by
  rw [receive]
  split
  · rename_i hsome
    cases h.symm.trans hsome
  · split <;> rename_i hfirst <;> rw [hread] at hfirst <;> cases hfirst
    rfl

theorem receive_of_eof (h : c.inbox = [])
    (hread : Inlet.readOnce ⟨c.stream, c.reader⟩ = (i, .ok .eof)) :
    c.receive = ({ c with stream := i.stream, reader := i.reader },
      ((Inlet.checkEof i.reader).mapError .eof).map fun _ => none) := by
  rw [receive]
  split
  · rename_i hsome
    cases h.symm.trans hsome
  · split <;> rename_i hfirst <;> rw [hread] at hfirst <;> cases hfirst
    dsimp only
    cases Inlet.checkEof i.reader <;> rfl

theorem receive_of_progress {n : Nat} {chunk : Option Bytes} (h : c.inbox = [])
    (hread : Inlet.readOnce ⟨c.stream, c.reader⟩ = (i, .ok (.progress n chunk))) :
    c.receive =
      receive { c with stream := i.stream, reader := i.reader, inbox := chunk.toList } := by
  rw [receive]
  split
  · rename_i hsome
    cases h.symm.trans hsome
  · split <;> rename_i hfirst <;> rw [hread] at hfirst <;> cases hfirst
    rfl

/-! ## What is yet to come -/

/-- The chunks that are yet to be received, `bodies`, and what the stream comes to behind them. -/
structure Due (c : Client) (w : Bytes) (bodies : List Bytes) (tail : Tail) : Prop where
  yields : Yields c.stream.reads w none
  sound : c.reader.Sound
  healthy : c.reader.poisoned = false
  chunks : c.inbox ++ (c.reader.run w).chunks = bodies
  error : (c.reader.run w).error? = tail.error?
  holds : (c.reader.run w).reader.Holds tail

/-- After an error of the framing nothing more is received. -/
structure Broken (c : Client) : Prop where
  poisoned : c.reader.poisoned = true
  inbox : c.inbox = []

variable {c' : Client} {w : Bytes} {bodies : List Bytes} {tail : Tail}

theorem due_new {stream : Script} (h : Yields stream.reads w none) (limits : Frame.Limits) :
    (new stream limits).Due w (parse limits.maxChunkLen w).bodies (parse limits.maxChunkLen w).tail := by
  have hagrees :=
    Frame.Reader.run_agrees limits.maxChunkLen w _ (Frame.Reader.holds_new limits) rfl
  exact ⟨h, Frame.Reader.sound_new limits, rfl, hagrees.chunks, hagrees.error, hagrees.holds⟩

theorem Due.of_alike (h : c.Due w bodies tail) (halike : c.Alike c') : c'.Due w bodies tail := by
  obtain ⟨hyields, hsound, hhealthy, hchunks, herror, hholds⟩ := h
  rw [← halike.reads] at hyields
  rw [← halike.reader] at hsound hhealthy hchunks herror hholds
  rw [← halike.inbox] at hchunks
  exact ⟨hyields, hsound, hhealthy, hchunks, herror, hholds⟩

theorem Broken.of_alike (h : c.Broken) (halike : c.Alike c') : c'.Broken := by
  obtain ⟨hpoisoned, hinbox⟩ := h
  rw [← halike.reader] at hpoisoned
  rw [← halike.inbox] at hinbox
  exact ⟨hpoisoned, hinbox⟩

theorem Broken.receive (h : c.Broken) : c.receive = (c, .error (.framing .poisoned)) :=
  receive_of_error h.inbox (Inlet.readOnce_of_poisoned h.poisoned)

theorem Due.space_pos (h : c.Due w bodies tail) : 0 < c.reader.space := by
  rw [Frame.Reader.space, h.healthy]
  exact h.sound.room h.healthy

/-- At the end of the stream. -/
theorem Due.receive_of_ended (h : c.Due [] bodies tail) (hinbox : c.inbox = []) {stream : Script}
    (hread : c.stream.read c.reader.space = (stream, ByteStream.ended none)) :
    bodies = [] ∧ tail.error? = none ∧ c.receive.2 = tail.ending.map fun _ => none := by
  have heof : Inlet.readOnce ⟨c.stream, c.reader⟩ = (⟨stream, c.reader⟩, .ok .eof) :=
    Inlet.readOnce_of_ended (i := ⟨c.stream, c.reader⟩) h.space_pos hread
  have hnone : bodies = [] := by
    rw [← h.chunks, hinbox]
    rfl
  have hok : tail.error? = none := h.error.symm
  refine ⟨hnone, hok, ?_⟩
  have hend : (Inlet.checkEof c.reader).mapError .eof = tail.ending := h.holds.checkEof hok
  rw [receive_of_eof hinbox heof]
  show ((Inlet.checkEof c.reader).mapError RelayError.eof).map _ = _
  rw [hend]

/-- A length prefix that is bad. -/
theorem Due.receive_of_bad {u v : Bytes} {stream : Script} {e : Frame.FramingError}
    (h : c.Due (u ++ v) bodies tail) (hinbox : c.inbox = []) (hne : u ≠ [])
    (hread : c.stream.read c.reader.space = (stream, .ok u))
    (herror : (c.reader.run u).error? = some e) :
    bodies = [] ∧ c.receive.2 = tail.ending.map (fun _ => none) ∧ c.receive.1.Broken := by
  have herr : (c.reader.run u).error? ≠ none := herror ▸ Option.some_ne_none e
  have hrun : c.reader.run (u ++ v) = c.reader.run u := Frame.Reader.run_append_of_error v herr
  have hwithin := h.sound.run_within h.healthy hne (ByteStream.Script.length_le_of_read hread)
  have hfirst := Inlet.readOnce_of_read (i := ⟨c.stream, c.reader⟩) hread hne
  simp only [herror] at hfirst
  have hnone : bodies = [] := by
    rw [← h.chunks, hinbox, hrun, (hwithin.2.2 herr).1]
    rfl
  have htail : tail.error? = some e := by rw [← h.error, hrun, herror]
  rw [receive_of_error hinbox hfirst, Tail.ending_of_error htail]
  exact ⟨hnone, rfl, (h.sound.poisoned_run h.healthy u).2 herr, hinbox⟩

/-- Bytes that raise no error leave less to be read, and the same to be received. -/
theorem Due.receive_of_piece {u v : Bytes} {stream : Script} (h : c.Due (u ++ v) bodies tail)
    (hinbox : c.inbox = []) (hne : u ≠ [])
    (hread : c.stream.read c.reader.space = (stream, .ok u)) (hlater : Yields stream.reads v none)
    (hok : (c.reader.run u).error? = none) :
    ∃ c' : Client, c'.Due v bodies tail ∧ c.receive = c'.receive := by
  have hwithin := h.sound.run_within h.healthy hne (ByteStream.Script.length_le_of_read hread)
  have hfirst := Inlet.readOnce_of_read (i := ⟨c.stream, c.reader⟩) hread hne
  simp only [hok] at hfirst
  have hchunks := Inlet.toList_head?_of_length_le hwithin.1
  have hrun : c.reader.run (u ++ v) =
      ((c.reader.run u).reader.run v).after (c.reader.run u).chunks := by
    rw [Frame.Reader.run_append, if_pos hok]
  have hhealthy : (c.reader.run u).reader.poisoned = false := by
    rw [← Bool.not_eq_true, h.sound.poisoned_run h.healthy, hok]
    exact fun hnot => hnot rfl
  refine ⟨_, ⟨hlater, h.sound.run u, hhealthy, ?_, ?_, ?_⟩, receive_of_progress hinbox hfirst⟩
  · rw [hchunks, ← h.chunks, hinbox, hrun]
    rfl
  · rw [← h.error, hrun]
    rfl
  · have hholds := h.holds
    rw [hrun] at hholds
    exact hholds

/-- **A receive takes the first chunk that is due**, or comes to the end if there is none. -/
theorem Due.receive (h : c.Due w bodies tail) :
    (∃ body later w', bodies = body :: later ∧ c.receive.2 = replyOf body ∧
        c.receive.1.Due w' later tail) ∨
      (bodies = [] ∧ c.receive.2 = tail.ending.map (fun _ => none) ∧
        (tail.error? ≠ none → c.receive.1.Broken)) := by
  -- each read that completes no chunk leaves less to be read
  induction hlength : w.length using Nat.strongRecOn generalizing c w with
  | ind length ih =>
    rcases hinbox : c.inbox with _ | ⟨chunk, inbox⟩
    · rcases h.yields.read h.space_pos with
        ⟨rfl, stream, hread⟩ | ⟨stream, u, v, rfl, hne, -, hread, hlater⟩
      · obtain ⟨hnone, hok, hresult⟩ := h.receive_of_ended hinbox hread
        exact .inr ⟨hnone, hresult, fun herr => absurd hok herr⟩
      cases herror : (c.reader.run u).error? with
      | some e =>
        obtain ⟨hnone, hresult, hbroken⟩ := h.receive_of_bad hinbox hne hread herror
        exact .inr ⟨hnone, hresult, fun _ => hbroken⟩
      | none =>
        obtain ⟨c', hdue, hsame⟩ := h.receive_of_piece hinbox hne hread hlater herror
        have hpos : 0 < u.length := List.length_pos_iff.2 hne
        have hless : v.length < length := by
          rw [← hlength, List.length_append]
          omega
        rw [hsame]
        exact ih v.length hless hdue rfl
    · have hchunks := h.chunks
      rw [hinbox] at hchunks
      rw [receive_of_inbox hinbox]
      exact .inl ⟨chunk, _, w, hchunks.symm, rfl, h.yields, h.sound, h.healthy, rfl, h.error, h.holds⟩

/-! ## Any number of receives -/

/-- The client of a stream that comes to `bodies` and `tail`, after `n` receives. -/
def Awaits (c : Client) (bodies : List Bytes) (tail : Tail) (n : Nat) : Prop :=
  (∃ w, n ≤ bodies.length ∧ c.Due w (bodies.drop n) tail) ∨
    (bodies.length < n ∧ (tail.error? ≠ none → c.Broken))

variable {n : Nat}

theorem Awaits.receive (h : c.Awaits bodies tail n) : c.receive.1.Awaits bodies tail (n + 1) := by
  rcases h with ⟨w, hle, hdue⟩ | ⟨hlt, hbroken⟩
  · rcases hdue.receive with ⟨body, later, w', hbodies, -, hlater⟩ | ⟨hnone, -, hbroken⟩
    · have hdrop : bodies.drop (n + 1) = later := by
        rw [← List.drop_drop, hbodies]
        rfl
      have hlt : n < bodies.length := by
        rw [← Nat.not_le, ← List.drop_eq_nil_iff, hbodies]
        exact List.cons_ne_nil body later
      exact .inl ⟨w', hlt, hdrop ▸ hlater⟩
    · rw [List.drop_eq_nil_iff] at hnone
      exact .inr ⟨Nat.lt_succ_of_le hnone, hbroken⟩
  · refine .inr ⟨Nat.lt_succ_of_lt hlt, fun herr => ?_⟩
    rw [(hbroken herr).receive]
    exact hbroken herr

theorem Awaits.of_alike (h : c.Awaits bodies tail n) (halike : c.Alike c') :
    c'.Awaits bodies tail n := by
  rcases h with ⟨w, hle, hdue⟩ | ⟨hlt, hbroken⟩
  · exact .inl ⟨w, hle, hdue.of_alike halike⟩
  · exact .inr ⟨hlt, fun herr => (hbroken herr).of_alike halike⟩

theorem Awaits.after (h : c.Awaits bodies tail n) (acts : List Act) :
    (c.after acts).Awaits bodies tail (n + receives acts) := by
  induction acts generalizing c n with
  | nil => exact h
  | cons a acts ih =>
    cases a with
    | receive =>
      have hrest := ih h.receive
      rw [Nat.add_assoc, Nat.add_comm 1] at hrest
      exact hrest
    | send request => exact ih (h.of_alike (c.alike_send request))
    | sendRaw bytes => exact ih (h.of_alike (c.alike_sendRaw bytes))
    | finish => exact ih (h.of_alike c.alike_finish)

/-- **Every reply is received once, in order.** The client of a stream that yields `w`, in pieces of any
size, and ends receives the chunks of `w` before the first bad length, one by one, whatever else it
does: each as the reply at its front, or as the error of decoding it, which concerns no other chunk. The
next receive comes to the end of `w`, that is to the error of the bad length, to no reply on a chunk
boundary, or to the error of an untimely end. After a bad length no receive does anything. -/
theorem receives_in_order (limits : Frame.Limits) (stream : Script) {w : Bytes}
    (h : Yields stream.reads w none) (acts : List Act) :
    let p := parse limits.maxChunkLen w
    let c := (new stream limits).after acts
    (∀ body, p.bodies[receives acts]? = some body → c.receive.2 = replyOf body) ∧
      (receives acts = p.bodies.length → c.receive.2 = p.tail.ending.map fun _ => none) ∧
      (p.bodies.length < receives acts → p.tail.error? ≠ none →
        c.receive = (c, .error (.framing .poisoned))) := by
  intro p c
  have hnew : (new stream limits).Awaits p.bodies p.tail 0 :=
    .inl ⟨w, Nat.zero_le _, due_new h limits⟩
  have hc : c.Awaits p.bodies p.tail (receives acts) := Nat.zero_add (receives acts) ▸ hnew.after acts
  rcases hc with ⟨w', hle, hdue⟩ | ⟨hlt, hbroken⟩
  · refine ⟨fun body hbody => ?_, fun hall => ?_, fun hlt => absurd hle (Nat.not_le.2 hlt)⟩
    · obtain ⟨hlt, rfl⟩ := List.getElem?_eq_some_iff.1 hbody
      rw [List.drop_eq_getElem_cons hlt] at hdue
      rcases hdue.receive with ⟨body, later, -, hbodies, hreply, -⟩ | ⟨hnone, -, -⟩
      · obtain ⟨rfl, -⟩ := List.cons.inj hbodies
        exact hreply
      · cases hnone
    · rw [hall, List.drop_length] at hdue
      rcases hdue.receive with ⟨body, later, -, hbodies, -, -⟩ | ⟨-, hend, -⟩
      · cases hbodies
      · exact hend
  · refine ⟨fun body hbody => ?_, fun hall => ?_, fun _ herr => (hbroken herr).receive⟩
    · exact absurd (List.getElem?_eq_some_iff.1 hbody).1 (Nat.not_lt.2 (Nat.le_of_lt hlt))
    · exact absurd hall (Nat.ne_of_gt hlt)

/-- Three chunks, in pieces that stop anywhere, and a length of zero: a reply, a tag that is none, and a
reply with a byte behind it. A ping is sent in between, on a stream that refuses it. -/
theorem receives_in_order_to_a_bad_length :
    let stream : Script :=
      ⟨[.data [0, 0, 0, 2, 0], .pending, .data [7, 0, 0, 0, 1, 9, 0, 0], .data [0, 4, 1, 1, 5, 8, 0],
        .data [0, 0, 0, 3, 3]], [.fail .brokenPipe], [], [], []⟩
    let c := new stream .standard
    let acts : List Act := [.receive, .send (.ping 1), .receive]
    Yields stream.reads
        [0, 0, 0, 2, 0, 7, 0, 0, 0, 1, 9, 0, 0, 0, 4, 1, 1, 5, 8, 0, 0, 0, 0, 3, 3] none ∧
      c.receive.2 = .ok (some (.pong 7)) ∧
      (c.after [.receive]).receive.2 = .error (.decode (.unexpectedVariant "Reply" 3 9)) ∧
      (c.after acts).receive.2 = .ok (some (.echo [5])) ∧
      (c.after (acts ++ [.receive])).receive.2 = .error (.framing .empty) ∧
      (c.after (acts ++ [.receive, .receive])).receive.2 = .error (.framing .poisoned) := by
  intro stream c acts
  have hyields : Yields stream.reads
      [0, 0, 0, 2, 0, 7, 0, 0, 0, 1, 9, 0, 0, 0, 4, 1, 1, 5, 8, 0, 0, 0, 0, 3, 3] none :=
    .data [0, 0, 0, 2, 0] (by decide) <| .pending <| .data [7, 0, 0, 0, 1, 9, 0, 0] (by decide) <|
      .data [0, 4, 1, 1, 5, 8, 0] (by decide) <| .data [0, 0, 0, 3, 3] (by decide) .exhausted
  have hparse : parse Frame.Limits.standard.maxChunkLen
      [0, 0, 0, 2, 0, 7, 0, 0, 0, 1, 9, 0, 0, 0, 4, 1, 1, 5, 8, 0, 0, 0, 0, 3, 3] =
        ⟨[[0, 7], [9], [1, 1, 5, 8]], .bad .empty [3, 3]⟩ := by decide +kernel
  have hall := receives_in_order .standard stream hyields
  rw [hparse] at hall
  refine ⟨hyields, ?_, ?_, ?_, ?_, ?_⟩
  · exact (hall []).1 [0, 7] rfl
  · exact (hall [.receive]).1 [9] rfl
  · exact (hall acts).1 [1, 1, 5, 8] rfl
  · exact (hall (acts ++ [.receive])).2.1 rfl
  · have hlast := (hall (acts ++ [.receive, .receive])).2.2 (by decide) (Option.some_ne_none _)
    exact congrArg Prod.snd hlast

end Client

end Router

end ChunkRouter
