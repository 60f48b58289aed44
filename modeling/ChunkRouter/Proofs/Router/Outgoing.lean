import ChunkRouter.Proofs.ByteStream.Consecutive
import ChunkRouter.Proofs.Router.Asking
import ChunkRouter.Proofs.Router.Inbox

/-!
# Requests on a stream that fails

A send that fails leaves its request in the writer, whole chunks only, and the next send takes up where
it stopped. Receiving and closing the sending half have no part in this. So the bytes a stream has taken
are at every moment a front of the frames of the requests so far, however often it failed.
-/

namespace ChunkRouter

open ChunkRouter.ByteStream (Call Inlet IoError RelayError Script)
open ChunkRouter.Frame (Traffic)
open ChunkRouter.Frame.Grammar (wire)
open Message (Request)

/-! ## Reading leaves the accepted bytes alone -/

namespace ByteStream.Script

theorem taken_readTurns (room : Nat) (later : List ReadTurn) (calls : List Call) :
    (readTurns room later calls).2.2.reverse.flatMap Call.taken = calls.reverse.flatMap Call.taken := by
  have hone : ∀ calls : List Call,
      (Call.read room :: calls).reverse.flatMap Call.taken = calls.reverse.flatMap Call.taken := by
    intro calls
    rw [List.reverse_cons, List.flatMap_append]
    exact List.append_nil _
  fun_induction readTurns room later calls with
  | case1 calls => exact hone calls
  | case2 later calls ih => exact ih.trans (hone calls)
  | case3 kind later calls => exact hone calls
  | case4 later calls => exact hone calls
  | case5 bytes later calls => exact hone calls

theorem accepted_read (s : Script) (room : Nat) : (s.read room).1.accepted = s.accepted := by
  rw [accepted_eq, accepted_eq]
  exact taken_readTurns room s.reads s.calls

theorem accepted_shutdown (s : Script) : s.shutdown.1.accepted = s.accepted := by
  rw [accepted_eq, accepted_eq]
  exact taken_turns rfl s.shutdowns s.calls

/-- What was taken at an earlier moment is a front of what has been taken. -/
theorem accepted_prefix {s : Script} {calls : List Call} (h : calls <:+ s.calls) :
    ({ s with calls := calls } : Script).accepted <+: s.accepted := by
  obtain ⟨later, hlater⟩ := h
  rw [accepted_eq, accepted_eq, ← hlater, List.reverse_append, List.flatMap_append]
  exact List.prefix_append _ _

end ByteStream.Script

theorem ByteStream.Inlet.accepted_of_readOnce {i j : Inlet} {answer : Except RelayError ReadStatus}
    (h : i.readOnce = (j, answer)) : j.stream.accepted = i.stream.accepted := by
  have hread := i.stream.accepted_read i.reader.space
  unfold Inlet.readOnce at h
  split at h
  · cases h
    rfl
  split at h
  · rename_i hanswer
    rw [hanswer] at hread
    cases h
    exact hread
  · rename_i hanswer
    rw [hanswer] at hread
    cases h
    exact hread
  · rename_i hanswer
    rw [hanswer] at hread
    split at h <;> cases h <;> exact hread

namespace Router

namespace Client

/-! ## Everything but sending -/

/-- Neither has sent anything that the other has not. -/
structure Silent (c c' : Client) : Prop where
  writer : c'.writer = c.writer
  accepted : c'.stream.accepted = c.stream.accepted

theorem silent_receive (c : Client) : c.Silent c.receive.1 := by
  fun_induction receive c with
  | case1 | case2 => exact ⟨rfl, rfl⟩
  | case3 c hinbox i e hread => exact ⟨rfl, Inlet.accepted_of_readOnce hread⟩
  | case4 c hinbox i hread | case5 c hinbox i hread =>
    exact ⟨rfl, Inlet.accepted_of_readOnce (i := ⟨c.stream, c.reader⟩) hread⟩
  | case6 c hinbox i n chunk hread ih =>
    exact ⟨ih.writer, ih.accepted.trans (Inlet.accepted_of_readOnce hread)⟩

theorem silent_finish (c : Client) : c.Silent c.finish.1 := ⟨rfl, c.stream.accepted_shutdown⟩

/-! ## Sending -/

/-- What is sent, in order. -/
def requestsOf : List Act → List Request
  | [] => []
  | .send request :: acts => request :: requestsOf acts
  | _ :: acts => requestsOf acts

variable {c c' : Client} {limits : Frame.Limits} {bodies : List Bytes} {r : Request}

theorem Asks.of_silent (h : c.Asks limits bodies) (hsilent : c.Silent c') : c'.Asks limits bodies := by
  obtain ⟨hbalanced, hstaged, hlimits⟩ := h
  rw [← hsilent.writer] at hbalanced hstaged hlimits
  rw [← hsilent.accepted] at hbalanced
  exact ⟨hbalanced, hstaged, hlimits⟩

/-- Whatever comes of a send, its request is a chunk now if it is not too long. -/
theorem Asks.send (h : c.Asks limits bodies) (r : Request) :
    (c.send r).1.Asks limits (bodies ++ admitted limits [r]) :=
  h.sends [r]

theorem Asks.after (h : c.Asks limits bodies) (acts : List Act)
    (hraw : ∀ bytes, Act.sendRaw bytes ∉ acts) :
    (c.after acts).Asks limits (bodies ++ admitted limits (requestsOf acts)) := by
  induction acts generalizing c bodies with
  | nil => exact h.sends []
  | cons a acts ih =>
    have hrest : ∀ bytes, Act.sendRaw bytes ∉ acts := fun bytes hmem =>
      hraw bytes (List.mem_cons_of_mem _ hmem)
    cases a with
    | send request =>
      have hsent := ih (h.send request) hrest
      rw [List.append_assoc, admitted, admitted, ← List.filter_append, ← List.map_append] at hsent
      exact hsent
    | sendRaw bytes => exact absurd List.mem_cons_self (hraw bytes)
    | finish => exact ih (h.of_silent c.silent_finish) hrest
    | receive => exact ih (h.of_silent c.silent_receive) hrest

/-- A send of a request that fits fails for the stream's reasons only. -/
theorem Asks.error_of_send (h : c.Asks limits bodies) (hfits : r.encode.length ≤ limits.maxChunkLen)
    {e : RelayError} (he : (c.send r).2 = .error e) : ∃ kind, e = .io (.ofKind kind) := by
  obtain ⟨v, w, n, hwrite, hcomplete, hbalanced, -, -⟩ :=
    h.balanced.writeChunk h.staged r.encode_ne_nil (h.limits ▸ hfits)
  obtain ⟨asked, hflush⟩ :=
    ByteStream.Outlet.flushLoop_flushes (o := ⟨c.stream, w⟩) hbalanced.sound 0
  rw [Client.send, hwrite] at he
  simp only [hcomplete, Client.flush, ByteStream.Outlet.flush] at he
  -- the request is staged and completed by then, so it is the flush that failed
  have hfailed : (ByteStream.Outlet.flushLoop ⟨c.stream, w⟩ 0).2 = .error e := by
    cases hresult : (ByteStream.Outlet.flushLoop ⟨c.stream, w⟩ 0).2 with
    | ok k =>
      rw [hresult] at he
      cases he
    | error e' =>
      rw [hresult] at he
      cases he
      rfl
  rcases hflush.of_error e hfailed with ⟨hzero, -⟩ | ⟨kind, hkind, -⟩
  · exact ⟨_, hzero⟩
  · exact ⟨kind, hkind⟩

/-- **What a client sends stays whole, however its stream fails.** Take a client of a new stream that
sends, receives and closes its sending half in any order, each time well or not. At every moment the
bytes that the stream has taken are a front of the frames of the requests that are not too long, in the
order in which they were sent; the rest of these frames is in the writer. A request that is too long is
refused, and the client stays as it is. After any other request that is sent without an error the
stream has taken all of the frames; all errors but that one are the stream's own. -/
theorem sends_stay_whole (limits : Frame.Limits) (stream : Script) (hfresh : stream.calls = [])
    (acts : List Act) (hraw : ∀ bytes, Act.sendRaw bytes ∉ acts) :
    let c := (new stream limits).after acts
    let bodies := admitted limits (requestsOf acts)
    (∀ calls, calls <:+ c.stream.calls →
        ({ c.stream with calls := calls } : Script).accepted <+: wire bodies) ∧
      c.stream.accepted ++ c.writer.unsent = wire bodies ∧
      ∀ r : Request,
        (limits.maxChunkLen < r.encode.length →
          c.send r = (c, .error (.framing (.oversized r.encode.length limits.maxChunkLen)))) ∧
        ((c.send r).2 = .ok () → r.encode.length ≤ limits.maxChunkLen ∧
          (c.send r).1.stream.accepted = wire (bodies ++ [r.encode])) ∧
        ∀ e, (c.send r).2 = .error e → r.encode.length ≤ limits.maxChunkLen →
          ∃ kind, e = .io (.ofKind kind) := by
  intro c bodies
  have hnew : (new stream limits).Asks limits [] := asks_new hfresh
  have h : c.Asks limits bodies := hnew.after acts hraw
  have hbytes : c.stream.accepted ++ c.writer.unsent = wire bodies := h.balanced.bytes
  refine ⟨fun calls hcalls => ?_, hbytes, fun r => ⟨h.send_of_long, fun hok => ?_, fun e he hfits => ?_⟩⟩
  · obtain ⟨rest, hrest⟩ := Script.accepted_prefix hcalls
    rw [← hbytes, ← hrest, List.append_assoc]
    exact List.prefix_append _ _
  · by_cases hfits : r.encode.length ≤ limits.maxChunkLen
    · exact ⟨hfits, (h.send_of_fits hfits).2 hok⟩
    · rw [h.send_of_long (Nat.not_le.1 hfits)] at hok
      cases hok
  · exact h.error_of_send hfits he

/-- A stream that takes five bytes of an echo and fails. A longer echo is refused, and the ping behind it
takes the rest of the first one along. -/
theorem sends_stay_whole_behind_a_failure :
    let limits : Frame.Limits := .clamp 4 16
    let stream : Script := ⟨[], [.accept 5, .fail .timedOut], [], [], []⟩
    let acts : List Act := [.send (.echo [9]), .receive, .send (.echo [1, 2, 3]), .finish]
    let c := (new stream limits).after acts
    (∀ bytes, Act.sendRaw bytes ∉ acts) ∧ c.stream.accepted = [0, 0, 0, 3, 1] ∧
      c.send (.echo [1, 2, 3]) = (c, .error (.framing (.oversized 5 4))) ∧
      (c.send (.ping 1)).2 = .ok () ∧
      (c.send (.ping 1)).1.stream.accepted = [0, 0, 0, 3, 1, 1, 9, 0, 0, 0, 2, 0, 1] := by
  intro limits stream acts c
  have hraw : ∀ bytes, Act.sendRaw bytes ∉ acts := by simp [acts]
  have hsend : (c.send (.ping 1)).2 = .ok () := Wire.eq_ok_of_toOption (by decide +kernel)
  obtain ⟨-, -, hsends⟩ := sends_stay_whole limits stream rfl acts hraw
  have hwhole : wire (admitted limits (requestsOf acts) ++ [Request.encode (.ping 1)]) =
      [0, 0, 0, 3, 1, 1, 9, 0, 0, 0, 2, 0, 1] := by decide +kernel
  refine ⟨hraw, by decide +kernel, ?_, hsend, ?_⟩
  · exact (hsends (.echo [1, 2, 3])).1 (by decide)
  · exact ((hsends (.ping 1)).2.1 hsend).2.trans hwhole

end Client

end Router

end ChunkRouter
