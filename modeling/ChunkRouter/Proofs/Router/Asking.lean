import ChunkRouter.Proofs.ByteStream.Flushing
import ChunkRouter.Proofs.Message.Budget
import ChunkRouter.Proofs.Router.Replies
import ChunkRouter.Router.Client

/-!
# Requests of a client

A client makes one chunk of every request that fits, and a send that goes well has put all of them on
the wire. The router answers such a request with a rejection just when decoding it costs more than the
budget, which a request may do though its chunk is short enough.
-/

namespace ChunkRouter.Router

open ChunkRouter.ByteStream (Script)
open ChunkRouter.Frame (Traffic)
open ChunkRouter.Frame.Grammar (parse wire)
open Message (Reply Request)
open Wire (decodeLimit)

/-! ## Chunks of requests -/

section

variable {r : Request}

/-- What the router makes of the chunk of a request. -/
theorem Inbound.ofChunk_encode (h : r.encode.length ≤ Frame.maxBodyLen) :
    ofChunk r.encode =
      if r.peak ≤ decodeLimit then .request r else .malformed "LimitExceeded" := by
  unfold ofChunk
  rw [Request.decode_encode h]
  by_cases hpeak : r.peak ≤ decodeLimit
  · rw [if_pos hpeak, if_pos hpeak]
  · rw [if_neg hpeak, if_neg hpeak]
    rfl

/-- The right reply to a request is a rejection just when its peak is beyond the budget. -/
theorem Answers.rejected_iff {reply : Reply} (hreply : Answers r.encode reply)
    (h : r.encode.length ≤ Frame.maxBodyLen) :
    ((∃ reason, reply = .rejected reason) ↔ decodeLimit < r.peak) ∧
      (decodeLimit < r.peak → reply = .rejected "LimitExceeded") := by
  have hdecode := Request.decode_encode h
  by_cases hpeak : r.peak ≤ decodeLimit
  · rw [if_pos hpeak] at hdecode
    have hnot : ¬ decodeLimit < r.peak := Nat.not_lt.2 hpeak
    refine ⟨⟨?_, fun hlt => absurd hlt hnot⟩, fun hlt => absurd hlt hnot⟩
    rintro ⟨reason, rfl⟩
    cases hreply with
    | undecodable herror => cases hdecode.symm.trans herror
    | trailing hok hrest =>
      cases hdecode.symm.trans hok
      exact absurd rfl hrest
  · rw [if_neg hpeak] at hdecode
    have hlt : decodeLimit < r.peak := Nat.not_le.1 hpeak
    have hrejected : reply = .rejected "LimitExceeded" := by
      cases hreply with
      | ping hok => cases hdecode.symm.trans hok
      | echo hok => cases hdecode.symm.trans hok
      | batch hok _ _ => cases hdecode.symm.trans hok
      | undecodable herror =>
        cases hdecode.symm.trans herror
        rfl
      | trailing hok _ => cases hdecode.symm.trans hok
    exact ⟨⟨fun _ => hlt, fun _ => ⟨_, hrejected⟩⟩, fun _ => hrejected⟩

end

/-! ## Clients -/

/-- The client after sending some requests, whether that went well or not. -/
def Client.sends (c : Client) (requests : List Request) : Client :=
  requests.foldl (fun c r => (c.send r).1) c

/-- The bodies of the requests that are not refused for their length. -/
def admitted (limits : Frame.Limits) (requests : List Request) : List Bytes :=
  (requests.map Request.encode).filter fun body => body.length ≤ limits.maxChunkLen

/-- A client that has made chunks of `bodies`, in order, and nothing else. -/
structure Client.Asks (c : Client) (limits : Frame.Limits) (bodies : List Bytes) : Prop where
  balanced : Traffic.Balanced ⟨c.writer, c.stream.accepted, bodies⟩
  staged : c.writer.staged = []
  limits : c.writer.limits = limits

namespace Client

variable {c : Client} {limits : Frame.Limits} {bodies : List Bytes} {stream : Script}

theorem asks_new (hfresh : stream.calls = []) : (new stream limits).Asks limits [] where
  balanced := by
    have hnone : stream.accepted = [] := by rw [Script.accepted_eq, hfresh]; rfl
    show Traffic.Balanced ⟨.new limits, stream.accepted, []⟩
    rw [hnone]
    exact Traffic.balanced_new limits
  staged := rfl
  limits := rfl

/-- A request that is too long changes nothing. -/
theorem Asks.send_of_long (h : c.Asks limits bodies) {r : Request}
    (hlong : limits.maxChunkLen < r.encode.length) :
    c.send r = (c, .error (.framing (.oversized r.encode.length limits.maxChunkLen))) := by
  have hzero : c.writer.stagedLen = 0 := h.balanced.sound.staged_eq_nil_iff.1 h.staged
  have hwrite : c.writer.write r.encode =
      (c.writer, .error (.oversized r.encode.length limits.maxChunkLen)) := by
    have hlt : c.writer.limits.maxChunkLen < c.writer.stagedLen + r.encode.length := by
      rw [h.limits, hzero]
      omega
    rw [Frame.Writer.write_of_lt hlt, hzero, Nat.zero_add, h.limits]
  rw [Client.send, hwrite]

/-- A request that fits becomes a chunk, and a send that goes well leaves nothing unsent. -/
theorem Asks.send_of_fits (h : c.Asks limits bodies) {r : Request}
    (hfits : r.encode.length ≤ limits.maxChunkLen) :
    (c.send r).1.Asks limits (bodies ++ [r.encode]) ∧
      ((c.send r).2 = .ok () → (c.send r).1.stream.accepted = wire (bodies ++ [r.encode])) := by
  obtain ⟨v, w, n, hwrite, hcomplete, hbalanced, hstaged, hlimits⟩ :=
    h.balanced.writeChunk h.staged r.encode_ne_nil (h.limits ▸ hfits)
  have hflushed := ByteStream.Outlet.flushLoop_balanced (o := ⟨c.stream, w⟩) hbalanced 0
  rw [Client.send, hwrite]
  simp only [hcomplete, Client.flush, ByteStream.Outlet.flush]
  generalize ByteStream.Outlet.flushLoop ⟨c.stream, w⟩ 0 = flushed at hflushed
  obtain ⟨⟨stream, w'⟩, result⟩ := flushed
  obtain ⟨hbalanced', hstaged', hlimits', hready⟩ := hflushed
  refine ⟨⟨hbalanced', hstaged'.trans hstaged, hlimits'.trans (hlimits.trans h.limits)⟩, fun hok => ?_⟩
  cases result with
  | error e => cases hok
  | ok k =>
    have hbytes : stream.accepted ++ w'.unsent = wire (bodies ++ [r.encode]) := hbalanced'.bytes
    have hunsent : w'.unsent = [] := by
      rw [Frame.Writer.unsent, show w'.ready = [] from hready k rfl]
      rfl
    rw [← hbytes, hunsent, List.append_nil]

theorem Asks.sends (h : c.Asks limits bodies) (requests : List Request) :
    (c.sends requests).Asks limits (bodies ++ admitted limits requests) := by
  induction requests generalizing c bodies with
  | nil =>
    rw [admitted, List.map_nil, List.filter_nil, List.append_nil]
    exact h
  | cons r requests ih =>
    by_cases hfits : r.encode.length ≤ limits.maxChunkLen
    · have hrest := ih (h.send_of_fits hfits).1
      rw [List.append_assoc] at hrest
      have hadmitted : admitted limits (r :: requests) = [r.encode] ++ admitted limits requests :=
        List.filter_cons_of_pos (decide_eq_true hfits)
      rw [hadmitted]
      exact hrest
    · have hadmitted : admitted limits (r :: requests) = admitted limits requests :=
        List.filter_cons_of_neg (by simpa using hfits)
      rw [hadmitted]
      have hsame := h.send_of_long (Nat.not_le.1 hfits)
      show ((c.send r).1.sends requests).Asks limits _
      rw [hsame]
      exact ih h

/-- A send that went well has put the request on the wire, behind those before it that were not
refused. -/
theorem accepted_of_send (hfresh : stream.calls = []) {earlier : List Request} {r : Request}
    (hsend : (((new stream limits).sends earlier).send r).2 = .ok ()) :
    r.encode.length ≤ limits.maxChunkLen ∧
      (((new stream limits).sends earlier).send r).1.stream.accepted =
        wire (admitted limits earlier ++ [r.encode]) := by
  have hnew : (new stream limits).Asks limits [] := asks_new hfresh
  have h := hnew.sends earlier
  rw [List.nil_append] at h
  by_cases hfits : r.encode.length ≤ limits.maxChunkLen
  · exact ⟨hfits, (h.send_of_fits hfits).2 hsend⟩
  · rw [h.send_of_long (Nat.not_le.1 hfits)] at hsend
    cases hsend

end Client

/-! ## Answers -/

section

variable {config : Config} {acts : List Service.Act} {s : Service} {i : Nat} {d : Connection}
  {bodies front : List Bytes}

/-- A connection of a service whose peer sends well-formed chunks: every chunk that arrived is accounted
for. -/
theorem Service.serves (hmax : 128 ≤ config.frame.maxChunkLen)
    (hrun : (Service.new config).run acts = some s) (hd : s.connections[i]? = some d)
    (hbodies : ∀ b ∈ bodies, 1 ≤ b.length ∧ b.length ≤ config.frame.maxChunkLen)
    (hpeer : Connection.Fair (wire bodies) [] (Service.actsOf i acts)) :
    ∃ answers opened collected,
      Serves config d (Connection.received (Service.actsOf i acts))
          (parse config.frame.maxChunkLen (Connection.received (Service.actsOf i acts))).bodies
          answers opened collected ∧
        (parse config.frame.maxChunkLen (Connection.received (Service.actsOf i acts))).bodies <+:
          bodies := by
  obtain ⟨id, hown⟩ := (Service.follows_run hrun).runs i d hd
  obtain ⟨chunks, answers, opened, collected, h⟩ :=
    (serves_new config id).run hmax hbodies List.nil_prefix hpeer hown
  rw [List.nil_append] at h
  obtain ⟨hchunks, -⟩ := h.reads.parsed
  subst hchunks
  exact ⟨answers, opened, collected, h, h.completed hbodies (arrived_of_fair List.nil_prefix hpeer)⟩

/-- A wire that begins as the one of some chunks does is one of these chunks and others. -/
theorem prefix_of_wire_prefix {limits : Frame.Limits}
    (hfront : ∀ b ∈ front, 1 ≤ b.length ∧ b.length ≤ limits.maxChunkLen)
    (hbodies : ∀ b ∈ bodies, 1 ≤ b.length ∧ b.length ≤ limits.maxChunkLen)
    (h : wire front <+: wire bodies) : front <+: bodies := by
  have hpart := (Frame.Reader.run_part hbodies h).2
  rw [(Frame.Reader.run_wire hfront).2.1] at hpart
  exact hpart

end

/-- **A request is rejected only if it is beyond the budget.** A request whose bytes fit a chunk comes
back from them, and is what the router gets to see, if its peak is within the budget; otherwise
decoding says that it is not. When a client has sent a request without an error, and the router's peer
sends what the client did and any well-formed chunks behind it, then whatever is done in the service
and in whatever order, what is written is the front of right answers, and the one to that request is a
rejection just when the request is beyond the budget. -/
theorem rejected_iff_beyond_budget :
    (∀ r : Request, r.encode.length ≤ Frame.defaultMaxChunkLen →
      Request.decode r.encode =
          (if r.peak ≤ decodeLimit then .ok (r, []) else .error .limitExceeded) ∧
        Inbound.ofChunk r.encode =
          (if r.peak ≤ decodeLimit then .request r else .malformed "LimitExceeded")) ∧
    ∀ (limits : Frame.Limits) (stream : Script) (earlier : List Request) (r : Request),
      stream.calls = [] →
      (((Client.new stream limits).sends earlier).send r).2 = .ok () →
      ∀ (config : Config) (bodies : List Bytes) (acts : List Service.Act) (s : Service) (i : Nat)
        (d : Connection),
        128 ≤ config.frame.maxChunkLen → limits.maxChunkLen ≤ config.frame.maxChunkLen →
        (∀ b ∈ bodies, 1 ≤ b.length ∧ b.length ≤ config.frame.maxChunkLen) →
        (((Client.new stream limits).sends earlier).send r).1.stream.accepted <+: wire bodies →
        (Service.new config).run acts = some s → s.connections[i]? = some d →
        Connection.Fair (wire bodies) [] (Service.actsOf i acts) →
        let got := Connection.received (Service.actsOf i acts)
        let chunks := (parse config.frame.maxChunkLen got).bodies
        r.encode.length ≤ limits.maxChunkLen ∧
          ∃ answers, Correct chunks answers ∧ d.written <+: wire (answers.map fun a => a.2.encode) ∧
            ∀ reply, ((admitted limits earlier).length, reply) ∈ answers →
              ((∃ reason, reply = .rejected reason) ↔ decodeLimit < r.peak) ∧
                (decodeLimit < r.peak → reply = .rejected "LimitExceeded") := by
  refine ⟨fun r hlen => ?_, ?_⟩
  · have hframe : r.encode.length ≤ Frame.maxBodyLen := Nat.le_trans hlen (by decide)
    exact ⟨Request.decode_encode hframe, Inbound.ofChunk_encode hframe⟩
  intro limits stream earlier r hfresh hsend config bodies acts s i d hmax hlimits hbodies hbegin hrun
    hd hpeer got chunks
  obtain ⟨hfits, haccepted⟩ := Client.accepted_of_send hfresh hsend
  rw [haccepted] at hbegin
  have hadmitted : ∀ b ∈ admitted limits earlier ++ [r.encode],
      1 ≤ b.length ∧ b.length ≤ config.frame.maxChunkLen := by
    intro b hb
    rcases List.mem_append.1 hb with hb | hb
    · obtain ⟨hmem, hle⟩ := List.mem_filter.1 hb
      obtain ⟨r', -, rfl⟩ := List.mem_map.1 hmem
      exact ⟨List.length_pos_iff.2 r'.encode_ne_nil, Nat.le_trans (of_decide_eq_true hle) hlimits⟩
    · cases List.mem_singleton.1 hb
      exact ⟨List.length_pos_iff.2 r.encode_ne_nil, Nat.le_trans hfits hlimits⟩
  obtain ⟨answers, opened, collected, h, hchunks⟩ := Service.serves hmax hrun hd hbodies hpeer
  refine ⟨hfits, answers, h.attends.correct, h.written, fun reply hreply => ?_⟩
  obtain ⟨chunk, hget, hanswers⟩ := h.attends.accounts.right _ hreply
  have hchunk : chunk = r.encode := by
    obtain ⟨more, hmore⟩ := prefix_of_wire_prefix hadmitted hbodies hbegin
    obtain ⟨rest, hrest⟩ := hchunks
    have hhere : (chunks ++ rest)[(admitted limits earlier).length]? = some chunk := by
      rw [List.getElem?_append_left (List.getElem?_eq_some_iff.1 hget).1]
      exact hget
    rw [hrest, ← hmore, List.append_assoc, List.getElem?_append_right (Nat.le_refl _),
      Nat.sub_self] at hhere
    exact (Option.some.inj hhere).symm
  subst hchunk
  exact hanswers.rejected_iff (Nat.le_trans hfits limits.maxChunkLen_le)

/-- A client sends a ping and an echo on a stream that takes five bytes at first, and the router answers
both. -/
theorem rejected_iff_beyond_budget_behind_a_ping :
    let stream : Script := ⟨[], [.accept 5], [], [], []⟩
    let client := (Client.new stream .standard).sends [.ping 1]
    let acts : List Connection.Act := [.receive [0, 0, 0, 2], .receive [0, 1],
      .receive [0, 0, 0, 3], .receive [1, 1, 9], .takeTurn 0, .visit, .visit, .visit, .collect,
      .collect, .beginSending, .send 6, .send 7, .release]
    (client.send (.echo [9])).2 = .ok () ∧
      ∃ s d, (Service.new .standard).run (.accept :: acts.map (.connection 0)) = some s ∧
        s.connections[0]? = some d ∧ d.written = wire [[0, 1], [1, 1, 9]] ∧
        ∃ answers, Correct [[0, 1], [1, 1, 9]] answers ∧
          d.written <+: wire (answers.map fun a => a.2.encode) ∧
          ∀ reply, (1, reply) ∈ answers → ¬ ∃ reason, reply = .rejected reason := by
  intro stream client acts
  have hsend : (client.send (.echo [9])).2 = .ok () := by
    have hok : (client.send (.echo [9])).2.toBool = true := by decide +kernel
    cases hresult : (client.send (.echo [9])).2 with
    | error e =>
      rw [hresult] at hok
      cases hok
    | ok u => rfl
  have hwritten : (((Service.new .standard).run (.accept :: acts.map (.connection 0))).bind fun s =>
      s.connections[0]?.map Connection.written) = some (wire [[0, 1], [1, 1, 9]]) := by
    decide +kernel
  obtain ⟨s, hrun, hwritten⟩ := Option.bind_eq_some_iff.1 hwritten
  obtain ⟨d, hd, hwritten⟩ := Option.map_eq_some_iff.1 hwritten
  have hacts : Service.actsOf 0 (.accept :: acts.map (.connection 0)) = acts := by rfl
  have haccepted := (Client.accepted_of_send rfl hsend).2
  obtain ⟨-, answers, hcorrect, hfront, hreplies⟩ :=
    rejected_iff_beyond_budget.2 .standard stream [.ping 1] (.echo [9]) rfl hsend .standard
      [[0, 1], [1, 1, 9]] _ s 0 d (by decide) (Nat.le_refl _) (by decide)
      (by rw [haccepted]; exact List.prefix_rfl) hrun hd (by rw [hacts]; decide)
  have hchunks : (parse Config.standard.frame.maxChunkLen (Connection.received acts)).bodies =
      [[0, 1], [1, 1, 9]] := by decide +kernel
  rw [hacts, hchunks] at hcorrect
  exact ⟨hsend, s, d, hrun, hd, hwritten, answers, hcorrect, hfront, fun reply hreply hrejected =>
    absurd ((hreplies reply hreply).1.1 hrejected) (by decide)⟩

/-- A batch of one large item and many empty ones fits a chunk, and is beyond the budget: the router
takes it for no request. -/
theorem large_batch_beyond_budget :
    let r : Request := .batch 0 (List.replicate 16753300 0 :: List.replicate 999 [])
    r.encode.length ≤ Frame.defaultMaxChunkLen ∧ Request.decode r.encode = .error .limitExceeded ∧
      Inbound.ofChunk r.encode = .malformed "LimitExceeded" := by
  have hlarge : (List.replicate 16753300 (0 : UInt8)).length = 16753300 := List.length_replicate
  generalize List.replicate 16753300 (0 : UInt8) = large at hlarge ⊢
  intro r
  have hempty : ((List.replicate 999 []).flatMap Wire.encodeBytes).length = 999 := by decide +kernel
  have hlength : r.encode.length = 16754309 := by
    rw [Request.encode, Wire.encodeBytesList, List.flatMap_cons, Wire.encodeBytes, List.length_cons,
      List.length_cons, List.length_replicate, hlarge]
    simp only [List.length_append, hempty, hlarge]
    decide +kernel
  have hpeak : decodeLimit < r.peak := by
    have hrest := Request.le_peakOfItems (List.replicate 999 [])
    have hlater := Nat.le_max_right
      (Wire.Cursor.itemClaim * ((List.replicate 999 ([] : Bytes)).length + 1))
      (8 + large.length + Request.peakOfItems (List.replicate 999 []))
    rw [List.length_replicate] at hrest
    rw [hlarge] at hlater
    rw [Request.peak, Request.peakOfItems, hlarge]
    unfold Wire.Cursor.itemClaim at *
    unfold decodeLimit
    omega
  have hframe : r.encode.length ≤ Frame.maxBodyLen := by rw [hlength]; decide
  refine ⟨by rw [hlength]; decide, ?_, ?_⟩
  · rw [Request.decode_encode hframe, if_neg (Nat.not_le.2 hpeak)]
  · rw [Inbound.ofChunk_encode hframe, if_neg (Nat.not_le.2 hpeak)]

end ChunkRouter.Router
