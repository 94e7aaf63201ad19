import DaphneZmq.Router
import DaphneZmq.Theorems.Protobuf

/-! # Runs of the router

The loop of `run_router_server` gives every message its own round, so a run is judged message by message
(`serve_answers`): what the round has to do is said of the message and the state it finds. The loop ends early
only in a chunked dump that does not give control back. -/

namespace DaphneZmq
open Lib.Wire

namespace V2

theorem and_one_of_even {type : MessageTypeV2} (h : type.toInt % 2 = 0) : type &&& 1 = 0 := by
  have hnat : type.toBitVec.toNat % 2 = 0 := by
    rw [← Int32.toInt_toBitVec, BitVec.toInt_eq_toNat_cond] at h
    split at h <;> omega
  rw [← Int32.toBitVec_inj]
  apply BitVec.eq_of_toNat_eq
  simpa [Nat.and_one_is_mod] using hnat

theorem responseType_of_even {type : MessageTypeV2} (h0 : type ≠ 0) (heven : type.toInt % 2 = 0) :
    (responseType type).toInt = type.toInt + 1 := by
  have hlt := type.toInt_lt
  have hle := type.le_toInt
  have hone : (1 : Int32).toInt = 1 := rfl
  rw [responseType, if_neg h0, if_neg (not_not.mpr (and_one_of_even heven)), Int32.toInt_add, hone]
  exact Int.bmod_eq_of_le (by omega) (by omega)

theorem makeResponse_fields (clock : Nat → UInt64) (ids : Ids) (req : ControlEnvelopeV2) (type : MessageTypeV2)
    (payload : Bytes) : (makeResponse clock ids req type payload).1 =
      { version := 2, dir := Direction.dirResponse, type, payload, taskId := req.taskId, correlId := req.msgId,
        msgId := (nextMsgId (clock ids.readings) ids).1, route := req.route,
        timestampNs := clock (ids.readings + 1) } := by
  have hroute : (if req.route ≠ "" then req.route else "") = req.route := by
    split
    · rfl
    · rename_i h
      exact (not_not.mp h).symm
  simp only [makeResponse, hroute]
  rfl

end V2

namespace Router
variable {δ : Type} (R : Router δ)

/-- The message carries a request for the server: at least two frames, the last one no longer than the limit, and
    in it an envelope with version 2 and the direction of a request. -/
structure Carries (frames : List Bytes) (clientId : Bytes) (req : ControlEnvelopeV2) : Prop where
  two : 2 ≤ frames.length
  first : frames.head? = some clientId
  last : ∃ frame, frames.getLast? = some frame ∧ frame.length ≤ R.maxEnvelopeBytes ∧
    parseFromArray ControlEnvelopeV2.parseFromString frame = some req
  version : req.version = 2
  dir : req.dir = Direction.dirRequest

/-- The payload of the response: what the handler returns, if there is one and it does not throw. -/
def outputOf (st : State δ) (req : ControlEnvelopeV2) : Bytes :=
  match R.handlers req.type with
  | none => []
  | some handler =>
    match (handler req.payload st.device).1 with
    | .error _ => []
    | .ok payload => payload

/-- The response that a request must get. -/
structure Answers (st : State δ) (clientId : Bytes) (req : ControlEnvelopeV2) (r : Reply) : Prop where
  clientId : r.clientId = clientId
  version : r.envelope.version = 2
  dir : r.envelope.dir = Direction.dirResponse
  taskId : r.envelope.taskId = req.taskId
  correlId : r.envelope.correlId = req.msgId
  route : r.envelope.route = req.route
  type : req.type ≠ 0 → req.type.toInt % 2 = 0 → r.envelope.type.toInt = req.type.toInt + 1
  payload : r.envelope.payload = R.outputOf st req

theorem answers_reply (st st' : State δ) (clientId : Bytes) (req : ControlEnvelopeV2) :
    R.Answers st clientId req (R.reply st' clientId req (V2.responseType req.type) (R.outputOf st req)).1 := by
  have h := V2.makeResponse_fields R.clock st'.ids req (V2.responseType req.type) (R.outputOf st req)
  have henv : (R.reply st' clientId req (V2.responseType req.type) (R.outputOf st req)).1.envelope =
      (V2.makeResponse R.clock st'.ids req (V2.responseType req.type) (R.outputOf st req)).1 := rfl
  rw [h] at henv
  refine ⟨rfl, ?_, ?_, ?_, ?_, ?_, fun h0 heven => ?_, ?_⟩ <;> rw [henv]
  exact V2.responseType_of_even h0 heven

theorem serveRequest_answers (st : State δ) (clientId : Bytes) (req : ControlEnvelopeV2) :
    R.Answers st clientId req (R.serveRequest st clientId req).1 := by
  have hreply := fun st' => R.answers_reply st st' clientId req
  unfold outputOf at hreply
  unfold serveRequest
  cases hfind : R.handlers req.type with
  | none => simpa [hfind] using hreply st
  | some handler =>
    rcases hrun : handler req.payload st.device with ⟨error | payload, device⟩
    · simpa [hfind, hrun] using hreply { st with device }
    · simpa [hfind, hrun] using hreply { st with device }

/-! ### Chunk responses -/

theorem replyChunks_mem (clientId : Bytes) (req : ControlEnvelopeV2) (rs : List DumpSpyBuffersChunkResponse) :
    ∀ (st : State δ), ∀ r ∈ (R.replyChunks st clientId req rs).1, r.clientId = clientId ∧ r.envelope.version = 2 ∧
      r.envelope.dir = Direction.dirResponse ∧ r.envelope.type = MessageTypeV2.mt2DumpSpybufferChunkResp ∧
      r.envelope.taskId = req.taskId ∧ r.envelope.correlId = req.msgId := by
  induction rs with
  | nil => simp [replyChunks]
  | cons chunk rs ih =>
    intro st r hr
    rcases List.mem_cons.mp hr with rfl | hr
    · exact ⟨rfl, rfl, rfl, rfl, rfl, rfl⟩
    · exact ih _ r hr

@[simp] theorem reply_payload (st : State δ) (clientId : Bytes) (req : ControlEnvelopeV2) (type : MessageTypeV2)
    (payload : Bytes) : (R.reply st clientId req type payload).1.envelope.payload = payload := rfl

theorem replyChunks_payloads (clientId : Bytes) (req : ControlEnvelopeV2) (rs : List DumpSpyBuffersChunkResponse) :
    ∀ (st : State δ), (R.replyChunks st clientId req rs).1.map (·.envelope.payload) =
      rs.map fun r => serializeAsString r.fields := by
  induction rs with
  | nil => exact fun _ => rfl
  | cons chunk rs ih => simp [replyChunks, ih]

/-- The chunk responses to a chunk request: the refusal of a payload that cannot be parsed, or those of the dump. -/
theorem serveChunk_payloads (st : State δ) (clientId : Bytes) (req : ControlEnvelopeV2) :
    (R.serveChunk st clientId req).1.map (·.envelope.payload) =
      ((DumpSpyBuffersChunkRequest.parseFromString req.payload).elim [badPayload]
        fun chunkReq => (R.dump chunkReq st.device).1.responses).map fun r => serializeAsString r.fields := by
  unfold serveChunk
  cases DumpSpyBuffersChunkRequest.parseFromString req.payload with
  | none => exact R.replyChunks_payloads clientId req _ st
  | some chunkReq => exact R.replyChunks_payloads clientId req _ _

variable {R} {st : State δ} {frames : List Bytes} {clientId : Bytes} {req : ControlEnvelopeV2}

/-! ### One round -/

theorem serveMessage_of_carries (h : R.Carries frames clientId req) : R.serveMessage st frames =
    if req.type = MessageTypeV2.mt2DumpSpybufferChunkReq then R.serveChunk st clientId req
    else ([(R.serveRequest st clientId req).1], some (R.serveRequest st clientId req).2) := by
  obtain ⟨htwo, hfirst, ⟨payload, hlast, hsize, hparse⟩, hversion, hdir⟩ := h
  match frames, htwo, hfirst, hlast with
  | id :: frame :: rest, _, hfirst, hlast =>
    obtain rfl : id = clientId := by simpa using hfirst
    rw [List.getLast?_cons_cons, List.getLast?_eq_some_getLast (List.cons_ne_nil _ _), Option.some.injEq] at hlast
    simp only [serveMessage, hlast, hparse, hversion, hdir, Nat.not_lt.mpr hsize, ↓reduceIte, ne_eq, not_true_eq_false,
      or_self]

theorem serveMessage_of_not_carries (h : ∀ clientId req, ¬R.Carries frames clientId req) :
    R.serveMessage st frames = ([], some st) := by
  match frames with
  | [] | [_] => rfl
  | clientId :: frame :: rest =>
    unfold serveMessage
    simp only
    split
    · rfl
    rename_i hsize
    split
    · rfl
    rename_i req hparse
    split
    · rfl
    rename_i hhead
    rw [not_or, not_not, not_not] at hhead
    exact absurd ⟨by simp, rfl, ⟨_, List.getLast?_eq_some_getLast (List.cons_ne_nil _ _), Nat.le_of_not_lt hsize, hparse⟩,
      hhead.1, hhead.2⟩ (h clientId req)

/-! ### Runs -/

/-- One round answers the message as it has to: a request other than a chunk request gets one response, a message
    that carries no request gets none. -/
structure Served (R : Router δ) (st : State δ) (frames : List Bytes) (rs : List Reply) : Prop where
  request : ∀ clientId req, R.Carries frames clientId req → req.type ≠ MessageTypeV2.mt2DumpSpybufferChunkReq →
    ∃ r, rs = [r] ∧ R.Answers st clientId req r
  other : (¬∃ clientId req, R.Carries frames clientId req) → rs = []

/-- The message is a chunk request whose dump, started in state `st`, does not give control back. -/
def DumpLost (R : Router δ) (st : State δ) (frames : List Bytes) : Prop :=
  ∃ clientId req chunkReq, R.Carries frames clientId req ∧ req.type = MessageTypeV2.mt2DumpSpybufferChunkReq ∧
    DumpSpyBuffersChunkRequest.parseFromString req.payload = some chunkReq ∧
    (R.dump chunkReq st.device).1.comesBack = false

theorem served_serveMessage : R.Served st frames (R.serveMessage st frames).1 where
  request clientId req h htype := by
    rw [serveMessage_of_carries h, if_neg htype]
    exact ⟨_, rfl, R.serveRequest_answers st clientId req⟩
  other h := by
    rw [serveMessage_of_not_carries fun clientId req hc => h ⟨clientId, req, hc⟩]

/-- A round after which the loop does not go on is a chunked dump that is lost. -/
theorem dumpLost_of_stop (h : (R.serveMessage st frames).2 = none) : R.DumpLost st frames := by
  by_cases hc : ∃ clientId req, R.Carries frames clientId req
  · obtain ⟨clientId, req, hc⟩ := hc
    rw [serveMessage_of_carries hc] at h
    split at h
    · rename_i htype
      unfold serveChunk at h
      split at h
      · cases h
      · rename_i chunkReq hparse
        refine ⟨clientId, req, chunkReq, hc, htype, hparse, ?_⟩
        cases hback : (R.dump chunkReq st.device).1.comesBack
        · rfl
        · simp [hback] at h
    · cases h
  · rw [serveMessage_of_not_carries fun clientId req h => hc ⟨clientId, req, h⟩] at h
    cases h

theorem serve_cons (messages : List (List Bytes)) : R.serve st (frames :: messages) =
    (st, (R.serveMessage st frames).1) :: ((R.serveMessage st frames).2.elim [] fun st' => R.serve st' messages) := by
  rw [serve]
  rcases R.serveMessage st frames with ⟨rs, _ | st'⟩ <;> rfl

theorem served_of_serve (messages : List (List Bytes)) : ∀ (st : State δ) (i : Nat) (frames : List Bytes)
    (st' : State δ) (rs : List Reply), messages[i]? = some frames → (R.serve st messages)[i]? = some (st', rs) →
    R.Served st' frames rs := by
  induction messages with
  | nil => simp
  | cons frames messages ih =>
    intro st i frames' st' rs hframes hrs
    rw [serve_cons] at hrs
    cases i with
    | zero =>
      simp only [List.getElem?_cons_zero, Option.some.injEq, Prod.mk.injEq] at hframes hrs
      obtain ⟨⟨rfl, rfl⟩, rfl⟩ := And.intro hrs hframes
      exact served_serveMessage
    | succ i =>
      rw [List.getElem?_cons_succ] at hframes hrs
      cases hnext : (R.serveMessage st frames).2 with
      | none => simp [hnext] at hrs
      | some next =>
        rw [hnext] at hrs
        exact ih next i frames' st' rs hframes hrs

theorem serve_length (messages : List (List Bytes)) : ∀ (st : State δ),
    (R.serve st messages).length = messages.length ∨ ∃ i frames st' rs, i + 1 = (R.serve st messages).length ∧
      messages[i]? = some frames ∧ (R.serve st messages)[i]? = some (st', rs) ∧ R.DumpLost st' frames := by
  induction messages with
  | nil => exact fun _ => Or.inl rfl
  | cons frames messages ih =>
    intro st
    rw [serve_cons]
    cases hnext : (R.serveMessage st frames).2 with
    | none => exact Or.inr ⟨0, frames, st, _, rfl, rfl, rfl, dumpLost_of_stop hnext⟩
    | some next =>
      rcases ih next with hlen | ⟨i, frames', st', rs, hi, hframes, hrs, hlost⟩
      · exact Or.inl (by simpa using hlen)
      · exact Or.inr ⟨i + 1, frames', st', rs, by simpa using hi, by simpa using hframes, by simpa using hrs, hlost⟩

/-- In every run each message that the loop gets to is answered as it has to be, in the order of arrival, and the
    loop gets to every message unless a chunked dump is lost. -/
theorem serve_answers (R : Router δ) (st : State δ) (messages : List (List Bytes)) :
    (∀ (i : Nat) frames st' rs, messages[i]? = some frames → (R.serve st messages)[i]? = some (st', rs) →
      R.Served st' frames rs) ∧
    ((R.serve st messages).length = messages.length ∨ ∃ i frames st' rs, i + 1 = (R.serve st messages).length ∧
      messages[i]? = some frames ∧ (R.serve st messages)[i]? = some (st', rs) ∧ R.DumpLost st' frames) :=
  ⟨fun i frames st' rs => served_of_serve messages st i frames st' rs, serve_length messages st⟩

/-- A router without handlers, whose dumps return at once. -/
def bareRouter : Router Unit where
  handlers _ := none
  dump _ _ := (⟨[], .returned⟩, ())
  clock _ := 0

/-- A chunk request whose payload is a lone tag. -/
def badChunkRequest : Bytes := [0x08, 0x02, 0x18, 0xAC, 0x02, 0x22, 0x01, 0x10]

/-- Not only the other requests get messages: this chunk request does. -/
theorem badChunkRequest_answered : ¬∀ (R : Router Unit) st messages (i : Nat) frames st' rs, messages[i]? = some frames →
    (R.serve st messages)[i]? = some (st', rs) →
    (∀ clientId req, R.Carries frames clientId req → req.type ≠ MessageTypeV2.mt2DumpSpybufferChunkReq →
      ∃ r, rs = [r] ∧ R.Answers st' clientId req r) ∧
    ((¬∃ clientId req, R.Carries frames clientId req ∧ req.type ≠ MessageTypeV2.mt2DumpSpybufferChunkReq) → rs = []) := by
  intro h
  have hparse : parseFromArray ControlEnvelopeV2.parseFromString badChunkRequest =
      some { version := 2, type := 300, payload := [0x10] } := by decide
  obtain ⟨-, hnone⟩ := h bareRouter ⟨(), {}⟩ [[[1], badChunkRequest]] 0 _ _ _ rfl rfl
  have hrs := hnone ?_
  · cases hrs
  · rintro ⟨clientId, req, ⟨-, -, ⟨frame, hlast, -, hreq⟩, -, -⟩, htype⟩
    obtain rfl : badChunkRequest = frame := by simpa using hlast
    rw [hparse] at hreq
    cases hreq
    exact htype rfl

/-! ### Legacy envelopes -/

theorem carries_legacy {e : ControlEnvelope} (hser : (writeFields e.fields).length ≤ intMax)
    (hsize : (serializeAsString e.fields).length ≤ R.maxEnvelopeBytes) (htype : e.type = MessageType.configureFe) :
    R.Carries [clientId, serializeAsString e.fields] clientId { version := 2 } where
  two := le_rfl
  first := rfl
  last := ⟨_, rfl, hsize, by
    rw [← ControlEnvelopeV2.version_legacy_eq_two.mpr htype]
    exact ControlEnvelope.parse_as_v2 hser⟩
  version := rfl
  dir := rfl

/-- A legacy CONFIGURE_FE is taken for a request of no type, and is answered. -/
theorem serveMessage_configureFe {e : ControlEnvelope} (hser : (writeFields e.fields).length ≤ intMax)
    (hsize : (serializeAsString e.fields).length ≤ R.maxEnvelopeBytes) (htype : e.type = MessageType.configureFe) :
    R.serveMessage st [clientId, serializeAsString e.fields] ≠ ([], some st) := by
  rw [serveMessage_of_carries (carries_legacy hser hsize htype), if_neg (by decide)]
  intro h
  cases h

theorem not_carries_legacy {e : ControlEnvelope} (hser : (writeFields e.fields).length ≤ intMax)
    (h : e.type ≠ MessageType.configureFe ∨ R.maxEnvelopeBytes < (serializeAsString e.fields).length)
    (clientId' : Bytes) (req : ControlEnvelopeV2) : ¬R.Carries [clientId, serializeAsString e.fields] clientId' req := by
  rintro ⟨-, -, ⟨frame, hlast, hsize, hparse⟩, hversion, -⟩
  obtain rfl : serializeAsString e.fields = frame := by simpa using hlast
  rcases h with htype | hlt
  · rw [ControlEnvelope.parse_as_v2 hser] at hparse
    cases hparse
    exact htype (ControlEnvelopeV2.version_legacy_eq_two.mp hversion)
  · exact absurd hsize (Nat.not_le.mpr hlt)

/-- A legacy envelope is ignored (no reply, nothing changed) exactly when its type is not CONFIGURE_FE or it is
    too long. -/
theorem serveMessage_legacy_iff (R : Router δ) (st : State δ) (clientId : Bytes) (e : ControlEnvelope)
    (hser : (writeFields e.fields).length ≤ intMax) :
    R.serveMessage st [clientId, serializeAsString e.fields] = ([], some st) ↔
      e.type ≠ MessageType.configureFe ∨ R.maxEnvelopeBytes < (serializeAsString e.fields).length := by
  constructor
  · intro h
    by_contra hno
    rw [not_or, not_not, Nat.not_lt] at hno
    exact serveMessage_configureFe hser hno.2 hno.1 h
  · exact fun h => serveMessage_of_not_carries (not_carries_legacy hser h)

/-- A legacy CONFIGURE_FE without a payload, from a client named 1, is answered. -/
theorem configureFe_not_ignored : ¬∀ (R : Router Unit) st clientId (e : ControlEnvelope),
    (writeFields e.fields).length ≤ intMax → R.serveMessage st [clientId, serializeAsString e.fields] = ([], some st) := by
  intro h
  have hser : (writeFields { type := MessageType.configureFe : ControlEnvelope }.fields).length ≤ intMax := by decide
  exact serveMessage_configureFe hser (by decide) rfl (h bareRouter ⟨(), {}⟩ [1] { type := MessageType.configureFe } hser)

/-- A legacy DUMP_SPYBUFFER_CHUNK without a payload is ignored. -/
theorem dumpSpybufferChunk_ignored : bareRouter.serveMessage ⟨(), {}⟩
    [[1], serializeAsString { type := MessageType.dumpSpybufferChunk : ControlEnvelope }.fields] = ([], some ⟨(), {}⟩) :=
  (serveMessage_legacy_iff bareRouter ⟨(), {}⟩ [1] { type := MessageType.dumpSpybufferChunk } (by decide)).mpr
    (Or.inl (by decide))

end Router
end DaphneZmq
