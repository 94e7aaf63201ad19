import DaphneZmq.Chunker

/-! # The router (server_controller/router_server.cpp, server_controller/v2_envelope.hpp)

`run_router_server` serves one multipart message after the other. What its environment does is given with it:
the handlers and the chunked dumps, as functions of the state of the devices, and the readings of the steady
clock. A reply is what is handed to `send_to`. -/

namespace DaphneZmq
open Lib.Wire (Bytes)

namespace V2

def responseType (req : MessageTypeV2) : MessageTypeV2 :=
  if req = 0 then MessageTypeV2.mt2Unspecified else if req &&& 1 ≠ 0 then req else req + 1

/-- The variable of `next_msg_id`, and how often the clock has been read. -/
structure Ids where
  seq : UInt64 := 1
  readings : Nat := 0

/-- `next_msg_id`, with `now` the clock's next reading. -/
def nextMsgId (now : UInt64) (ids : Ids) : UInt64 × Ids :=
  (((now <<< 16) ^^^ ids.seq) &&& (((1 : UInt64) <<< 63) - 1), ⟨ids.seq + 1, ids.readings + 1⟩)

def makeResponse (clock : Nat → UInt64) (ids : Ids) (req : ControlEnvelopeV2) (respType : MessageTypeV2)
    (payload : Bytes) : ControlEnvelopeV2 × Ids :=
  let (msgId, ids) := nextMsgId (clock ids.readings) ids
  ({ version := 2, dir := .dirResponse, type := respType, taskId := req.taskId, correlId := req.msgId, msgId,
     route := if req.route ≠ "" then req.route else "", timestampNs := clock ids.readings, payload },
    { ids with readings := ids.readings + 1 })

end V2

/-- The answer to a chunk request that cannot be parsed. -/
def badPayload : DumpSpyBuffersChunkResponse where
  success := false
  message := "Bad DumpSpyBuffersChunkRequest payload"
  isFinal := true

/-- The answer of the catch clause. -/
def dumpFailed (what : String) : DumpSpyBuffersChunkResponse where
  success := false
  message := "Chunked dump failed: " ++ what
  isFinal := true

/-- The chunk responses that the router sends for a dump. -/
def DumpOutcome.responses (o : DumpOutcome) : List DumpSpyBuffersChunkResponse :=
  match o.ending with
  | .returned | .lost => o.sent
  | .threw what => o.sent ++ [dumpFailed what]

/-- Whether control comes back to the router's loop. -/
def DumpOutcome.comesBack (o : DumpOutcome) : Bool :=
  match o.ending with
  | .returned | .threw _ => true
  | .lost => false

/-- A handler: the payload it returns or the exception it throws, and what it does to the devices. -/
abbrev V2Handler (δ : Type) := Bytes → δ → Except String Bytes × δ

structure Router (δ : Type) where
  maxEnvelopeBytes : Nat := 4 * 1024 * 1024
  handlers : MessageTypeV2 → Option (V2Handler δ)
  dump : DumpSpyBuffersChunkRequest → δ → DumpOutcome × δ
  clock : Nat → UInt64

/-- What `send_to` sends. -/
structure Reply where
  clientId : Bytes
  envelope : ControlEnvelopeV2

def Reply.frames (r : Reply) : List Bytes := [r.clientId, serializeAsString r.envelope.fields]

namespace Router
variable {δ : Type} (R : Router δ)

structure State (δ : Type) where
  device : δ
  ids : V2.Ids := {}

/-- `send_to` with the envelope of `make_response`. -/
def reply (st : State δ) (clientId : Bytes) (req : ControlEnvelopeV2) (type : MessageTypeV2) (payload : Bytes) :
    Reply × State δ :=
  let (envelope, ids) := V2.makeResponse R.clock st.ids req type payload
  (⟨clientId, envelope⟩, { st with ids })

/-- The replies with the chunk responses `rs`. -/
def replyChunks (st : State δ) (clientId : Bytes) (req : ControlEnvelopeV2) :
    List DumpSpyBuffersChunkResponse → List Reply × State δ
  | [] => ([], st)
  | r :: rs =>
    let (reply, st) := R.reply st clientId req MessageTypeV2.mt2DumpSpybufferChunkResp (serializeAsString r.fields)
    let (replies, st) := replyChunks st clientId req rs
    (reply :: replies, st)

/-- The branch for a chunk request; no state if the loop does not get control back. -/
def serveChunk (st : State δ) (clientId : Bytes) (req : ControlEnvelopeV2) : List Reply × Option (State δ) :=
  match DumpSpyBuffersChunkRequest.parseFromString req.payload with
  | none =>
    let (replies, st) := R.replyChunks st clientId req [badPayload]
    (replies, some st)
  | some chunkReq =>
    let (outcome, device) := R.dump chunkReq st.device
    let (replies, st) := R.replyChunks { st with device } clientId req outcome.responses
    (replies, if outcome.comesBack then some st else none)

/-- The branch for every other request. -/
def serveRequest (st : State δ) (clientId : Bytes) (req : ControlEnvelopeV2) : Reply × State δ :=
  match R.handlers req.type with
  | none => R.reply st clientId req (V2.responseType req.type) []
  | some handler =>
    match handler req.payload st.device with
    | (.error _, device) => R.reply { st with device } clientId req (V2.responseType req.type) []
    | (.ok payload, device) => R.reply { st with device } clientId req (V2.responseType req.type) payload

/-- One round of the loop. A message that only parses as a legacy envelope is logged and ignored. -/
def serveMessage (st : State δ) (frames : List Bytes) : List Reply × Option (State δ) :=
  match frames with
  | clientId :: frame :: rest =>
    let payload := (frame :: rest).getLast (List.cons_ne_nil _ _)
    if payload.length > R.maxEnvelopeBytes then ([], some st)
    else match parseFromArray ControlEnvelopeV2.parseFromString payload with
      | none => ([], some st)
      | some req =>
        if req.version ≠ 2 ∨ req.dir ≠ Direction.dirRequest then ([], some st)
        else if req.type = MessageTypeV2.mt2DumpSpybufferChunkReq then R.serveChunk st clientId req
        else
          let (reply, st) := R.serveRequest st clientId req
          ([reply], some st)
  | _ => ([], some st)

/-- For each message that the loop gets to, the state it finds and the replies it sends. -/
def serve : State δ → List (List Bytes) → List (State δ × List Reply)
  | _, [] => []
  | st, frames :: messages =>
    match R.serveMessage st frames with
    | (replies, none) => [(st, replies)]
    | (replies, some st') => (st, replies) :: serve st' messages

end Router
end DaphneZmq
