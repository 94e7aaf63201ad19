import DaphneZmq.Router
import DaphneZmq.SpyDump

/-! # The acquisition of the oscilloscope (client/osc.py, V2Link and AcquisitionWorker)

The timer of the worker polls: it sends a request over its link, waits for a reply, takes the first waveform of it and puts
it into the queue of the disk writer. The network and the server go on at the same time, and a link that is given up leaves
its messages behind. What `request` waits for, and what `_push_save_frame` is about to put, is part of the state; the history
has the newest event first. -/

namespace DaphneZmq

namespace MessageTypeV2

def mt2DumpSpybufferReq : MessageTypeV2 := 256
def mt2DumpSpybufferResp : MessageTypeV2 := 257

end MessageTypeV2

namespace DumpSpyBuffersResponse

def merge (m : DumpSpyBuffersResponse) (f : Lib.Wire.Field) : Option DumpSpyBuffersResponse :=
  match f.number, f.value with
  | 1, .varint v => some { m with success := v ≠ 0 }
  | 2, .varint v => some { m with channelList := m.channelList ++ [v.toUInt32] }
  | 2, .len bs => (Lib.Wire.readPacked bs.length bs).map fun vs => { m with channelList := m.channelList ++ vs.map .ofNat }
  | 3, .varint v => some { m with numberOfSamples := v.toUInt32 }
  | 4, .varint v => some { m with numberOfWaveforms := v.toUInt32 }
  | 5, .varint v => some { m with softwareTrigger := v ≠ 0 }
  | 6, .varint v => some { m with data := m.data ++ [v.toUInt32] }
  | 6, .len bs => (Lib.Wire.readPacked bs.length bs).map fun vs => { m with data := m.data ++ vs.map .ofNat }
  | 7, .len bs => (Lib.Wire.readUtf8 bs).map fun message => { m with message }
  | _, _ => some m

def parseFromString (bs : Lib.Wire.Bytes) : Option DumpSpyBuffersResponse :=
  (Lib.Wire.parse bs).bind (·.foldlM merge ⟨false, [], 0, 0, false, [], ""⟩)

end DumpSpyBuffersResponse

namespace Osc
open Lib.Wire

/-- The arguments of `__init__`. -/
structure Config where
  endpoint : String
  identity : Bytes
  /-- Empty where no route is given. -/
  route : String
  pid : Nat
  /-- The serialized request. -/
  payload : Bytes
  maxWaveforms : Int
  /-- Whether there is a queue of a disk writer. -/
  saves : Bool
  queueFrames : Int

/-- `max(0, int(max_waveforms))` -/
def Config.limit (c : Config) : Nat := c.maxWaveforms.toNat

/-- `max(1, int(queue_frames))` -/
def Config.capacity (c : Config) : Nat := (max 1 c.queueFrames).toNat

/-! ### V2Link -/

structure Link where
  rand : Nat
  seq : Nat := 0
  /-- What has come in and has not been received. -/
  inbox : List Bytes := []

/-- What `_next_ids` makes of a reading of the clock. -/
def taskIdOf (now pid rand : Nat) : Nat := ((now <<< 16) ^^^ (pid <<< 8) ^^^ (rand &&& 0xFF)) &&& ((1 <<< 63) - 1)
def msgIdOf (now seq : Nat) : Nat := ((now <<< 1) ^^^ seq) &&& ((1 <<< 63) - 1)

/-- The readings of the clock in a poll: by a link that is made, for the ids and for the time stamp. -/
structure Readings where
  made : Nat
  now : Nat
  stamp : Nat

/-- `env` of `request`, with the number that `_next_ids` has counted. -/
def envelopeOf (c : Config) (link : Link) (r : Readings) : ControlEnvelopeV2 where
  version := 2
  dir := Direction.dirRequest
  type := MessageTypeV2.mt2DumpSpybufferReq
  payload := c.payload
  taskId := UInt64.ofNat (taskIdOf r.now c.pid link.rand)
  msgId := UInt64.ofNat (msgIdOf r.now link.seq)
  route := c.route
  timestampNs := UInt64.ofNat r.stamp

/-- What `request` makes of the last frame of a reply. -/
def checkReply (env : ControlEnvelopeV2) (frame : Bytes) : Except String ControlEnvelopeV2 :=
  match ControlEnvelopeV2.parseFromString frame with
  | none => .error "Error parsing message"
  | some rep =>
    if rep.dir ≠ Direction.dirResponse then .error s!"Unexpected dir={rep.dir}"
    else if rep.correlId ≠ env.msgId then .error "V2 correlation/type mismatch (correl_id != req.msg_id)"
    else .ok rep

/-! ### AcquisitionWorker -/

/-- The rows of a waveform, one for each channel. -/
abbrev Frame := List (List Int32)

/-- `y_all[0]` -/
def firstWaveform (y : SpyDump.NdArray) : Except String Frame :=
  if 0 < y.W then .ok ((List.range y.K).map fun k => (y.items.drop (k * y.N)).take y.N)
  else .error "index 0 is out of bounds for axis 0 with size 0"

inductive Content where
  | refused (message : String)
  | frame (yk : Frame)

/-- What `_poll_once` finds in a reply. -/
def content (rep : ControlEnvelopeV2) : Except String Content :=
  if rep.type ≠ MessageTypeV2.mt2DumpSpybufferResp then .error s!"Unexpected V2 type {rep.type}"
  else match DumpSpyBuffersResponse.parseFromString rep.payload with
    | none => .error "Error parsing message"
    | some resp =>
      if ¬resp.success then .ok (.refused resp.message)
      else do
        let (y, _) ← SpyDump.parseDumpResponse resp
        return .frame (← firstWaveform y)

structure Worker where
  link : Option Link := none
  /-- The request that `request` waits for a reply to. -/
  awaiting : Option ControlEnvelopeV2 := none
  /-- The frame that `_push_save_frame` is about to put. -/
  saving : Option Frame := none
  /-- Whether the timer is active. -/
  timer : Bool := false
  stopEvt : Bool := false
  framesAcquired : Nat := 0
  timeouts : Nat := 0
  saveBackpressure : Nat := 0
  /-- Whether `save_queue` is not `None`. -/
  saveQueue : Bool

/-- What the worker emits, but for the telemetry and the spectra. -/
inductive Output where
  | status (text : String)
  | plotUpdate (yk : Frame) (frameId : Nat)
  | acquisitionFinished (message : String)

inductive Event (δ : Type) where
  | sent (env : ControlEnvelopeV2)
  /-- The server has answered a request, from this state on. -/
  | served (env : ControlEnvelopeV2) (st : Router.State δ)
  | acquired (rep : ControlEnvelopeV2) (yk : Frame)
  | queued (yk : Frame)
  /-- A frame that is not put into the queue. -/
  | skipped (yk : Frame)

structure System (δ : Type) where
  worker : Worker
  outputs : List Output := []
  /-- The queue of the disk writer. -/
  queue : List Frame := []
  /-- None once the server's loop does not get control back. -/
  server : Option (Router.State δ)
  /-- The requests on their way, of which the server gets the bytes. -/
  requests : List ControlEnvelopeV2 := []
  /-- The last frames of the replies on their way. -/
  replies : List Bytes := []
  history : List (Event δ) := []

def System.start {δ : Type} (c : Config) (st : Router.State δ) : System δ where
  worker := { saveQueue := c.saves }
  server := some st

inductive Action where
  /-- The slot `start`. -/
  | start
  /-- The slot `stop`. -/
  | stop
  /-- `request_stop`, from another thread. -/
  | requestStop
  /-- A round of the timer, up to the request. -/
  | poll (r : Readings)
  /-- A round of the timer in which the request cannot be sent in time. -/
  | sendTimeout (r : Readings)
  /-- `stop_checker` while `request` waits. -/
  | interrupted
  /-- The deadline of `request`. -/
  | timedOut
  /-- `request` gets a reply. `_update_fft` may raise. -/
  | receive (raises : Option String)
  /-- The frame is put into the queue. -/
  | put
  /-- The queue stays full for the time of a `put`; the text is that of the writer's error. -/
  | full (writerError : String)
  /-- The loop of `_push_save_frame` ends. -/
  | giveUp
  /-- The disk writer takes a frame. -/
  | consume
  /-- The server serves a request. -/
  | serve (i : Nat)
  /-- The server serves a message of another client. -/
  | serveOther (clientId : Bytes) (frames : List Bytes)
  /-- A reply comes in. -/
  | arrive (i : Nat)
  | loseRequest (i : Nat)
  | loseReply (i : Nat)

section Step
variable {δ : Type} (c : Config)

/-- The worker is in no slot. -/
def Worker.idle (w : Worker) : Bool := w.awaiting.isNone && w.saving.isNone

/-- `_ensure_link`, with what it emits, and the number that `_next_ids` counts. -/
def ensureLink (link : Option Link) (r : Readings) : Link × List Output :=
  match link with
  | some link => ({ link with seq := link.seq + 1 }, [])
  | none => ({ rand := r.made &&& 0xFFFFFFFF, seq := 1 }, [.status s!"Connected to {c.endpoint}"])

/-- The worker after an exception, with the status that it emits. -/
def Worker.raised (w : Worker) (text : String) : Worker × List Output :=
  ({ w with awaiting := none, link := none }, [.status s!"[acquisition error] {text}"])

def Worker.timedOut (w : Worker) : Worker × List Output :=
  ({ w with awaiting := none, link := none, timeouts := w.timeouts + 1 }, [.status "[timeout] No response"])

/-- The end of `_poll_once`, after a frame. -/
def Worker.finishIfDone (w : Worker) : Worker × List Output :=
  if 0 < c.limit ∧ c.limit ≤ w.framesAcquired then
    let message := s!"[done] acquired {w.framesAcquired} waveforms"
    ({ w with stopEvt := true, timer := false }, [.status message, .acquisitionFinished message])
  else (w, [])

/-- The system after an action of the worker. -/
def System.becomes (s : System δ) (r : Worker × List Output) : System δ := { s with worker := r.1, outputs := s.outputs ++ r.2 }

/-- `_poll_once` from the reply on, up to the queue. -/
def receiveFrame (s : System δ) (env : ControlEnvelopeV2) (link : Link) (frame : Bytes) (rest : List Bytes) (raises : Option String) :
    System δ :=
  let w := { s.worker with awaiting := none, link := some { link with inbox := rest } }
  match checkReply env frame with
  | .error text => s.becomes (w.raised text)
  | .ok rep =>
    match content rep with
    | .error text => s.becomes (w.raised text)
    | .ok (.refused message) => s.becomes (w, [.status s!"[server] {message}"])
    | .ok (.frame yk) =>
      let w := { w with framesAcquired := w.framesAcquired + 1 }
      match raises with
      | some text => s.becomes (w.raised text)
      | none =>
        let outputs := s.outputs ++ [Output.plotUpdate yk w.framesAcquired]
        if w.saveQueue then
          { s with outputs, history := .acquired rep yk :: s.history }.becomes ({ w with saving := some yk }, [])
        else { s with outputs, history := .skipped yk :: .acquired rep yk :: s.history }.becomes (w.finishIfDone c)

variable (R : Router δ)

/-- A step of the system, if the action can be taken. -/
def step (a : Action) (s : System δ) : Option (System δ) :=
  let w := s.worker
  match a with
  | .start => if w.idle then some (s.becomes ({ w with stopEvt := false, timer := true }, [])) else none
  | .stop => if w.idle then some (s.becomes ({ w with stopEvt := true, timer := false, link := none }, [])) else none
  | .requestStop => some (s.becomes ({ w with stopEvt := true }, []))
  | .poll r =>
    if w.idle && w.timer && !w.stopEvt then
      let (link, outputs) := ensureLink c w.link r
      let env := envelopeOf c link r
      if (writeFields env.fields).length ≤ intMax then
        some { s with
          worker := { w with link := some link, awaiting := some env }
          outputs := s.outputs ++ outputs
          requests := s.requests ++ [env]
          history := .sent env :: s.history }
      else
        -- `SerializeToString` raises
        some ({ s with outputs := s.outputs ++ outputs }.becomes ({ w with link := some link }.raised "Failed to serialize proto"))
    else none
  | .sendTimeout r =>
    if w.idle && w.timer && !w.stopEvt then
      let (link, outputs) := ensureLink c w.link r
      some ({ s with outputs := s.outputs ++ outputs }.becomes { w with link := some link }.timedOut)
    else none
  | .interrupted => if w.awaiting.isSome && w.stopEvt then some (s.becomes ({ w with awaiting := none }, [])) else none
  | .timedOut => if w.awaiting.isSome then some (s.becomes w.timedOut) else none
  | .receive raises =>
    match w.awaiting, w.link with
    | some env, some link =>
      match link.inbox with
      | frame :: rest => some (receiveFrame c s env link frame rest raises)
      | [] => none
    | _, _ => none
  | .put =>
    match w.saving with
    | some yk =>
      if !w.stopEvt && decide (s.queue.length < c.capacity) then
        some ({ s with queue := s.queue ++ [yk], history := .queued yk :: s.history }.becomes ({ w with saving := none }.finishIfDone c))
      else none
    | none => none
  | .full writerError =>
    match w.saving with
    | some yk =>
      if !w.stopEvt && decide (c.capacity ≤ s.queue.length) then
        if writerError ≠ "" then
          let (w, outputs) := { w with saving := none, saveQueue := false }.finishIfDone c
          some ({ s with history := .skipped yk :: s.history }.becomes (w, .status s!"[writer disabled] {writerError}" :: outputs))
        else
          let w := { w with saveBackpressure := w.saveBackpressure + 1 }
          some (s.becomes (w, if w.saveBackpressure % 20 = 0 then [.status "[writer backlog] waiting for disk queue"] else []))
      else none
    | none => none
  | .giveUp =>
    match w.saving with
    | some yk =>
      if w.stopEvt then some ({ s with history := .skipped yk :: s.history }.becomes ({ w with saving := none }.finishIfDone c)) else none
    | none => none
  | .consume => if s.queue = [] then none else some { s with queue := s.queue.tail }
  | .serve i =>
    match s.server, s.requests[i]? with
    | some st, some env =>
      let (replies, st') := R.serveMessage st [c.identity, writeFields env.fields]
      some { s with
        server := st'
        requests := s.requests.eraseIdx i
        replies := s.replies ++ replies.map fun r => serializeAsString r.envelope.fields
        history := replies.map (fun _ => .served env st) ++ s.history }
    | _, _ => none
  | .serveOther clientId frames =>
    match s.server with
    | some st => if clientId ≠ c.identity then some { s with server := (R.serveMessage st (clientId :: frames)).2 } else none
    | none => none
  | .arrive i =>
    match w.link, s.replies[i]? with
    | some link, some frame =>
      some { s with
        worker := { w with link := some { link with inbox := link.inbox ++ [frame] } }
        replies := s.replies.eraseIdx i }
    | _, _ => none
  | .loseRequest i => some { s with requests := s.requests.eraseIdx i }
  | .loseReply i => some { s with replies := s.replies.eraseIdx i }

/-- The actions one after the other. -/
def run (actions : List Action) (s : System δ) : Option (System δ) := actions.foldlM (fun s a => step c R a s) s

end Step

end Osc
end DaphneZmq
