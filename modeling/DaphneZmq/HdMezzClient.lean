import DaphneZmq.Router

/-! # The HD mezzanine client (client/hdmezz_control_v2.py)

`v2_rpc` sends a request on a socket that is kept from call to call, takes the first reply that is on the socket or comes in
before the timeout, and checks that it belongs to the request. The server answers the requests in the order in which they are
sent. A schedule says when each call starts, how long it waits and when the reply to its request arrives. -/

namespace DaphneZmq
open Lib.Wire (Bytes)

namespace HdMezzClient

/-- A call of `v2_rpc`, and what becomes of its request: the ids of the server when it answers, the payload of the reply and
the time at which the reply arrives. -/
structure Call where
  reqType : MessageTypeV2
  respType : MessageTypeV2
  payload : Bytes := []
  taskId : UInt64 := 0
  msgId : UInt64
  timestampNs : UInt64 := 0
  route : String := ""
  start : Nat
  timeout : Nat
  serverIds : V2.Ids := {}
  answer : Bytes := []
  arrives : Nat

/-- The envelope that is sent. -/
def Call.env (c : Call) : ControlEnvelopeV2 where
  version := 2
  dir := .dirRequest
  type := c.reqType
  payload := c.payload
  taskId := c.taskId
  msgId := c.msgId
  timestampNs := c.timestampNs
  route := c.route

/-- The server's reply. -/
def Call.reply (clock : Nat → UInt64) (c : Call) : ControlEnvelopeV2 :=
  (V2.makeResponse clock c.serverIds c.env (V2.responseType c.reqType) c.answer).1

/-- The reply arrives before the receive would time out. -/
def Call.InTime (c : Call) : Prop := c.arrives ≤ c.start + c.timeout

instance (c : Call) : Decidable c.InTime := inferInstanceAs (Decidable (_ ≤ _))

/-- How a call ends. -/
inductive Outcome (α : Type)
  | returned (resp : α)
  | raised (what : String)
  /-- `zmq.Again`. -/
  | again

/-- A reply on its way to the socket or on it, with the number of the call that it answers. -/
structure Pending where
  call : Nat
  arrives : Nat
  reply : ControlEnvelopeV2

/-- The end of a call, with the number of the call whose reply it took. -/
structure Done (α : Type) where
  taken : Option Nat
  outcome : Outcome α

section Run
variable {α : Type} (clock : Nat → UInt64) (parse : MessageTypeV2 → Bytes → Option α)

/-- What `v2_rpc` does with a reply. -/
def check (c : Call) (rep : ControlEnvelopeV2) : Outcome α :=
  if rep.type ≠ c.respType then
    .raised ("Unexpected response type " ++ toString rep.type.toInt ++ ", expected " ++ toString c.respType.toInt)
  else if rep.correlId ≠ 0 ∧ rep.correlId ≠ c.msgId then
    .raised ("Correlation mismatch (got " ++ toString rep.correlId.toNat ++ ", expected " ++ toString c.msgId.toNat ++ ")")
  else match parse c.respType rep.payload with
    | none => .raised "Failed to parse response payload"
    | some resp => .returned resp

/-- `v2_rpc`, with the replies to come once its request is sent, and those that are left. -/
def v2Rpc (c : Call) : List Pending → Done α × List Pending
  | [] => (⟨none, .again⟩, [])
  | p :: queue =>
    if p.arrives ≤ c.start + c.timeout then (⟨some p.call, check parse c p.reply⟩, queue)
    else (⟨none, .again⟩, p :: queue)

/-- The ends of calls on one socket, the first of which has number `n`. An error is caught, and the socket goes on. -/
def run : Nat → List Pending → List Call → List (Done α)
  | _, _, [] => []
  | n, queue, c :: calls =>
    let (done, queue) := v2Rpc parse c (queue ++ [⟨n, c.arrives, c.reply clock⟩])
    done :: run (n + 1) queue calls

/-- A schedule: the ids of its requests are distinct and not zero, each call waits for the response to its request, whose payload
can be parsed, and calls and replies keep their order. -/
structure Schedule where
  calls : List Call
  ne_zero : ∀ c ∈ calls, c.msgId ≠ 0
  nodup : (calls.map (·.msgId)).Nodup
  paired : ∀ c ∈ calls, c.respType = V2.responseType c.reqType
  parses : ∀ c ∈ calls, ∃ resp, parse c.respType c.answer = some resp
  sent : ∀ c ∈ calls, c.start ≤ c.arrives
  ordered : calls.Pairwise fun c d => c.start ≤ d.start ∧ c.arrives ≤ d.arrives

/-- The ends of the calls of a schedule. -/
def Schedule.ends (S : Schedule parse) : List (Done α) := run clock parse 0 [] S.calls

end Run

end HdMezzClient
end DaphneZmq
