import DaphneZmq.Lib.Simulation
import Mathlib.Data.Int.Bitwise

/-! # The client of the SSP (ssp_led_control.py)

`read` and `write` over a `transaction`, and the transaction over a socket. The peer answers each request with
bytes, and `recv` takes of the bytes that are there as many as the network gives it. -/

namespace DaphneZmq.SspLedControl
open Lib.Simulation

/-! ### `struct` -/

def structError : String := "'I' format requires 0 <= number <= 4294967295"

/-- A number packed as `I`, if it fits. -/
def packWord (n : Int) : Except String UInt32 :=
  if 0 ≤ n ∧ n < 2 ^ 32 then .ok (UInt32.ofNat n.toNat) else .error structError

/-- The bytes of a word, the lowest first. -/
def wordBytes (w : UInt32) : List UInt8 := [w.toUInt8, (w >>> 8).toUInt8, (w >>> 16).toUInt8, (w >>> 24).toUInt8]

/-- The words of bytes in groups of four, the lowest byte of each first. -/
def unpackWords : List UInt8 → List UInt32
  | b0 :: b1 :: b2 :: b3 :: bytes =>
    (b0.toUInt32 ||| b1.toUInt32 <<< 8 ||| b2.toUInt32 <<< 16 ||| b3.toUInt32 <<< 24) :: unpackWords bytes
  | _ => []

/-- `{n:08X}` -/
def hex8 (n : Int) : String :=
  let sign := if n < 0 then "-" else ""
  let digits := (String.ofList (Nat.toDigits 16 n.natAbs)).toUpper
  sign ++ String.ofList (List.replicate (8 - sign.length - digits.length) '0') ++ digits

/-! ### The client -/

def CMD_READ : Int := 0x01
def CMD_WRITE : Int := 0x03
def HEADER_SIZE : Nat := 20

def BIAS_CONTROL : Int := 0x40000300

def NON_LATCHED_REGISTERS : List Int := [BIAS_CONTROL]

/-- What a transaction returns. -/
structure Reply where
  total_len : UInt32
  rx_addr : UInt32
  rx_cmd : UInt32
  rx_size : UInt32
  rx_status : UInt32
  payload_words : List UInt32

section Client
variable {σ : Type} (transaction : Int → Int → List Int → EStateM String σ Reply)

def read (address : Int) : EStateM String σ UInt32 := do
  let reply ← transaction address CMD_READ []
  if (reply.rx_addr.toNat : Int) ≠ address then
    throw s!"read response address mismatch: expected 0x{hex8 address}, got 0x{hex8 reply.rx_addr.toNat}"
  else if reply.rx_status ≠ 0 then
    throw s!"read failed at 0x{hex8 address}, status=0x{hex8 reply.rx_status.toNat}"
  else
    match reply.payload_words with
    | [] => throw s!"read response missing payload for 0x{hex8 address}"
    | word :: _ => return word

def write (address value : Int) (verify : Bool) : EStateM String σ (Option UInt32) := do
  let reply ← transaction address CMD_WRITE [value]
  if (reply.rx_addr.toNat : Int) ≠ address then
    throw s!"write response address mismatch: expected 0x{hex8 address}, got 0x{hex8 reply.rx_addr.toNat}"
  else if reply.rx_status ≠ 0 then
    throw s!"write failed at 0x{hex8 address}, status=0x{hex8 reply.rx_status.toNat}"
  else if !verify || NON_LATCHED_REGISTERS.contains address then
    return none
  else
    let readback ← read transaction address
    if (readback.toNat : Int) ≠ value then
      throw s!"readback mismatch at 0x{hex8 address}: wrote 0x{hex8 value}, got 0x{hex8 readback.toNat}"
    else
      return some readback

end Client

/-! ### The socket -/

/-- The other end of the connection, with a state of its own. -/
structure Peer (P : Type) where
  /-- The bytes that it sends on a request. -/
  respond : P → List UInt8 → List UInt8 × P
  /-- Whether it closes the connection when the client waits for bytes that it does not send. -/
  closes : Bool

/-- How many bytes the `n`-th `recv` takes of those on offer. One that takes none takes one. -/
abbrev Cuts := Nat → Nat → Nat

/-- Unfragmented delivery. -/
def whole : Cuts := fun _ offered => offered

structure Socket (P : Type) where
  peer : P
  /-- What the peer has sent. -/
  responses : List (List UInt8)
  /-- What of it has not been received. -/
  incoming : List UInt8
  recvs : Nat

section Socket
variable {P : Type} (peer : Peer P) (cuts : Cuts)

def sendall (request : List UInt8) : EStateM String (Socket P) Unit := fun s =>
  let (response, p) := peer.respond s.peer request
  .ok () { s with peer := p, responses := s.responses ++ [response], incoming := s.incoming ++ response }

/-- `recv`, of at least one byte. -/
def recv (bufsize : Nat) : EStateM String (Socket P) (List UInt8) := fun s =>
  if s.incoming = [] then
    if peer.closes then .ok [] { s with recvs := s.recvs + 1 } else .error "timed out" { s with recvs := s.recvs + 1 }
  else
    let offered := min bufsize s.incoming.length
    let taken := max 1 (min (cuts s.recvs offered) offered)
    .ok (s.incoming.take taken) { s with incoming := s.incoming.drop taken, recvs := s.recvs + 1 }

/-- The loop of `_recv_exact`. -/
def recvLoop (remaining : Nat) (chunks : List UInt8) : EStateM String (Socket P) (List UInt8) :=
  match remaining with
  | 0 => pure chunks
  | n + 1 => do
    match ← recv peer cuts (n + 1) with
    | [] => throw "socket closed while receiving response"
    | b :: bs => recvLoop (n + 1 - (bs.length + 1)) (chunks ++ b :: bs)
termination_by remaining

def recvExact (size : Nat) : EStateM String (Socket P) (List UInt8) := recvLoop peer cuts size []

/-- The bytes of a request, if its fields fit. -/
def packRequest (address command : Int) (data_words : List Int) : Except String (List UInt8) := do
  let payload ← data_words.mapM packWord
  let header ← [((HEADER_SIZE + 4 * payload.length : Nat) : Int), address, command, 1, 0].mapM packWord
  return (header ++ payload).flatMap wordBytes

/-- What is unpacked from a header of `HEADER_SIZE` bytes, which the payload then completes. -/
def unpackHeader (header : List UInt8) : Reply :=
  let field := fun i => (unpackWords header).getD i 0
  ⟨field 0, field 1, field 2, field 3, field 4, []⟩

/-- `_transaction` from its first `_recv_exact` on. -/
def receiveReply (address : Int) : EStateM String (Socket P) Reply := do
  let header := unpackHeader (← recvExact peer cuts HEADER_SIZE)
  if header.total_len.toNat < HEADER_SIZE then
    throw s!"invalid response length {header.total_len} for address 0x{hex8 address}"
  else
    let payload_len := header.total_len.toNat - HEADER_SIZE
    let payload_bytes ← (if payload_len ≠ 0 then recvExact peer cuts payload_len else pure [])
    if payload_len % 4 ≠ 0 then
      throw s!"misaligned payload length {payload_len} for address 0x{hex8 address}"
    else
      return { header with payload_words := unpackWords payload_bytes }

/-- `_transaction` -/
def transaction (address command : Int) (data_words : List Int) : EStateM String (Socket P) Reply := do
  match packRequest address command data_words with
  | .error e => throw e
  | .ok packet =>
    sendall peer packet
    receiveReply peer cuts address

def Socket.start (p : P) : Socket P := ⟨p, [], [], 0⟩

end Socket

/-! ### Sequences of calls -/

inductive Call
  | read (address : Int)
  | write (address value : Int) (verify : Bool)

section Calls
variable {σ : Type} (transaction : Int → Int → List Int → EStateM String σ Reply)

def Call.run : Call → EStateM String σ (Option UInt32)
  | .read address => some <$> SspLedControl.read transaction address
  | .write address value verify => SspLedControl.write transaction address value verify

/-- The calls one after the other, with what each returns or raises. -/
def session (calls : List Call) : EStateM String σ (List (Except String (Option UInt32))) :=
  calls.mapM fun call => attempt (call.run transaction)

end Calls

/-! ### What it is for -/

/-- The packet length that a response announces. -/
def announced (response : List UInt8) : Nat := (unpackHeader (response.take HEADER_SIZE)).total_len.toNat

/-- A packet, of the length that its header announces. -/
def WellFormed (response : List UInt8) : Prop := response.length = max HEADER_SIZE (announced response)

/-- What a response says. -/
def answer (address : Int) (response : List UInt8) : Except String Reply :=
  let header := unpackHeader (response.take HEADER_SIZE)
  let payload := response.drop HEADER_SIZE
  if announced response < HEADER_SIZE then
    .error s!"invalid response length {header.total_len} for address 0x{hex8 address}"
  else if payload.length % 4 ≠ 0 then
    .error s!"misaligned payload length {payload.length} for address 0x{hex8 address}"
  else
    .ok { header with payload_words := unpackWords payload }

/-- A request and its response, as wholes. -/
def exchange {P : Type} (peer : Peer P) (address command : Int) (data_words : List Int) : EStateM String P Reply := fun p =>
  match packRequest address command data_words with
  | .error e => .error e p
  | .ok packet =>
    let (response, p') := peer.respond p packet
    match answer address response with
    | .error e => .error e p'
    | .ok reply => .ok reply p'

end DaphneZmq.SspLedControl
