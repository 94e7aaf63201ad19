import DaphneZmq.Registers

/-! # Clock source and timing endpoint (server_controller/handlers.cpp)

The registers of the clocks and of the endpoint are mapped and their accesses do not throw. The status registers
are driven by the hardware, the control registers are cells. -/

namespace DaphneZmq
open Lib.Device

namespace Endpoint

def mmcmReset : BitField := { addr := 0x4000000, low := 1, high := 1 }
def clockSource : BitField := { addr := 0x4000000, low := 2, high := 2 }
def endpointClockStatus : Nat := 0x4000004
def endpointReset : BitField := { addr := 0x4000008, low := 16, high := 16 }
def endpointAddress : BitField := { addr := 0x4000008, low := 0, high := 15 }
def endpointStatus : Nat := 0x400000C

structure ConfigureCLKsRequest where
  id : UInt32
  ctrl_ep_clk : Bool
  reset_MMCM1 : Bool
  reset_endpoint : Bool

/-- A line of the message of a response. -/
inductive InfoLine where
  | badPayload
  | clockStatus (s : UInt32)
  | clockStatusTimeout (s : UInt32)
  | endpointReady (s : UInt32)
  | endpointNotReady (s : UInt32)

def decodeClkStatus (v : UInt32) : String :=
  "MMCM0:" ++ (if v &&& 1 ≠ 0 then "LOCKED" else "UNLOCKED") ++ " MMCM1:" ++ if v &&& 2 ≠ 0 then "LOCKED" else "UNLOCKED"

/-- `std::hex`. -/
def hex (n : UInt32) : String := String.ofList (Nat.toDigits 16 n.toNat)

def InfoLine.text : InfoLine → String
  | .badPayload => "Bad ConfigureCLKsRequest payload"
  | .clockStatus s => "Clock status: " ++ decodeClkStatus s ++ "\n"
  | .clockStatusTimeout s => "Clock status (timeout): " ++ decodeClkStatus s ++ "\n"
  | .endpointReady s => "Endpoint READY; status=0x" ++ hex s ++ "\n"
  | .endpointNotReady s => "Endpoint not ready (timeout); status=0x" ++ hex s ++ "\n"

structure ConfigureCLKsResponse where
  success : Bool
  info : List InfoLine

/-- The text of a response. -/
def ConfigureCLKsResponse.message (r : ConfigureCLKsResponse) : String := String.join (r.info.map InfoLine.text)

/-- Both MMCM lock bits of `endpointClockStatus`. -/
def Locked (s : UInt32) : Prop := s &&& 0x3 = 0x3

/-- FSM state 8 and the timestamp bit of `endpointStatus`. -/
def Ready (s : UInt32) : Prop := s &&& 0xF = 8 ∧ s &&& 0x10 ≠ 0

instance : DecidablePred Locked := fun _ => inferInstanceAs (Decidable (_ = _))
instance : DecidablePred Ready := fun _ => inferInstanceAs (Decidable (_ ∧ _))

section
variable {D : Type} (env : Env Nat UInt32)

/-- The polls of a wait, the first one not counted. -/
def pollStatus (status : Nat) (awaited : UInt32 → Prop) [DecidablePred awaited] : Nat → Prog Nat UInt32 D (Bool × UInt32)
  | 0 => do
    let s ← Reg.readRegister env status
    return (decide (awaited s), s)
  | polls + 1 => do
    let s ← Reg.readRegister env status
    if awaited s then return (true, s) else pollStatus status awaited polls

/-- The wait for a status, with the last word. -/
def waitStatus (status : Nat) (awaited : UInt32 → Prop) [DecidablePred awaited] : Prog Nat UInt32 D (Bool × UInt32) := fun s =>
  pollStatus env status awaited (env.polls s.accesses) s

/-- A bit is set and cleared, if asked for. -/
def pulse (asked : Bool) (f : BitField) : Prog Nat UInt32 D Unit :=
  if asked then do
    let _ ← Reg.writeBits env f 1
    let _ ← Reg.writeBits env f 0
  else return ()

/-- `set_clock_source_and_mmcm_reset`; at the timeout the status is read once more for the message. -/
def setClockSourceAndMmcmReset (useEndpointClk pulseMmcm1Reset : Bool) : Prog Nat UInt32 D (Bool × InfoLine) := do
  let _ ← Reg.writeBits env clockSource (if useEndpointClk then 1 else 0)
  pulse env pulseMmcm1Reset mmcmReset
  let (locked, s) ← waitStatus env endpointClockStatus Locked
  if locked then return (true, .clockStatus s)
  else return (false, .clockStatusTimeout (← Reg.readRegister env endpointClockStatus))

def setEndpointAddrAndReset (epAddr : UInt16) (pulseEpReset : Bool) : Prog Nat UInt32 D (Bool × InfoLine) := do
  let _ ← Reg.writeBits env endpointAddress epAddr.toUInt32
  pulse env pulseEpReset endpointReset
  let (ready, s) ← waitStatus env endpointStatus Ready
  return (ready, if ready then .endpointReady s else .endpointNotReady s)

/-- The handler of `MT2_CONFIGURE_CLKS_REQ`, with the request if its payload parses. -/
def configureClks : Option ConfigureCLKsRequest → Prog Nat UInt32 D ConfigureCLKsResponse
  | none => return { success := false, info := [.badPayload] }
  | some req => do
    let (okClk, clk) ← setClockSourceAndMmcmReset env req.ctrl_ep_clk req.reset_MMCM1
    let (okEp, ep) ← setEndpointAddrAndReset env req.id.toUInt16 req.reset_endpoint
    return { success := okClk && okEp, info := [clk, ep] }

end

/-- The hardware: the words that the successive reads of the status registers give. -/
structure ClockBench where
  clockStatus : Nat → UInt32
  status : Nat → UInt32
  polls : Nat → Nat

def ClockBench.env (b : ClockBench) : Env Nat UInt32 where
  faults _ := none
  driven a := if a = endpointClockStatus then some fun _ => b.clockStatus
    else if a = endpointStatus then some fun _ => b.status else none
  polls := b.polls

end Endpoint
end DaphneZmq
