import DaphneZmq.DevMem
import DaphneZmq.Endpoint
import Mathlib.Data.List.Sort

/-! # Self-trigger registers (server_controller/handlers.cpp, client/pds_configure_utils.py)

The client packs a trigger dictionary and a cross-correlation dictionary into two words of a configure request. The
server takes them apart and writes the trigger thresholds, the trigger masks and the control registers. -/

namespace DaphneZmq
open Lib.Device

structure ChannelConfig where
  id : UInt32
  trim : UInt32
  offset : UInt32

structure ADCConfig where
  resolution : Bool
  output_format : Bool
  sb_first : Bool

structure PGAConfig where
  lpf_cut_frequency : UInt32
  integrator_disable : Bool

structure LNAConfig where
  clamp : UInt32
  gain : UInt32
  integrator_disable : Bool

structure AFEConfig where
  id : UInt32
  attenuators : UInt32
  v_bias : UInt32
  adc : ADCConfig
  pga : PGAConfig
  lna : LNAConfig

structure ConfigureRequest where
  biasctrl : UInt32 := 0
  self_trigger_threshold : UInt64 := 0
  self_trigger_xcorr : UInt64 := 0
  tp_conf : UInt64 := 0
  compensator : UInt64 := 0
  inverters : UInt64 := 0
  channels : List ChannelConfig := []
  afes : List AFEConfig := []

namespace SelfTrigger

/-! ### The client -/

/-- A value of a dictionary. -/
inductive PyValue where
  | int (n : Int)
  | str (s : String)
deriving DecidableEq

/-- `str(value)`. -/
def PyValue.toStr : PyValue → String
  | .int n => toString n
  | .str s => s

/-- A trigger dictionary; a key that it does not have is none. -/
structure Trigger where
  filter_mode : Option PyValue := none
  slope_mode : Option PyValue := none
  slope_threshold : Option Int := none
  pedestal_length : Option Int := none
  spybuffer_channel : Option Int := none

namespace Trigger
variable (trigger : Trigger)

def filterMode : Nat :=
  ([(.str "compensated", 0), (.str "inverted", 1), (.str "xcorr", 2), (.str "raw", 3)].lookup
    (trigger.filter_mode.getD (.str "inverted"))).getD 1

def slopeMode : Nat := if (trigger.slope_mode.getD (.str "16")).toStr = "16" then 0 else 1

/-- The bits of the slope threshold that are packed. -/
def slopeThreshold : Nat := (trigger.slope_threshold.getD 12 % 0x80).toNat

def pedestalCode : Nat := (max 0 (min 31 (trigger.pedestal_length.getD 64 / 8))).toNat

def spyCode : Nat := (max 0 (min 63 (trigger.spybuffer_channel.getD 63))).toNat

end Trigger

def assembleTpConf (trigger : Trigger) : Nat :=
  (trigger.filterMode &&& 0x3) ||| ((trigger.slopeMode &&& 0x1) <<< 8) ||| ((trigger.slopeThreshold &&& 0x7F) <<< 9) |||
    ((trigger.pedestalCode &&& 0x1F) <<< 16) ||| ((trigger.spyCode &&& 0x3F) <<< 21)

structure XcorrConf where
  correlation_threshold : Option Int := none
  discrimination_threshold : Option Int := none

/-- The bits of the correlation threshold that are packed. -/
def XcorrConf.corr (conf : XcorrConf) : Nat := (conf.correlation_threshold.getD 0 % 0x10000000).toNat

def XcorrConf.disc (conf : XcorrConf) : Nat := (conf.discrimination_threshold.getD 0 % 0x4000).toNat

def computeSelfTriggerXcorr (conf : XcorrConf) : Nat := (conf.disc <<< 28) ||| conf.corr

/-! ### Thresholds and masks -/

def thresholdBase : Nat := 0xA0010000
def thresholdStride : Nat := 0x20
def maskRegLow : Nat := 0x94000020
def maskRegHigh : Nat := 0x94000024

/-- `std::unique` and `erase`. -/
def unique : List UInt32 → List UInt32
  | [] => []
  | [x] => [x]
  | x :: y :: xs => if x = y then unique (y :: xs) else x :: unique (y :: xs)

/-- The sorted ids of the channels of a request. -/
def listed (cfg : ConfigureRequest) : List UInt32 := unique ((cfg.channels.map (·.id)).insertionSort (· ≤ ·))

/-- The value for the threshold registers, before it is cut to 28 bits. -/
def rawThreshold (cfg : ConfigureRequest) : UInt64 :=
  if cfg.self_trigger_xcorr ≠ 0 then cfg.self_trigger_xcorr &&& 0x0FFFFFFF else cfg.self_trigger_threshold

def thrVal (cfg : ConfigureRequest) : UInt32 :=
  if rawThreshold cfg > 0x0FFFFFFF then 0x0FFFFFFF else (rawThreshold cfg).toUInt32

/-- `mask |= 1 << bit`, for a channel that `bit` gives a bit for. -/
def setBit (bit : UInt32 → Option UInt32) (mask ch : UInt32) : UInt32 :=
  match bit ch with
  | some n => mask ||| (1 <<< n)
  | none => mask

def maskOf (bit : UInt32 → Option UInt32) (channels : List UInt32) : UInt32 := channels.foldl (setBit bit) 0

def maskLow (channels : List UInt32) : UInt32 := maskOf (fun ch => if ch < 32 then some ch else none) channels

def maskHigh (channels : List UInt32) : UInt32 := maskOf (fun ch => if ch < 32 then none else some (ch - 32)) channels

section
variable {D : Type} (fails : Nat → Option String)

/-- The mapping of the thresholds and the writes for the channels. -/
def writeThresholds (channels : List UInt32) (value : UInt32) : Prog Nat UInt32 D Unit := do
  let mem ← DevMem.mapMemory fails thresholdBase (thresholdStride * 40 + 4)
  channels.forM fun ch => mem.writeU32 (ch.toNat * thresholdStride) value

def writeMask (reg : Nat) (mask : UInt32) : Prog Nat UInt32 D Unit := do
  let mem ← DevMem.mapMemory fails reg 4
  mem.writeU32 0 mask

/-- The line for a mask. -/
def maskLine (name : String) (reg : Nat) (mask : UInt32) : String :=
  "Trigger enable " ++ name ++ " @ 0x" ++ Endpoint.hex (.ofNat reg) ++ " = 0x" ++ Endpoint.hex mask ++ ".\n"

/-- What is reported of the value and its source. -/
def thresholdLines (cfg : ConfigureRequest) : String :=
  (if rawThreshold cfg > 0x0FFFFFFF then
    "Requested threshold " ++ toString (rawThreshold cfg) ++ " exceeds 28-bit range; clamping to " ++
      toString 0x0FFFFFFF ++ ".\n" else "") ++
    "Trigger threshold source: " ++
    (if cfg.self_trigger_xcorr ≠ 0 then "self_trigger_xcorr[27:0]" else "self_trigger_threshold") ++ ".\n"

/-- Whether the LOW mask was written, with the line for it. -/
def lowResult (mask : UInt32) : Except String Unit → Bool × String
  | .ok () => (true, maskLine "LOW" maskRegLow mask)
  | .error e => (false, "Failed to write LOW trigger mask via /dev/mem: " ++ e ++ ".\n")

/-- The same of the HIGH mask, which may fail if it is zero. -/
def highResult (mask : UInt32) : Except String Unit → Bool × String
  | .ok () => (true, maskLine "HIGH" maskRegHigh mask)
  | .error e =>
    if mask ≠ 0 then (false, "Failed to write HIGH trigger mask via /dev/mem: " ++ e ++ ".\n")
    else (true, "High trigger mask register unavailable; skipped.\n")

def writeMasks (channels : List UInt32) : Prog Nat UInt32 D (Bool × String) := do
  let low ← attempt (writeMask fails maskRegLow (maskLow channels))
  let high ← attempt (writeMask fails maskRegHigh (maskHigh channels))
  return ((lowResult (maskLow channels) low).1 && (highResult (maskHigh channels) high).1,
    (lowResult (maskLow channels) low).2 ++ (highResult (maskHigh channels) high).2)

/-- The thresholds and, if they could be written, the masks. -/
def programThresholds (cfg : ConfigureRequest) : Prog Nat UInt32 D (Bool × String) := do
  match ← attempt (writeThresholds fails (listed cfg) (thrVal cfg)) with
  | .error e => return (false, thresholdLines cfg ++ "Failed to write trigger thresholds via /dev/mem: " ++ e ++ ".\n")
  | .ok () =>
    let (ok, lines) ← writeMasks fails (listed cfg)
    return (ok, thresholdLines cfg ++ "Trigger threshold 0x" ++ Endpoint.hex (thrVal cfg) ++ " written to channels:" ++
      String.join ((listed cfg).map fun ch => " " ++ toString ch) ++ ".\n" ++ lines)

/-- `write_trigger_thresholds`, with the response message. -/
def writeTriggerThresholds (cfg : ConfigureRequest) : Prog Nat UInt32 D (Bool × String) :=
  if cfg.channels.isEmpty then return (true, "No channels provided; skipping trigger threshold programming.\n")
  else match (listed cfg).find? (· ≥ 40) with
    | some ch => return (false, "Channel out of range for trigger threshold: " ++ toString ch ++ " (0..39).\n")
    | none => programThresholds fails cfg

/-! ### Controls -/

def stuffBase : Nat := 0x94000000
def offStConfig : Nat := 0x2C
def offStDelay : Nat := 0x30
def offStFilterOutputSel : Nat := 0x34
def offStAfeCompLo : Nat := 0x3C
def offStAfeCompHi : Nat := 0x40
def offStInvertLo : Nat := 0x44
def offStInvertHi : Nat := 0x48

def hexU64 (value : UInt64) (width : Nat) : String :=
  let digits := (Nat.toDigits 16 value.toNat).map Char.toUpper
  "0x" ++ String.ofList (List.replicate (width - digits.length) '0' ++ digits)

def lower32 (value : UInt64) : UInt32 := (value &&& 0xFFFFFFFF).toUInt32

def upper40 (value : UInt64) : UInt32 := ((value >>> 32) &&& 0xFF).toUInt32

def filterOutputSel (tpConf : UInt64) : UInt32 := (tpConf &&& 0x3).toUInt32

def stConfig (tpConf : UInt64) : UInt32 := ((tpConf >>> 2) &&& 0x3FFF).toUInt32

def signalDelay (tpConf : UInt64) : UInt32 := ((tpConf >>> 16) &&& 0x1F).toUInt32

/-- The registers that `tp_conf` is for; none is written if it is zero. -/
def writeTpConf (stuff : DevMem) (tpConf : UInt64) : Prog Nat UInt32 D String :=
  if tpConf ≠ 0 then do
    stuff.writeU32 offStConfig (stConfig tpConf)
    stuff.writeU32 offStDelay (signalDelay tpConf)
    stuff.writeU32 offStFilterOutputSel (filterOutputSel tpConf)
    return "tp_conf " ++ hexU64 tpConf 8 ++ " -> st_config=" ++ hexU64 (stConfig tpConf).toUInt64 4 ++ " signal_delay=" ++
      toString (signalDelay tpConf) ++ " filter_output_selector=" ++ toString (filterOutputSel tpConf) ++ ".\n"
  else return "tp_conf is zero; leaving descriptor config/delay/filter selector unchanged.\n"

/-- The accesses of `write_self_trigger_controls`. -/
def writeControls (cfg : ConfigureRequest) : Prog Nat UInt32 D String := do
  let stuff ← DevMem.mapMemory fails stuffBase 0x100
  let tpLine ← writeTpConf stuff cfg.tp_conf
  let comp := cfg.compensator &&& 0xFFFFFFFFFF
  stuff.writeU32 offStAfeCompLo (lower32 comp)
  stuff.writeU32 offStAfeCompHi (upper40 comp)
  let inv := cfg.inverters &&& 0xFFFFFFFFFF
  stuff.writeU32 offStInvertLo (lower32 inv)
  stuff.writeU32 offStInvertHi (upper40 inv)
  return tpLine ++ "compensator mask=" ++ hexU64 comp 10 ++ ".\ninverter mask=" ++ hexU64 inv 10 ++ ".\n" ++
    if cfg.self_trigger_xcorr >>> 28 ≠ 0 then
      "self_trigger_xcorr discrimination field=" ++ hexU64 ((cfg.self_trigger_xcorr >>> 28) &&& 0x3FFF) 4 ++
        " has no separate register in this gateware; threshold_xc uses bits [27:0].\n"
    else ""

/-- `write_self_trigger_controls`, with the response message. -/
def writeSelfTriggerControls (cfg : ConfigureRequest) : Prog Nat UInt32 D (Bool × String) := do
  match ← attempt (writeControls fails cfg) with
  | .ok lines => return (true, lines)
  | .error e => return (false, "Failed to write self-trigger control registers via /dev/mem: " ++ e ++ ".\n")

end

/-- A configure request with the packed words and no other threshold. -/
def packed (trigger : Trigger) (conf : XcorrConf) (cfg : ConfigureRequest) : ConfigureRequest :=
  { cfg with
    tp_conf := .ofNat (assembleTpConf trigger)
    self_trigger_xcorr := .ofNat (computeSelfTriggerXcorr conf)
    self_trigger_threshold := 0 }

end SelfTrigger
end DaphneZmq
