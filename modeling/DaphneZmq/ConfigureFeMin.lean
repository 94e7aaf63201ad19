import DaphneZmq.Handlers
import DaphneZmq.MergeLedIntensityRuns
import DaphneZmq.PdsConfigureUtils

/-! # Configuring the front end (client/configure_fe_min_v2.py)

The client sends one configuration, and behind it a request of its own for each bias that its arguments name. -/

namespace DaphneZmq.ConfigureFeMin
open PdsConfigureUtils
open MergeLedIntensityRuns (Dict sortedItems)

/-! ### Arguments -/

/-- The arguments, with the values that the dictionaries have for the names of the AFE settings. An override is a pair of a number
    and a code; the codes are those that the floats are rounded and the volts converted to. -/
structure Args where
  host : String
  timeout : UInt32
  cfg_timeout_ms : Option UInt32
  vgain : UInt32
  ch_offset : UInt32
  lpf_val : UInt32
  pga_gain_val : Bool
  lna_gain_val : UInt32
  lna_clamp_val : UInt32
  adc_resolution : Bool
  biasctrl_dac : Int
  biasctrl_volts : Option Int
  afe_bias_dac : List (Int × Int)
  afe_bias_volts : List (Int × Int)
  ch_trim : List (Int × Int)

/-- The check of the number in `_parse_afe_kv_tokens` and in `_parse_channel_kv_tokens`. -/
def checkNumber (label what : String) (max : Int) (item : Int × Int) : Except String (Int × Int) :=
  if item.1 < 0 ∨ max < item.1 then throw s!"{label}: {what} out of range (0..{max}), got {item.1}" else return item

def parseAfeKv (label : String) (items : List (Int × Int)) : Except String (List (Int × Int)) :=
  items.mapM (checkNumber label "AFE" 4)

def parseChannelKv (label : String) (items : List (Int × Int)) : Except String (List (Int × Int)) :=
  items.mapM (checkNumber label "channel" 39)

def validateDacRange (name : String) (value : Int) : Except String Int :=
  if value < 0 ∨ 4095 < value then throw s!"{name}: DAC out of range (0..4095), got {value}" else return value

/-- `overrides[n] = _validate_dac_range(name, value)` -/
def addOverride (name : Int → String) (overrides : Dict Int) (item : Int × Int) : Except String (Dict Int) := do
  let value ← validateDacRange (name item.1) item.2
  return overrides.insert item.1 value

def biasName (afe : Int) : String := s!"afe{afe} bias"

def trimName (ch : Int) : String := s!"ch{ch} trim"

def afeBiasOverrides (args : Args) : Except String (Dict Int) := do
  let dac ← parseAfeKv "--afe-bias-dac" args.afe_bias_dac
  let overrides ← dac.foldlM (addOverride biasName) ∅
  let volts ← parseAfeKv "--afe-bias-volts" args.afe_bias_volts
  volts.foldlM (addOverride biasName) overrides

def channelTrimOverrides (args : Args) : Except String (Dict Int) := do
  let trims ← parseChannelKv "--ch-trim" args.ch_trim
  trims.foldlM (addOverride trimName) ∅

/-! ### The configuration -/

/-- A code that has been validated, as a field of a request. -/
def code (value : Int) : UInt32 := UInt32.ofNat value.toNat

def overrideAfe (args : Args) (overrides : Dict Int) (afe : PdsConfigureUtils.AFEConfig) : PdsConfigureUtils.AFEConfig :=
  { afe with
    v_bias := match overrides.lookup (afeId afe) with
      | some value => code value
      | none => afe.v_bias
    adc := some { afe.adc.getD ADCConfig.new with resolution := args.adc_resolution } }

def overrideChannel (overrides : Dict Int) (ch : PdsConfigureUtils.ChannelConfig) : PdsConfigureUtils.ChannelConfig :=
  { ch with
    trim := match overrides.lookup (channelId ch) with
      | some value => code value
      | none => ch.trim }

def defaults (args : Args) (biasctrl_dac : Int) : Defaults where
  ip := args.host
  timeout_ms := args.cfg_timeout_ms.getD args.timeout
  biasctrl := code biasctrl_dac
  per_ch_offset := args.ch_offset
  vgain := args.vgain
  lpf_cutoff := args.lpf_val
  pga_gain := args.pga_gain_val
  lna_gain := args.lna_gain_val
  lna_clamp := args.lna_clamp_val

/-- The default request with the overrides. -/
def configOf (args : Args) (biasctrl_dac : Int) (channel_trim_overrides afe_bias_overrides : Dict Int) :
    PdsConfigureUtils.ConfigureRequest :=
  let cfg := makeDefaultConfig (defaults args biasctrl_dac)
  { cfg with
    channels := cfg.channels.map (overrideChannel channel_trim_overrides)
    afes := cfg.afes.map (overrideAfe args afe_bias_overrides) }

/-- What the client has made of its arguments before it sends anything. -/
structure Plan where
  cfg : PdsConfigureUtils.ConfigureRequest
  afe_bias_overrides : Dict Int

def prepare (args : Args) : Except String Plan := do
  let biasctrl_dac ← validateDacRange "biasctrl" (args.biasctrl_volts.getD args.biasctrl_dac)
  let afe_bias_overrides ← afeBiasOverrides args
  let channel_trim_overrides ← channelTrimOverrides args
  return { cfg := configOf args biasctrl_dac channel_trim_overrides afe_bias_overrides, afe_bias_overrides }

/-! ### The session -/

/-- How a request ends for the client; a response is the one to the request. -/
inductive Reply where
  | sendTimeout
  | recvTimeout
  | response (resp : Option Response)

section
variable {m : Type → Type} [Monad m] (transact : Request → m Reply)

/-- The loop of the bias writes, with the exit code if it ends the client. -/
def writeBiases : List (Int × Int) → m (Option Nat)
  | [] => return none
  | (afe_id, bias_dac) :: items => do
    match ← transact (.writeAFEBiasSet (code afe_id) (code bias_dac)) with
    | .sendTimeout => return some 9
    | .recvTimeout => return some 10
    | .response _ => writeBiases items

/-- The client with what it has prepared, and its exit code. -/
def send (plan : Plan) : m Nat := do
  match ← transact (.configure plan.cfg.received) with
  | .sendTimeout => return 3
  | .recvTimeout => return 4
  | .response out =>
    match ← writeBiases transact (sortedItems plan.afe_bias_overrides) with
    | some exit => return exit
    | none => return if (out.map Response.success).getD false then 0 else 1

def main (args : Args) : m (Except String Nat) := do
  match prepare args with
  | .error e => return .error e
  | .ok plan => return .ok (← send transact plan)

end

end DaphneZmq.ConfigureFeMin
