import DaphneZmq.Lib.Overlay
import DaphneZmq.SelfTrigger
import Mathlib.Tactic.Ring

/-! # Configure requests from a seed (client/pds_configure_utils.py)

A seed is a dictionary of parallel lists: the ids of the channels and of the AFEs, and for each field a list that is
matched to the ids by position. The client lays it over a default request. -/

namespace DaphneZmq.PdsConfigureUtils
open Lib.Overlay

/-! ### The request, as the client's protobuf library holds it -/

structure ChannelConfig extends DaphneZmq.ChannelConfig where
  gain : UInt32

structure PGAConfig extends DaphneZmq.PGAConfig where
  gain : Bool

def ChannelConfig.new : ChannelConfig := { id := 0, trim := 0, offset := 0, gain := 0 }
def ADCConfig.new : ADCConfig := { resolution := false, output_format := false, sb_first := false }
def PGAConfig.new : PGAConfig := { lpf_cut_frequency := 0, integrator_disable := false, gain := false }
def LNAConfig.new : LNAConfig := { clamp := 0, gain := 0, integrator_disable := false }

/-- A submessage may not be set; its fields then read as those of a new one. -/
structure AFEConfig where
  id : UInt32
  attenuators : UInt32
  v_bias : UInt32
  adc : Option ADCConfig
  pga : Option PGAConfig
  lna : Option LNAConfig

def AFEConfig.new : AFEConfig := { id := 0, attenuators := 0, v_bias := 0, adc := none, pga := none, lna := none }

structure ConfigureRequest where
  daphne_address : String := ""
  slot : UInt32 := 0
  timeout_ms : UInt32 := 0
  biasctrl : UInt32 := 0
  self_trigger_threshold : UInt64 := 0
  self_trigger_xcorr : UInt64 := 0
  tp_conf : UInt64 := 0
  compensator : UInt64 := 0
  inverters : UInt64 := 0
  channels : List ChannelConfig := []
  afes : List AFEConfig := []
  full_stream_channels : List UInt32 := []

/-! ### The seed -/

inductive Raised where
  | attributeError | typeError | valueError
deriving DecidableEq

/-- A value of the seed's JSON text; `X` has its other values, such as floats and strings. -/
inductive Value (X : Type) where
  | null
  | bool (b : Bool)
  | int (n : Int)
  | other (x : X)

/-- What Python and its protobuf library make of the other values, and of None where a list is due. -/
structure Library (X : Type) where
  int : X → Except Raised Int
  assign : X → Except Raised Int
  truth : X → Bool
  extendNone : Except Raised (List UInt32)

/-- An entry of a dictionary. -/
inductive Entry (α : Type) where
  | missing
  | null
  | value (a : α)

/-- `d.get(key, default)`, none for None. -/
def Entry.get {α : Type} (default : α) : Entry α → Option α
  | missing => some default
  | null => none
  | value a => some a

/-- `d.get(key)`, none for None. -/
def Entry.get? {α : Type} : Entry α → Option α
  | value a => some a
  | _ => none

variable {X : Type}

structure ChannelAnalogConf (X : Type) where
  ids : Entry (List (Value X)) := .missing
  offsets : Entry (List (Value X)) := .missing
  trims : Entry (List (Value X)) := .missing
  gains : Entry (List (Value X)) := .missing

structure Adcs (X : Type) where
  resolution : Entry (List (Value X)) := .missing
  output_format : Entry (List (Value X)) := .missing
  SB_first : Entry (List (Value X)) := .missing
  sb_first : Entry (List (Value X)) := .missing

structure Pgas (X : Type) where
  lpf_cut_frequency : Entry (List (Value X)) := .missing
  integrator_disable : Entry (List (Value X)) := .missing
  gain : Entry (List (Value X)) := .missing

structure Lnas (X : Type) where
  clamp : Entry (List (Value X)) := .missing
  gain : Entry (List (Value X)) := .missing
  integrator_disable : Entry (List (Value X)) := .missing

structure Afes (X : Type) where
  ids : Entry (List (Value X)) := .missing
  attenuators : Entry (List (Value X)) := .missing
  v_biases : Entry (List (Value X)) := .missing
  adcs : Entry (Adcs X) := .missing
  pgas : Entry (Pgas X) := .missing
  lnas : Entry (Lnas X) := .missing

/-- A number of the seed that is missing is none; a number that is null is a value. -/
structure Seed (X : Type) where
  slot_id : Option (Value X) := none
  bias_ctrl : Option (Value X) := none
  self_trigger_threshold : Option (Value X) := none
  self_trigger_xcorr : Option (Value X) := none
  tp_conf : Option (Value X) := none
  compensator : Option (Value X) := none
  inverter : Option (Value X) := none
  inverters : Option (Value X) := none
  full_stream_channels : Entry (List (Value X)) := .missing
  channel_analog_conf : Entry (ChannelAnalogConf X) := .missing
  afes : Entry (Afes X) := .missing

/-! ### Values -/

variable (lib : Library X)

/-- `int(value)`. -/
def toInt : Value X → Except Raised Int
  | .null => .error .typeError
  | .bool b => .ok (if b then 1 else 0)
  | .int n => .ok n
  | .other x => lib.int x

/-- `bool(value)`. -/
def toBool : Value X → Bool
  | .null => false
  | .bool b => b
  | .int n => decide (n ≠ 0)
  | .other x => lib.truth x

/-- The range check of an unsigned field of `w` bits. -/
def inRange (w : Nat) (n : Int) : Except Raised (BitVec w) :=
  if 0 ≤ n ∧ n < 2 ^ w then .ok (BitVec.ofInt w n) else .error .valueError

/-- What an unsigned field of `w` bits holds after an assignment. -/
def assign (w : Nat) : Value X → Except Raised (BitVec w)
  | .null => .error .typeError
  | .bool b => inRange w (if b then 1 else 0)
  | .int n => inRange w n
  | .other x => do inRange w (← lib.assign x)

def uint32 (value : Value X) : Except Raised UInt32 := UInt32.ofBitVec <$> assign lib 32 value

def uint64 (value : Value X) : Except Raised UInt64 := UInt64.ofBitVec <$> assign lib 64 value

/-- `_maybe_get`. -/
def maybeGet (values : Option (List (Value X))) (idx : Nat) (default : Value X) : Value X :=
  match values with
  | none => default
  | some values => (values[idx]?).getD default

def maybeGet32 (values : Option (List (Value X))) (idx : Nat) (default : UInt32) : Except Raised UInt32 :=
  uint32 lib (maybeGet values idx (.int default.toNat))

def maybeGetBool (values : Option (List (Value X))) (idx : Nat) (default : Bool) : Bool :=
  toBool lib (maybeGet values idx (.bool default))

def required {α : Type} (raised : Raised) : Option α → Except Raised α
  | some a => .ok a
  | none => .error raised

/-- An attribute of a value that may be None. -/
def deref {α : Type} (value : Option α) : Except Raised α := required .attributeError value

/-- What `enumerate` walks through. -/
def iterable {α : Type} (value : Option α) : Except Raised α := required .typeError value

/-! ### `build_request_from_seed` -/

/-- The lists that the channels are updated from. -/
structure ChannelLists (X : Type) where
  offsets : Option (List (Value X))
  trims : Option (List (Value X))
  gains : Option (List (Value X))

def ChannelAnalogConf.lists (conf : ChannelAnalogConf X) : ChannelLists X :=
  { offsets := conf.offsets.get [], trims := conf.trims.get [], gains := conf.gains.get [] }

/-- The body of the loop over the channels, after `_ensure_channel`. -/
def overlayChannel (lists : ChannelLists X) (idx : Nat) (ch : ChannelConfig) : Except Raised ChannelConfig := do
  let offset ← maybeGet32 lib lists.offsets idx ch.offset
  let trim ← maybeGet32 lib lists.trims idx ch.trim
  let gain ← maybeGet32 lib lists.gains idx ch.gain
  return { ch with offset, trim, gain }

def channelId (ch : ChannelConfig) : Int := ch.id.toNat

/-- `cfg.channels.add()` with its id. -/
def newChannel (ch_id : Int) : Except Raised ChannelConfig := do
  let id ← inRange 32 ch_id
  return { ChannelConfig.new with id := UInt32.ofBitVec id }

/-- `_ensure_channel`. -/
def ensureChannel : Int → List ChannelConfig → Except Raised (List ChannelConfig × ChannelConfig × List ChannelConfig) :=
  ensure channelId newChannel

/-- The lists that the AFEs are updated from. -/
structure AfeLists (X : Type) where
  attenuators : Option (List (Value X))
  v_biases : Option (List (Value X))
  adc_res : Option (List (Value X))
  adc_fmt : Option (List (Value X))
  adc_sb : Option (List (Value X))
  pga_cut : Option (List (Value X))
  pga_int : Option (List (Value X))
  pga_gain : Option (List (Value X))
  lna_clamp : Option (List (Value X))
  lna_gain : Option (List (Value X))
  lna_int : Option (List (Value X))

/-- `adcs.get("SB_first") or adcs.get("sb_first")`. -/
def Adcs.sb (adcs : Adcs X) : Option (List (Value X)) :=
  match adcs.SB_first.get? with
  | some (v :: values) => some (v :: values)
  | _ => adcs.sb_first.get?

def afeLists (afes : Afes X) (adcs : Adcs X) (pgas : Pgas X) (lnas : Lnas X) : AfeLists X where
  attenuators := afes.attenuators.get []
  v_biases := afes.v_biases.get []
  adc_res := adcs.resolution.get?
  adc_fmt := adcs.output_format.get?
  adc_sb := adcs.sb
  pga_cut := pgas.lpf_cut_frequency.get?
  pga_int := pgas.integrator_disable.get?
  pga_gain := pgas.gain.get?
  lna_clamp := lnas.clamp.get?
  lna_gain := lnas.gain.get?
  lna_int := lnas.integrator_disable.get?

/-- `if values is not None: m.field = ...`; the assignment sets the submessage. -/
def whenGiven {α : Type} (values : Option (List (Value X))) (new : α) (set : α → Except Raised α) (m : Option α) :
    Except Raised (Option α) :=
  match values with
  | none => .ok m
  | some _ => some <$> set (m.getD new)

def overlayAdc (lists : AfeLists X) (idx : Nat) (adc : Option ADCConfig) : Except Raised (Option ADCConfig) := do
  let adc ← whenGiven lists.adc_res ADCConfig.new
    (fun adc => .ok { adc with resolution := maybeGetBool lib lists.adc_res idx adc.resolution }) adc
  let adc ← whenGiven lists.adc_fmt ADCConfig.new
    (fun adc => .ok { adc with output_format := maybeGetBool lib lists.adc_fmt idx adc.output_format }) adc
  whenGiven lists.adc_sb ADCConfig.new
    (fun adc => .ok { adc with sb_first := maybeGetBool lib lists.adc_sb idx adc.sb_first }) adc

def overlayPga (lists : AfeLists X) (idx : Nat) (pga : Option PGAConfig) : Except Raised (Option PGAConfig) := do
  let pga ← whenGiven lists.pga_cut PGAConfig.new
    (fun pga => do return { pga with lpf_cut_frequency := ← maybeGet32 lib lists.pga_cut idx pga.lpf_cut_frequency }) pga
  let pga ← whenGiven lists.pga_int PGAConfig.new
    (fun pga => .ok { pga with integrator_disable := maybeGetBool lib lists.pga_int idx pga.integrator_disable }) pga
  whenGiven lists.pga_gain PGAConfig.new
    (fun pga => .ok { pga with gain := maybeGetBool lib lists.pga_gain idx pga.gain }) pga

def overlayLna (lists : AfeLists X) (idx : Nat) (lna : Option LNAConfig) : Except Raised (Option LNAConfig) := do
  let lna ← whenGiven lists.lna_clamp LNAConfig.new
    (fun lna => do return { lna with clamp := ← maybeGet32 lib lists.lna_clamp idx lna.clamp }) lna
  let lna ← whenGiven lists.lna_gain LNAConfig.new
    (fun lna => do return { lna with gain := ← maybeGet32 lib lists.lna_gain idx lna.gain }) lna
  whenGiven lists.lna_int LNAConfig.new
    (fun lna => .ok { lna with integrator_disable := maybeGetBool lib lists.lna_int idx lna.integrator_disable }) lna

/-- The body of the loop over the AFEs, after `_ensure_afe`. -/
def overlayAfe (prefer_seed_common : Bool) (lists : AfeLists X) (idx : Nat) (afe : AFEConfig) : Except Raised AFEConfig := do
  let attenuators ← maybeGet32 lib lists.attenuators idx afe.attenuators
  let v_bias ← maybeGet32 lib lists.v_biases idx afe.v_bias
  let afe := { afe with attenuators, v_bias }
  if prefer_seed_common then
    let adc ← overlayAdc lib lists idx afe.adc
    let pga ← overlayPga lib lists idx afe.pga
    let lna ← overlayLna lib lists idx afe.lna
    return { afe with adc, pga, lna }
  else
    return afe

def afeId (afe : AFEConfig) : Int := afe.id.toNat

/-- `cfg.afes.add()` with its id. -/
def newAfe (afe_id : Int) : Except Raised AFEConfig := do
  let id ← inRange 32 afe_id
  return { AFEConfig.new with id := UInt32.ofBitVec id }

/-- `_ensure_afe`. -/
def ensureAfe : Int → List AFEConfig → Except Raised (List AFEConfig × AFEConfig × List AFEConfig) := ensure afeId newAfe

/-- `cfg.field = seed_cfg.get(key, cfg.field)`. -/
def given32 (value : Option (Value X)) (field : UInt32) : Except Raised UInt32 := uint32 lib (value.getD (.int field.toNat))

def given64 (value : Option (Value X)) (field : UInt64) : Except Raised UInt64 := uint64 lib (value.getD (.int field.toNat))

def fullStreamChannels (seed_cfg : Seed X) : Except Raised (List UInt32) :=
  match seed_cfg.full_stream_channels.get [] with
  | some values => values.mapM (uint32 lib)
  | none => lib.extendNone

def buildRequestFromSeed (seed_cfg : Seed X) (defaults_cfg : ConfigureRequest) (prefer_seed_common : Bool) :
    Except Raised ConfigureRequest := do
  let cfg := defaults_cfg
  let slot ← given32 lib seed_cfg.slot_id cfg.slot
  let biasctrl ← given32 lib seed_cfg.bias_ctrl cfg.biasctrl
  let self_trigger_threshold ← given64 lib seed_cfg.self_trigger_threshold cfg.self_trigger_threshold
  let self_trigger_xcorr ← given64 lib seed_cfg.self_trigger_xcorr cfg.self_trigger_xcorr
  let tp_conf ← given64 lib seed_cfg.tp_conf cfg.tp_conf
  let compensator ← given64 lib seed_cfg.compensator cfg.compensator
  let inverters ← given64 lib (seed_cfg.inverter.or seed_cfg.inverters) cfg.inverters
  let full_stream_channels ← fullStreamChannels lib seed_cfg
  let chan_cfg ← deref (seed_cfg.channel_analog_conf.get {})
  let ch_ids ← iterable (chan_cfg.ids.get [])
  let channels ← overlay (toInt lib) ensureChannel (overlayChannel lib chan_cfg.lists) ch_ids cfg.channels
  let afes ← deref (seed_cfg.afes.get {})
  let adcs ← deref (afes.adcs.get {})
  let pgas ← deref (afes.pgas.get {})
  let lnas ← deref (afes.lnas.get {})
  let afe_ids ← iterable (afes.ids.get [])
  let afes ← overlay (toInt lib) ensureAfe (overlayAfe lib prefer_seed_common (afeLists afes adcs pgas lnas)) afe_ids cfg.afes
  return { cfg with slot, biasctrl, self_trigger_threshold, self_trigger_xcorr, tp_conf, compensator, inverters,
                    full_stream_channels, channels, afes }

/-! ### The default request -/

/-- The arguments of `make_default_config` of configure_fe_min_v2.py. -/
structure Defaults where
  ip : String := "10.73.137.161"
  slot : UInt32 := 0
  timeout_ms : UInt32 := 500
  biasctrl : UInt32 := 1300
  self_trigger_threshold : UInt64 := 0xc
  self_trigger_xcorr : UInt64 := 0x68
  tp_conf : UInt64 := 0x0010DB35
  compensator : UInt64 := 0xFFFFFFFFFF
  inverters : UInt64 := 0xFF00000000
  per_ch_trim : UInt32 := 0
  per_ch_offset : UInt32 := 2275
  vgain : UInt32 := 1600
  lpf_cutoff : UInt32 := 4
  pga_gain : Bool := false
  lna_gain : UInt32 := 2
  lna_clamp : UInt32 := 0

def defaultChannel (args : Defaults) (ch : Nat) : ChannelConfig where
  id := ch.toUInt32
  trim := args.per_ch_trim
  offset := args.per_ch_offset
  gain := 1

def defaultAfe (args : Defaults) (afe : Nat) : AFEConfig where
  id := afe.toUInt32
  attenuators := args.vgain
  v_bias := 0
  adc := some { resolution := true, output_format := true, sb_first := false }
  pga := some { lpf_cut_frequency := args.lpf_cutoff, integrator_disable := true, gain := args.pga_gain }
  lna := some { clamp := args.lna_clamp, gain := args.lna_gain, integrator_disable := true }

def makeDefaultConfig (args : Defaults) : ConfigureRequest where
  daphne_address := args.ip
  slot := args.slot
  timeout_ms := args.timeout_ms
  biasctrl := args.biasctrl
  self_trigger_threshold := args.self_trigger_threshold
  self_trigger_xcorr := args.self_trigger_xcorr
  tp_conf := args.tp_conf
  compensator := args.compensator
  inverters := args.inverters
  channels := (List.range 40).map (defaultChannel args)
  afes := (List.range 5).map (defaultAfe args)

/-! ### Seeds of numbers -/

def numbers : Library Empty := ⟨nofun, nofun, nofun, .error .typeError⟩

def each (n : Nat) (value : Int) : Entry (List (Value Empty)) := .value (List.replicate n (.int value))

def ints (values : List Int) : Entry (List (Value Empty)) := .value (values.map .int)

/-! ### The request at the server -/

/-- The request as the server reads it; a submessage that is not set reads as a new one. -/
def ConfigureRequest.received (cfg : ConfigureRequest) : DaphneZmq.ConfigureRequest where
  biasctrl := cfg.biasctrl
  self_trigger_threshold := cfg.self_trigger_threshold
  self_trigger_xcorr := cfg.self_trigger_xcorr
  tp_conf := cfg.tp_conf
  compensator := cfg.compensator
  inverters := cfg.inverters
  channels := cfg.channels.map fun ch => ch.toChannelConfig
  afes := cfg.afes.map fun afe => {
    id := afe.id
    attenuators := afe.attenuators
    v_bias := afe.v_bias
    adc := afe.adc.getD ADCConfig.new
    pga := (afe.pga.getD PGAConfig.new).toPGAConfig
    lna := afe.lna.getD LNAConfig.new }

end DaphneZmq.PdsConfigureUtils
