import DaphneZmq.Daphne
import DaphneZmq.SelfTrigger

/-! # Request handlers (server_controller/handlers.cpp)

The requests that write the DACs and the AFE registers, and those that read the driver state. A handler is modelled by
its `try` block; `Request.caught` has the texts of the `catch` clauses. -/

namespace DaphneZmq
open Lib.Device

namespace Handlers

/-- `AFE_board2PL_map.at(afeBoard)`. -/
def afePL (afeBoard : Nat) : Prog Nat UInt32 Daphne Nat :=
  match Chunker.afeBoard2PLMap afeBoard with
  | some afe => return afe
  | none => throw "unordered_map::at"

section
variable (b : Board)

/-! ### Trims and offsets -/

/-- `setChTrimDictValue` or `setChOffsetDictValue`. -/
def setChDictValue (kind : Dac.Kind) (ch : Nat) (value : UInt32) : Prog Nat UInt32 Daphne Unit :=
  match kind with
  | .trim => Daphne.setChTrimDictValue ch value
  | .offset => Daphne.setChOffsetDictValue ch value

def getChDictValue (kind : Dac.Kind) (ch : Nat) : Prog Nat UInt32 Daphne UInt32 :=
  match kind with
  | .trim => Daphne.getChTrimDictValue ch
  | .offset => Daphne.getChOffsetDictValue ch

/-- The word of an AFE is written for one of its channels, by `setDacTrim` or `setDacOffset`, and the value is kept. -/
def setChannel (kind : Dac.Kind) (afe idx ch : Nat) (value : UInt32) (gain : Bool) : Prog Nat UInt32 Daphne Unit := do
  let _ ← Daphne.dac (Dac.updateCurrentRegister b.env kind afe idx value gain false)
  setChDictValue kind ch value

/-- The handler of a single channel, with the texts for a value and for a channel that are out of range. -/
def writeChannel (kind : Dac.Kind) (valueText channelText : String) (ch value : UInt32) (gain : Bool) :
    Prog Nat UInt32 Daphne UInt32 :=
  if value > 4095 then throw valueText
  else if ch > 39 then throw channelText
  else do
    let afe ← afePL (ch.toNat / 8)
    setChannel b kind afe (ch.toNat % 8) ch.toNat value gain
    getChDictValue kind ch.toNat

def writeChannelTrim (trimChannel trimValue : UInt32) (trimGain : Bool) : Prog Nat UInt32 Daphne UInt32 :=
  writeChannel b .trim "trimValue out of range (0..4095)" "trimChannel out of range (0..39)" trimChannel trimValue trimGain

def writeChannelOffset (offsetChannel offsetValue : UInt32) (offsetGain : Bool) : Prog Nat UInt32 Daphne UInt32 :=
  writeChannel b .offset "offsetValue out of range (0..4095)" "offsetChannel out of range (0..39)" offsetChannel
    offsetValue offsetGain

/-- The handler of all channels. -/
def writeAllChannels (kind : Dac.Kind) (valueText : String) (value : UInt32) (gain : Bool) : Prog Nat UInt32 Daphne Unit :=
  if value > 4095 then throw valueText
  else (List.range 40).forM fun ch => do
    let afe ← afePL (ch / 8)
    setChannel b kind afe (ch % 8) ch value gain

def writeTrimAllChannels (trimValue : UInt32) (trimGain : Bool) : Prog Nat UInt32 Daphne Unit :=
  writeAllChannels b .trim "trimValue out of range (0..4095)" trimValue trimGain

def writeOffsetAllChannels (offsetValue : UInt32) (offsetGain : Bool) : Prog Nat UInt32 Daphne Unit :=
  writeAllChannels b .offset "offsetValue out of range (0..4095)" offsetValue offsetGain

/-- The handler of the channels of an AFE. -/
def writeAllAFE (kind : Dac.Kind) (valueText : String) (afeBlock value : UInt32) (gain : Bool) : Prog Nat UInt32 Daphne Unit :=
  if value > 4095 then throw valueText
  else if afeBlock > 4 then throw "afeBlock out of range (0..4)"
  else do
    let afe ← afePL afeBlock.toNat
    (List.range 8).forM fun idx => setChannel b kind afe idx (afeBlock.toNat * 8 + idx) value gain

def writeTrimAllAFE (afeBlock trimValue : UInt32) (trimGain : Bool) : Prog Nat UInt32 Daphne Unit :=
  writeAllAFE b .trim "trimValue out of range (0..4095)" afeBlock trimValue trimGain

def writeOffsetAllAFE (afeBlock offsetValue : UInt32) (offsetGain : Bool) : Prog Nat UInt32 Daphne Unit :=
  writeAllAFE b .offset "offsetValue out of range (0..4095)" afeBlock offsetValue offsetGain

/-! ### Gains and biases -/

/-- `setDacGain` and `setAfeAttenuationDictValue`. -/
def setGain (afe : Nat) (value : UInt32) : Prog Nat UInt32 Daphne Unit := do
  let _ ← Dac.setDacGain b.env afe value
  Daphne.setAfeAttenuationDictValue afe value

/-- `setDacBias` and `setBiasVoltageDictValue`. -/
def setBias (afe : Nat) (value : UInt32) : Prog Nat UInt32 Daphne Unit := do
  let _ ← Dac.setDacBias b.env afe value
  Daphne.setBiasVoltageDictValue afe value

/-- `setDacHvBias`, `setBiasEnable` and `setBiasControlDictValue`, with the value that the first one returns. -/
def setBiasControl (value : UInt32) (enable : Bool) : Prog Nat UInt32 Daphne UInt32 := do
  let returnedControlValue ← Dac.setDacHvBias b.env value false false
  let _ ← Dac.setBiasEnable b.env enable
  Daphne.setBiasControlDictValue value
  return returnedControlValue

/-- A gain is written, with the text for a value that is out of range. -/
def writeGain (valueText : String) (afeBlock value : UInt32) : Prog Nat UInt32 Daphne UInt32 := do
  let afe ← afePL afeBlock.toNat
  if value > 4095 then throw valueText
  else do
    setGain b afe value
    Daphne.getAfeAttenuationDictValue afe

def writeAFEVgain (afeBlock vgainValue : UInt32) : Prog Nat UInt32 Daphne UInt32 :=
  writeGain b "VGAIN out of range (0..4095)" afeBlock vgainValue

def writeAFEAttenuation (afeBlock attenuation : UInt32) : Prog Nat UInt32 Daphne UInt32 :=
  writeGain b "attenuation out of range (0..4095)" afeBlock attenuation

def writeAFEBiasVoltage (afeBlock biasValue : UInt32) : Prog Nat UInt32 Daphne UInt32 := do
  let afe ← afePL afeBlock.toNat
  if biasValue > 4095 then throw "bias out of range (0..4095)"
  else do
    setBias b afe biasValue
    Daphne.getBiasVoltageDictValue afe

def writeBiasVoltageControl (vBiasControlValue : UInt32) (enable : Bool) : Prog Nat UInt32 Daphne UInt32 :=
  if vBiasControlValue > 4095 then throw "vbiasControlValue out of range (0..4095)"
  else setBiasControl b vBiasControlValue enable

/-! ### AFE registers -/

def writeAFERegister (afeBlock regAddress regValue : UInt32) : Prog Nat UInt32 Daphne UInt32 := do
  let afe ← afePL afeBlock.toNat
  let returnedValue ← Afe.setRegister b.env afe regAddress regValue
  Daphne.setAfeRegDictValue afe regAddress returnedValue
  return returnedValue

/-- `writeAFEFunction`; `setAFEFunction` takes a 16-bit value. -/
def writeAFEFunction (afeBlock : UInt32) (function : String) (configValue : UInt32) : Prog Nat UInt32 Daphne UInt32 := do
  let afe ← afePL afeBlock.toNat
  if afe > 4 then throw "AFE out of range (0..4)"
  else Afe.setAFEFunction b.env b.undefinedMask afe function configValue.toUInt16

/-! ### Configuration -/

def configureChannel (config : ChannelConfig) : Prog Nat UInt32 Daphne Unit :=
  if config.id > 39 then throw ("Channel out of range (0..39): " ++ toString config.id)
  else do
    let afe ← afePL (config.id.toNat / 8)
    setChannel b .trim afe (config.id.toNat % 8) config.id.toNat config.trim false
    setChannel b .offset afe (config.id.toNat % 8) config.id.toNat config.offset false

/-- The bias control of a request, or its default if some AFE asks for a bias. -/
def configureBiasControl (cfg : ConfigureRequest) : Prog Nat UInt32 Daphne Unit :=
  if cfg.biasctrl ≤ 4095 then do
    let _ ← setBiasControl b cfg.biasctrl true
  else if cfg.afes.any (·.v_bias > 0) then do
    let _ ← setBiasControl b 4095 true
  else return ()

/-- The gain and the bias of an AFE. -/
def configureLevels (afe : Nat) (config : AFEConfig) : Prog Nat UInt32 Daphne Unit :=
  if config.attenuators > 4095 then throw ("VGAIN out of range for AFE " ++ toString config.id)
  else do
    setGain b afe config.attenuators
    if config.v_bias > 4095 then throw ("BIAS out of range for AFE " ++ toString config.id)
    else if config.v_bias ≠ 0 then setBias b afe config.v_bias
    else return ()

/-- The functions that are set in an AFE, in order, with the values of the fields of the request. -/
def functionSettings (config : AFEConfig) : List (String × UInt32) :=
  [("SERIALIZED_DATA_RATE", 1), ("ADC_RESOLUTION_RESET", config.adc.resolution.toUInt32),
    ("ADC_OUTPUT_FORMAT", config.adc.output_format.toUInt32), ("LSB_MSB_FIRST", config.adc.sb_first.toUInt32),
    ("LPF_PROGRAMMABILITY", config.pga.lpf_cut_frequency),
    ("PGA_INTEGRATOR_DISABLE", config.pga.integrator_disable.toUInt32), ("PGA_CLAMP_LEVEL", 2),
    ("ACTIVE_TERMINATION_ENABLE", 0), ("LNA_INPUT_CLAMP_SETTING", config.lna.clamp), ("LNA_GAIN", config.lna.gain),
    ("LNA_INTEGRATOR_DISABLE", config.lna.integrator_disable.toUInt32)]

def applySetting (afe : Nat) (setting : String × UInt32) : Prog Nat UInt32 Daphne Unit := do
  let _ ← Afe.setAFEFunction b.env b.undefinedMask afe setting.1 setting.2.toUInt16

def configureAFE (config : AFEConfig) : Prog Nat UInt32 Daphne Unit := do
  let afe ← afePL config.id.toNat
  configureLevels b afe config
  (functionSettings config).forM (applySetting b afe)

def configureReset : Prog Nat UInt32 Daphne Unit :=
  if b.resets then do
    let _ ← Afe.doReset b.env
    let _ ← Afe.setPowerState b.env 1
  else return ()

/-- The part of `configureDaphne` before the AFEs, with its success so far. -/
def configureBoard (cfg : ConfigureRequest) : Prog Nat UInt32 Daphne Bool := do
  configureReset b
  let thr ← SelfTrigger.writeTriggerThresholds b.mapFails cfg
  let st ← SelfTrigger.writeSelfTriggerControls b.mapFails cfg
  cfg.channels.forM (configureChannel b)
  configureBiasControl b cfg
  return thr.1 && st.1

def configurePower : Prog Nat UInt32 Daphne Unit :=
  if b.resets then do
    let _ ← Afe.setPowerState b.env 1
  else return ()

def configureDaphne (cfg : ConfigureRequest) : Prog Nat UInt32 Daphne Bool := do
  let ok ← configureBoard b cfg
  cfg.afes.forM (configureAFE b)
  configurePower b
  return ok

end

/-! ### Reads -/

def readAFEReg (afeBlock regAddress : UInt32) : Prog Nat UInt32 Daphne UInt32 := do
  let afe ← afePL afeBlock.toNat
  Daphne.getAfeRegDictValue afe regAddress

def readAFEVgain (afeBlock : UInt32) : Prog Nat UInt32 Daphne UInt32 := do
  let afe ← afePL afeBlock.toNat
  Daphne.getAfeAttenuationDictValue afe

def readAFEBiasSet (afeBlock : UInt32) : Prog Nat UInt32 Daphne UInt32 := do
  let afe ← afePL afeBlock.toNat
  Daphne.getBiasVoltageDictValue afe

/-- `readTrimAllChannels` and `readOffsetAllChannels`. -/
def readAllChannels (kind : Dac.Kind) : Prog Nat UInt32 Daphne (List UInt32) := (List.range 40).mapM (getChDictValue kind)

/-- `readTrimAllAFE` and `readOffsetAllAFE`. -/
def readAllAFE (kind : Dac.Kind) (afeBlock : UInt32) : Prog Nat UInt32 Daphne (List UInt32) :=
  if afeBlock > 4 then throw "AFE out of range (0..4)"
  else (List.range 8).mapM fun idx => getChDictValue kind (afeBlock.toNat * 8 + idx)

/-- `readTrimSingleChannel` and `readOffsetSingleChannel`. -/
def readSingleChannel (kind : Dac.Kind) (ch : UInt32) : Prog Nat UInt32 Daphne UInt32 := getChDictValue kind ch.toNat

def readVbiasControl : Prog Nat UInt32 Daphne UInt32 := Daphne.getBiasControlDictValue

end Handlers

/-! ### Requests -/

inductive Request where
  | configure (cfg : ConfigureRequest)
  | writeAFEReg (afeBlock regAddress regValue : UInt32)
  | writeAFEVgain (afeBlock vgainValue : UInt32)
  | writeAFEAttenuation (afeBlock attenuation : UInt32)
  | writeAFEBiasSet (afeBlock biasValue : UInt32)
  | writeTrimSingleChannel (trimChannel trimValue : UInt32) (trimGain : Bool)
  | writeTrimAllChannels (trimValue : UInt32) (trimGain : Bool)
  | writeTrimAllAFE (afeBlock trimValue : UInt32) (trimGain : Bool)
  | writeOffsetSingleChannel (offsetChannel offsetValue : UInt32) (offsetGain : Bool)
  | writeOffsetAllChannels (offsetValue : UInt32) (offsetGain : Bool)
  | writeOffsetAllAFE (afeBlock offsetValue : UInt32) (offsetGain : Bool)
  | writeVbiasControl (vBiasControlValue : UInt32) (enable : Bool)
  | writeAFEFunction (afeBlock : UInt32) (function : String) (configValue : UInt32)
  | readAFEReg (afeBlock regAddress : UInt32)
  | readAFEVgain (afeBlock : UInt32)
  | readAFEBiasSet (afeBlock : UInt32)
  | readAllChannels (kind : Dac.Kind)
  | readAllAFE (kind : Dac.Kind) (afeBlock : UInt32)
  | readSingleChannel (kind : Dac.Kind) (ch : UInt32)
  | readVbiasControl

/-- The success flag and the values of a response. -/
structure Response where
  success : Bool
  values : List UInt32
  deriving DecidableEq

abbrev ServerState := State Nat UInt32 Daphne

namespace Request
open Handlers

/-- The handler of a request. -/
def prog (b : Board) : Request → Prog Nat UInt32 Daphne Response
  | configure cfg => do return ⟨← configureDaphne b cfg, []⟩
  | writeAFEReg afe reg value => do return ⟨true, [← writeAFERegister b afe reg value]⟩
  | writeAFEVgain afe value => do return ⟨true, [← Handlers.writeAFEVgain b afe value]⟩
  | writeAFEAttenuation afe value => do return ⟨true, [← Handlers.writeAFEAttenuation b afe value]⟩
  | writeAFEBiasSet afe value => do return ⟨true, [← writeAFEBiasVoltage b afe value]⟩
  | writeTrimSingleChannel ch value gain => do return ⟨true, [← writeChannelTrim b ch value gain]⟩
  | writeTrimAllChannels value gain => do
    Handlers.writeTrimAllChannels b value gain
    return ⟨true, [value]⟩
  | writeTrimAllAFE afe value gain => do
    Handlers.writeTrimAllAFE b afe value gain
    return ⟨true, [value]⟩
  | writeOffsetSingleChannel ch value gain => do return ⟨true, [← writeChannelOffset b ch value gain]⟩
  | writeOffsetAllChannels value gain => do
    Handlers.writeOffsetAllChannels b value gain
    return ⟨true, [value]⟩
  | writeOffsetAllAFE afe value gain => do
    Handlers.writeOffsetAllAFE b afe value gain
    return ⟨true, [value]⟩
  | writeVbiasControl value enable => do return ⟨true, [← writeBiasVoltageControl b value enable]⟩
  | writeAFEFunction afe function value => do return ⟨true, [← Handlers.writeAFEFunction b afe function value]⟩
  | readAFEReg afe reg => do return ⟨true, [← Handlers.readAFEReg afe reg]⟩
  | readAFEVgain afe => do return ⟨true, [← Handlers.readAFEVgain afe]⟩
  | readAFEBiasSet afe => do return ⟨true, [← Handlers.readAFEBiasSet afe]⟩
  | readAllChannels kind => do return ⟨true, ← Handlers.readAllChannels kind⟩
  | readAllAFE kind afe => do return ⟨true, ← Handlers.readAllAFE kind afe⟩
  | readSingleChannel kind ch => do return ⟨true, [← Handlers.readSingleChannel kind ch]⟩
  | readVbiasControl => do return ⟨true, [← Handlers.readVbiasControl]⟩

/-- The text that a handler responds with when its `try` block throws. -/
def caught (e : String) : Request → String
  | configure _ => "Caught Exception:\n" ++ e
  | writeAFEReg .. => "Error writing AFE Register: " ++ e
  | writeAFEVgain .. => "Error writing AFE VGAIN: " ++ e
  | writeAFEAttenuation .. => "Error writing AFE attenuation: " ++ e
  | writeAFEBiasSet .. => "Error writing AFE bias value: " ++ e
  | writeTrimSingleChannel .. => "Error writing Channel Trim value: " ++ e
  | writeOffsetSingleChannel .. => "Error writing Channel Offset value: " ++ e
  | writeTrimAllChannels .. | writeTrimAllAFE .. | writeOffsetAllChannels .. | writeOffsetAllAFE .. => e
  | writeVbiasControl .. => "Error writing Bias Control value: " ++ e
  | writeAFEFunction .. => "Error writing AFE function: " ++ e
  | readAFEReg .. => "Error reading AFE register: " ++ e
  | readAFEVgain _ => "Error reading AFE vgain: " ++ e
  | readAFEBiasSet _ => "Error reading AFE bias: " ++ e
  | readAllChannels .trim => "Error reading all channel trims: " ++ e
  | readAllChannels .offset => "Error reading all channel offsets: " ++ e
  | readAllAFE .trim _ => "Error reading AFE trims: " ++ e
  | readAllAFE .offset _ => "Error reading AFE offsets: " ++ e
  | readSingleChannel .trim _ => "Error reading channel trim: " ++ e
  | readSingleChannel .offset _ => "Error reading channel offset: " ++ e
  | readVbiasControl => "Error reading Vbias control: " ++ e

/-- What a client gets: a response, or the text of a failure. -/
def handle (b : Board) (r : Request) : Prog Nat UInt32 Daphne Response := rethrow (r.caught ·) (r.prog b)

/-- The state after a request, whether its handler returns or throws. -/
def step (b : Board) (s : ServerState) (r : Request) : ServerState :=
  match r.handle b s with
  | .ok _ t => t
  | .error _ t => t

/-- The handler throws an exception with this text. -/
def Throws (b : Board) (r : Request) (text : String) (s : ServerState) : Prop := ∃ t, r.prog b s = .error text t

/-- Whether the handler returns. -/
def answers (b : Board) (r : Request) (s : ServerState) : Bool :=
  match r.prog b s with
  | .ok .. => true
  | .error .. => false

theorem not_throws {b : Board} {r : Request} {s : ServerState} (h : r.answers b s = true) (text : String) :
    ¬r.Throws b text s := by
  rintro ⟨t, ht⟩
  rw [answers, ht] at h
  cases h

end Request

/-- The state when the server has started, with the registers as they are then. -/
def ServerState.start (cells : Nat → UInt32) (reads : Nat → Nat) (accesses : Nat) : ServerState where
  cells
  reads
  accesses
  writes := []
  driver := .initial

/-- A server on a board that is never busy. -/
def ServerState.fresh : ServerState := .start (fun _ => 0) (fun _ => 0) 0

def Board.idle : Board where
  control _ := 0
  dacControl _ := 0
  polls _ := 0
  mapFails _ := none
  contents _ _ := 0
  undefinedMask := 0
  resets := false

/-- The states that a run of requests goes through, in which every request meets a condition on the state before it. -/
inductive Reached (b : Board) (admits : Request → ServerState → Prop) : ServerState → Prop where
  | start (cells : Nat → UInt32) (reads : Nat → Nat) (accesses : Nat) : Reached b admits (.start cells reads accesses)
  | step {s : ServerState} {r : Request} (hs : Reached b admits s) (hr : admits r s) : Reached b admits (r.step b s)

end DaphneZmq
