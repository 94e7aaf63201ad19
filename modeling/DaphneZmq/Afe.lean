import DaphneZmq.Dac
import DaphneZmq.Lib.Frame

/-! # AFE registers (Afe.cpp, defines.hpp)

The registers of an AFE are written and read over SPI, through one word for each AFE. A function of an AFE is a field
of a register, with a list of the values that it can have. -/

namespace DaphneZmq
open Lib.Device

namespace Afe

def afeGlobalControlReset : BitField := { addr := 0x0, low := 0, high := 0 }
def afeGlobalControlPowerstate : BitField := { addr := 0x0, low := 1, high := 1 }
def afeControl (afe : Nat) : BitField := { addr := 0x00000004 + afe * 0xC, low := 0, high := 23 }

def registerList : List UInt32 :=
  [0, 1, 2, 3, 4, 5, 10, 13, 15, 17, 19, 21, 25, 27, 29, 31, 33, 50, 51, 52, 53, 54, 55, 56, 57, 59, 66]

/-- The register of a function, with its highest and its lowest bit. -/
def afeFunctionDict : List (String × UInt32 × Nat × Nat) :=
  [("SOFTWARE_RESET", 0, 0, 0), ("REGISTER_READOUT_ENABLE", 0, 1, 1), ("ADC_COMPLETE_PDN", 1, 0, 0),
    ("LVDS_OUTPUT_DISABLE", 1, 1, 1), ("ADC_PDN_CH", 1, 9, 2), ("PARTIAL_PDN", 1, 10, 10),
    ("LOW_FREQUENCY_NOISE_SUPPRESSION", 1, 11, 11), ("EXT_REF", 1, 13, 13), ("LVDS_OUTPUT_RATE_2X", 1, 12, 14),
    ("SINGLE-ENDED_CLK_MODE", 1, 15, 15), ("POWER-DOWN_LVDS", 2, 10, 3), ("AVERAGING_ENABLE", 2, 11, 11),
    ("LOW_LATENCY", 2, 12, 12), ("TEST_PATTERN_MODES", 2, 15, 13), ("INVERT_CHANNELS", 3, 7, 0),
    ("CHANNEL_OFFSET_SUBSTRACTION_ENABLE", 3, 8, 8), ("DIGITAL_GAIN_ENABLE", 3, 12, 12),
    ("SERIALIZED_DATA_RATE", 3, 14, 13), ("ENABLE_EXTERNAL_REFERENCE_MODE", 3, 15, 15),
    ("ADC_RESOLUTION_RESET", 4, 1, 1), ("ADC_OUTPUT_FORMAT", 4, 3, 3), ("LSB_MSB_FIRST", 4, 4, 4),
    ("CUSTOM_PATTERN", 5, 13, 0), ("SYNC_PATTERN", 10, 8, 8), ("OFFSET_CH1", 13, 9, 0),
    ("DIGITAL_GAIN_CH1", 13, 15, 11), ("OFFSET_CH2", 15, 9, 0), ("DIGITAL_GAIN_CH2", 15, 15, 11),
    ("OFFSET_CH3", 17, 9, 0), ("DIGITAL_GAIN_CH3", 17, 15, 11), ("OFFSET_CH4", 19, 9, 0),
    ("DIGITAL_GAIN_CH4", 19, 15, 11), ("DIGITAL_HPF_FILTER_ENABLE_CH1-4", 21, 0, 0),
    ("DIGITAL_HPF_FILTER_K_CH1-4", 21, 4, 1), ("OFFSET_CH8", 25, 9, 0), ("DIGITAL_GAIN_CH8", 25, 15, 11),
    ("OFFSET_CH7", 27, 9, 0), ("DIGITAL_GAIN_CH7", 27, 15, 11), ("OFFSET_CH6", 29, 9, 0),
    ("DIGITAL_GAIN_CH6", 29, 15, 11), ("OFFSET_CH5", 31, 9, 0), ("DIGITAL_GAIN_CH5", 31, 15, 11),
    ("DIGITAL_HPF_FILTER_ENABLE_CH5-8", 33, 0, 0), ("DIGITAL_HPF_FILTER_K_CH5-8", 33, 4, 1), ("DITHER", 66, 15, 15),
    ("PGA_CLAMP_-6dB", 50, 10, 10), ("LPF_PROGRAMMABILITY", 51, 3, 1), ("PGA_INTEGRATOR_DISABLE", 51, 4, 4),
    ("PGA_CLAMP_LEVEL", 51, 7, 5), ("PGA_GAIN_CONTROL", 51, 13, 13),
    ("ACTIVE_TERMINATION_INDIVIDUAL_RESISTOR_CNTL", 52, 4, 0),
    ("ACTIVE_TERMINATION_INDIVIDUAL_RESISTOR_ENABLE", 52, 5, 5), ("PRESET_ACTIVE_TERMINATIONS", 52, 7, 6),
    ("ACTIVE_TERMINATION_ENABLE", 52, 8, 8), ("LNA_INPUT_CLAMP_SETTING", 52, 10, 9),
    ("LNA_INTEGRATOR_DISABLE", 52, 12, 12), ("LNA_GAIN", 52, 14, 13), ("LNA_INDIVIDUAL_CH_CNTL", 52, 15, 15),
    ("PDN_CH", 53, 7, 0), ("LOW_POWER", 53, 10, 10), ("MED_POWER", 53, 11, 11), ("PDN_VCAT_PGA", 53, 12, 12),
    ("PDN_LNA", 53, 13, 13), ("VCA_PARTIAL_PDN", 53, 14, 14), ("VCA_COMPLETE_PDN", 53, 15, 15),
    ("CW_SUM_AMP_GAIN_CNTL", 54, 4, 0), ("CW_16X_CLK_SEL", 54, 5, 5), ("CW_1X_CLK_SEL", 54, 6, 6),
    ("CW_TGC_SEL", 54, 8, 8), ("CW_SUM_AMP_ENABLE", 54, 9, 9), ("CW_CLK_MODE_SEL", 54, 11, 10),
    ("CH1_CW_MIXER_PHASE", 55, 3, 0), ("CH2_CW_MIXER_PHASE", 55, 7, 4), ("CH3_CW_MIXER_PHASE", 55, 11, 8),
    ("CH4_CW_MIXER_PHASE", 55, 15, 12), ("CH5_CW_MIXER_PHASE", 56, 3, 0), ("CH6_CW_MIXER_PHASE", 56, 7, 4),
    ("CH7_CW_MIXER_PHASE", 56, 11, 8), ("CH8_CW_MIXER_PHASE", 56, 15, 12), ("CH1_LNA_GAIN_CNTL", 57, 1, 0),
    ("CH2_LNA_GAIN_CNTL", 57, 3, 2), ("CH3_LNA_GAIN_CNTL", 57, 5, 4), ("CH4_LNA_GAIN_CNTL", 57, 7, 6),
    ("CH5_LNA_GAIN_CNTL", 57, 9, 8), ("CH6_LNA_GAIN_CNTL", 57, 11, 10), ("CH7_LNA_GAIN_CNTL", 57, 13, 12),
    ("CH8_LNA_GAIN_CNTL", 57, 15, 14), ("HPF_LNA", 59, 3, 2), ("DIG_TGC_ATT_GAIN", 59, 6, 4), ("DIG_TGC_ATT", 59, 7, 7),
    ("CW_SUM_AMP_PDN", 59, 8, 8), ("PGA_TEST_MODE", 59, 9, 9)]

def afeFunctionAvailableOptionsDict : List (String × List UInt16) :=
  [("SOFTWARE_RESET", [0, 1]), ("REGISTER_READOUT_ENABLE", [0, 1]), ("ADC_COMPLETE_PDN", [0, 1]),
    ("LVDS_OUTPUT_DISABLE", [0, 1]), ("ADC_PDN_CH", [0, 0xFF]), ("PARTIAL_PDN", [0, 1]),
    ("LOW_FREQUENCY_NOISE_SUPPRESSION", [0, 1]), ("EXT_REF", [0, 1]), ("LVDS_OUTPUT_RATE_2X", [0, 1]),
    ("SINGLE-ENDED_CLK_MODE", [0, 1]), ("POWER-DOWN_LVDS", [0, 1]), ("AVERAGING_ENABLE", [0, 1]),
    ("LOW_LATENCY", [0, 1]), ("TEST_PATTERN_MODES", [0, 0x7]), ("INVERT_CHANNELS", [0, 0xFF]),
    ("CHANNEL_OFFSET_SUBSTRACTION_ENABLE", [0, 1]), ("DIGITAL_GAIN_ENABLE", [0, 1]), ("SERIALIZED_DATA_RATE", [0, 0x3]),
    ("ENABLE_EXTERNAL_REFERENCE_MODE", [0, 1]), ("ADC_RESOLUTION_RESET", [0, 1]), ("ADC_OUTPUT_FORMAT", [0, 1]),
    ("LSB_MSB_FIRST", [0, 1]), ("CUSTOM_PATTERN", [0, 0x3FFF]), ("SYNC_PATTERN", [0, 1]), ("OFFSET_CH1", [0, 0x3FF]),
    ("DIGITAL_GAIN_CH1", [0, 0x1F]), ("OFFSET_CH2", [0, 0x3FF]), ("DIGITAL_GAIN_CH2", [0, 0x1F]),
    ("OFFSET_CH3", [0, 0x3FF]), ("DIGITAL_GAIN_CH3", [0, 0x1F]), ("OFFSET_CH4", [0, 0x3FF]),
    ("DIGITAL_GAIN_CH4", [0, 0x1F]), ("DIGITAL_HPF_FILTER_ENABLE_CH1-4", [0, 1]),
    ("DIGITAL_HPF_FILTER_K_CH1-4", [2, 10]), ("OFFSET_CH8", [0, 0x3FF]), ("DIGITAL_GAIN_CH8", [0, 0x1F]),
    ("OFFSET_CH7", [0, 0x3FF]), ("DIGITAL_GAIN_CH7", [0, 0x1F]), ("OFFSET_CH6", [0, 0x3FF]),
    ("DIGITAL_GAIN_CH6", [0, 0x1F]), ("OFFSET_CH5", [0, 0x3FF]), ("DIGITAL_GAIN_CH5", [0, 0x1F]),
    ("DIGITAL_HPF_FILTER_ENABLE_CH5-8", [0, 1]), ("DIGITAL_HPF_FILTER_K_CH5-8", [2, 10]), ("DITHER", [0, 1]),
    ("PGA_CLAMP_-6dB", [0, 1]), ("LPF_PROGRAMMABILITY", [0, 2, 3, 4]), ("PGA_INTEGRATOR_DISABLE", [0, 1]),
    ("PGA_CLAMP_LEVEL", [0, 7]), ("PGA_GAIN_CONTROL", [0, 1]),
    ("ACTIVE_TERMINATION_INDIVIDUAL_RESISTOR_CNTL", [0, 0x1F]),
    ("ACTIVE_TERMINATION_INDIVIDUAL_RESISTOR_ENABLE", [0, 1]), ("PRESET_ACTIVE_TERMINATIONS", [0, 3]),
    ("ACTIVE_TERMINATION_ENABLE", [0, 1]), ("LNA_INPUT_CLAMP_SETTING", [0, 3]), ("LNA_INTEGRATOR_DISABLE", [0, 1]),
    ("LNA_GAIN", [0, 3]), ("LNA_INDIVIDUAL_CH_CNTL", [0, 1]), ("PDN_CH", [0, 0xFF]), ("LOW_POWER", [0, 1]),
    ("MED_POWER", [0, 1]), ("PDN_VCAT_PGA", [0, 1]), ("PDN_LNA", [0, 1]), ("VCA_PARTIAL_PDN", [0, 1]),
    ("VCA_COMPLETE_PDN", [0, 1]), ("CW_SUM_AMP_GAIN_CNTL", [0, 1, 2, 4, 8, 16]), ("CW_16X_CLK_SEL", [0, 1]),
    ("CW_1X_CLK_SEL", [0, 1]), ("CW_TGC_SEL", [0, 1]), ("CW_SUM_AMP_ENABLE", [0, 1]), ("CW_CLK_MODE_SEL", [0, 3]),
    ("CH1_CW_MIXER_PHASE", [0, 0xF]), ("CH2_CW_MIXER_PHASE", [0, 0xF]), ("CH3_CW_MIXER_PHASE", [0, 0xF]),
    ("CH4_CW_MIXER_PHASE", [0, 0xF]), ("CH5_CW_MIXER_PHASE", [0, 0xF]), ("CH6_CW_MIXER_PHASE", [0, 0xF]),
    ("CH7_CW_MIXER_PHASE", [0, 0xF]), ("CH8_CW_MIXER_PHASE", [0, 0xF]), ("CH1_LNA_GAIN_CNTL", [0, 3]),
    ("CH2_LNA_GAIN_CNTL", [0, 3]), ("CH3_LNA_GAIN_CNTL", [0, 3]), ("CH4_LNA_GAIN_CNTL", [0, 3]),
    ("CH5_LNA_GAIN_CNTL", [0, 3]), ("CH6_LNA_GAIN_CNTL", [0, 3]), ("CH7_LNA_GAIN_CNTL", [0, 3]),
    ("CH8_LNA_GAIN_CNTL", [0, 3]), ("HPF_LNA", [0, 3]), ("DIG_TGC_ATT_GAIN", [0, 0x7]), ("DIG_TGC_ATT", [0, 1]),
    ("CW_SUM_AMP_PDN", [0, 1]), ("PGA_TEST_MODE", [0, 1])]

/-- A list of two options is a range. -/
def accepts (options : List UInt16) (value : UInt16) : Bool :=
  match options with
  | [low, high] => low ≤ value && value ≤ high
  | _ => options.contains value

/-- The text of the exception for a value that is not accepted. -/
def rejection (functionName : String) (options : List UInt16) (value : UInt16) : String :=
  match options with
  | [low, high] => "Invalid value " ++ toString value ++ " for AFE function name " ++ functionName ++
      ".\nThe expected range is " ++ toString low ++ " - " ++ toString high
  | _ => "Invalid option " ++ toString value ++ " for AFE function name " ++ functionName ++
      ".\nThe expected option list is: \n" ++ String.join (options.map fun option => toString option ++ "\n")

/-- `mask`. The shift of `LVDS_OUTPUT_RATE_2X`, whose highest bit is below its lowest one, is by a negative number: what
    the compiler makes of it is `undefinedMask`. -/
def fieldMask (undefinedMask : UInt32) (msb lsb : Nat) : UInt32 :=
  if msb < lsb then undefinedMask else ((1 <<< UInt32.ofNat (msb - lsb + 1)) - 1) <<< UInt32.ofNat lsb

/-- A register with a field replaced. -/
def withField (mask : UInt32) (lsb : Nat) (registerValue : UInt32) (value : UInt16) : UInt32 :=
  (registerValue &&& ~~~mask) ||| ((value.toUInt32 <<< UInt32.ofNat lsb) &&& mask)

section
variable {D : Type} (env : Env Nat UInt32)

def setReset (reset : UInt32) : Prog Nat UInt32 D UInt32 := Reg.writeBits env afeGlobalControlReset reset

def doReset : Prog Nat UInt32 D UInt32 := do
  let _ ← setReset env 1
  setReset env 0

def setPowerState (powerstate : UInt32) : Prog Nat UInt32 D UInt32 :=
  Reg.writeBits env afeGlobalControlPowerstate powerstate

/-- The text of the exception for a register that is not in the list. -/
def unlisted (register : UInt32) : String := "Register address " ++ toString register ++ " not found in AFE register list."

/-- `setRegister`, with the content that is read back. -/
def setRegister (afe : Nat) (register value : UInt32) : Prog Nat UInt32 D UInt32 :=
  if register ∉ registerList then throw (unlisted register)
  else do
    let word := ((register &&& 0xFF) <<< 16) ||| (value &&& 0xFFFF)
    let _ ← Spi.setData env (afeControl afe) word
    let _ ← Spi.setData env (afeControl afe) 0x000002
    let _ ← Spi.setData env (afeControl afe) (word &&& 0xFF0000)
    let readValue ← Spi.getData env (afeControl afe)
    let _ ← Spi.setData env (afeControl afe) 0x000000
    return readValue &&& 0xFFFF

def getRegister (afe : Nat) (register : UInt32) : Prog Nat UInt32 D UInt32 :=
  if register ∉ registerList then throw (unlisted register)
  else do
    let _ ← Spi.setData env (afeControl afe) 0x000002
    let _ ← Spi.setData env (afeControl afe) (register <<< 16)
    let value ← Spi.getData env (afeControl afe)
    let _ ← Spi.setData env (afeControl afe) 0x000000
    return value &&& 0xFFFF

/-- The read-modify-write of a field, with the field as it is read back. -/
def setField (undefinedMask : UInt32) (afe : Nat) (register : UInt32) (msb lsb : Nat) (value : UInt16) :
    Prog Nat UInt32 D UInt32 := do
  let mask := fieldMask undefinedMask msb lsb
  let registerValue ← getRegister env afe register
  let _ ← setRegister env afe register (withField mask lsb registerValue value)
  let readBack ← getRegister env afe register
  return (readBack &&& mask) >>> UInt32.ofNat lsb

def setAFEFunction (undefinedMask : UInt32) (afe : Nat) (functionName : String) (value : UInt16) :
    Prog Nat UInt32 D UInt32 :=
  match afeFunctionAvailableOptionsDict.lookup functionName with
  | none => throw ("AFE function name " ++ functionName ++ " not found in the AFE options dictionary.")
  | some options =>
    if accepts options value = false then throw (rejection functionName options value)
    else match afeFunctionDict.lookup functionName with
      | none => throw ("AFE function name " ++ functionName ++ " not found in the AFE functions dictionary.")
      | some (register, msb, lsb) => setField env undefinedMask afe register msb lsb value

end

/-! ### The registers -/

/-- The registers of an AFE: plain cells, the one that was addressed last, and those that have been written. -/
structure Registers where
  cells : Nat → UInt16
  addressed : Nat
  written : Nat → Bool

/-- The fields of a word. -/
def wordAddress : BitField := { addr := 0, low := 16, high := 23 }
def wordContent : BitField := { addr := 0, low := 0, high := 15 }

/-- A word is sent. While REGISTER_READOUT_ENABLE of register 0 is set, a word for another register only addresses it. -/
def Registers.transfer (r : Registers) (word : UInt32) : Registers :=
  let register := (wordAddress.extract word).toNat
  if register ≠ 0 ∧ r.cells 0 &&& 2 ≠ 0 then { r with addressed := register }
  else
    { cells := Function.update r.cells register (wordContent.extract word).toUInt16
      addressed := register
      written := Function.update r.written register true }

/-- The registers before any word: register 0 is zero. -/
def Registers.initial (contents : Nat → UInt16) : Registers := ⟨Function.update contents 0 0, 0, fun _ => false⟩

/-- The registers of an AFE after the writes of a log. -/
def Registers.after (contents : Nat → UInt16) (afe : Nat) (writes : List (Write Nat UInt32)) : Registers :=
  (writes.filter (·.address = (afeControl afe).addr)).foldl (fun r w => r.transfer w.word) (.initial contents)

/-- What a read of the word of an AFE gives. -/
def Registers.out (r : Registers) : UInt32 := (r.cells r.addressed).toUInt32

end Afe
end DaphneZmq
