import DaphneZmq.Afe
import DaphneZmq.Chunker
import DaphneZmq.GainBias

/-! # The driver state (Daphne.cpp)

`state_` keeps the values that were last written, because most of them cannot be read back from the hardware. The read
requests are answered from it. -/

namespace DaphneZmq
open Lib.Device

/-- A key of `state_`: its kind and its indices. -/
inductive StateKey where
  | afeReg (afe : Nat) (regAddr : UInt32)
  | afeAttenuation (afe : Nat)
  | channelOffset (ch : Nat)
  | channelTrim (ch : Nat)
  | biasVoltage (afe : Nat)
  | biasControl
  deriving DecidableEq

/-- `state_` and the halves that the DAC driver keeps. -/
structure Daphne where
  state : StateKey → Option UInt32
  channelValues : Dac.ChannelValues

namespace Daphne

/-- A program of the DAC driver. -/
def dac {α : Type} (m : Prog Nat UInt32 Dac.ChannelValues α) : Prog Nat UInt32 Daphne α :=
  zoom (·.channelValues) (fun values d => { d with channelValues := values }) m

/-- `state_[key] = value`. -/
def setState (key : StateKey) (value : UInt32) : Prog Nat UInt32 Daphne Unit :=
  modifyDriver fun d => { d with state := Function.update d.state key (some value) }

/-- The value of a key, which is 0 if it is not there. -/
def stateValue (d : Daphne) (key : StateKey) : UInt32 := (d.state key).getD 0

def getState (key : StateKey) : Prog Nat UInt32 Daphne UInt32 := do return (← getDriver).stateValue key

/-- An AFE index is checked before its entry is used. -/
def checkAfe {α : Type} (afe : Nat) (m : Prog Nat UInt32 Daphne α) : Prog Nat UInt32 Daphne α :=
  if afe > 4 then throw ("AFE index " ++ toString afe ++ " out of range. Expected range 0-4.") else m

def checkChannel {α : Type} (ch : Nat) (m : Prog Nat UInt32 Daphne α) : Prog Nat UInt32 Daphne α :=
  if ch > 39 then throw ("Channel index " ++ toString ch ++ " out of range. Expected range 0-39.") else m

def setAfeRegDictValue (afe : Nat) (regAddr regValue : UInt32) : Prog Nat UInt32 Daphne Unit :=
  checkAfe afe (setState (.afeReg afe regAddr) regValue)

def getAfeRegDictValue (afe : Nat) (regAddr : UInt32) : Prog Nat UInt32 Daphne UInt32 :=
  checkAfe afe (getState (.afeReg afe regAddr))

def setAfeAttenuationDictValue (afe : Nat) (attenuation : UInt32) : Prog Nat UInt32 Daphne Unit :=
  checkAfe afe (setState (.afeAttenuation afe) attenuation)

def getAfeAttenuationDictValue (afe : Nat) : Prog Nat UInt32 Daphne UInt32 := checkAfe afe (getState (.afeAttenuation afe))

def setChOffsetDictValue (ch : Nat) (offset : UInt32) : Prog Nat UInt32 Daphne Unit :=
  checkChannel ch (setState (.channelOffset ch) offset)

def getChOffsetDictValue (ch : Nat) : Prog Nat UInt32 Daphne UInt32 := checkChannel ch (getState (.channelOffset ch))

def setChTrimDictValue (ch : Nat) (trim : UInt32) : Prog Nat UInt32 Daphne Unit :=
  checkChannel ch (setState (.channelTrim ch) trim)

def getChTrimDictValue (ch : Nat) : Prog Nat UInt32 Daphne UInt32 := checkChannel ch (getState (.channelTrim ch))

def setBiasVoltageDictValue (afe : Nat) (biasVoltage : UInt32) : Prog Nat UInt32 Daphne Unit :=
  checkAfe afe (setState (.biasVoltage afe) biasVoltage)

def getBiasVoltageDictValue (afe : Nat) : Prog Nat UInt32 Daphne UInt32 := checkAfe afe (getState (.biasVoltage afe))

def setBiasControlDictValue (biasControl : UInt32) : Prog Nat UInt32 Daphne Unit := setState .biasControl biasControl

def getBiasControlDictValue : Prog Nat UInt32 Daphne UInt32 := getState .biasControl

/-- The state that the constructors leave. -/
def initial : Daphne where
  state key := if key = .biasControl then some 0 else none
  channelValues _ _ _ := 0

end Daphne

/-- The hardware around the server, and the environment that it runs in. -/
structure Board where
  /-- The words that the successive reads of `afeGlobalControl` give. -/
  control : Nat → UInt32
  /-- The words that the successive reads of `dacGainBiasControl` give. -/
  dacControl : Nat → UInt32
  polls : Nat → Nat
  /-- The text of the exception that a mapping of `/dev/mem` throws, if it throws. -/
  mapFails : Nat → Option String
  /-- What the registers of the AFEs hold at first. -/
  contents : Nat → Nat → UInt16
  /-- The mask that the compiler makes of a shift by a negative number. -/
  undefinedMask : UInt32
  /-- `config_resets_enabled()`. -/
  resets : Bool

namespace Board
variable (b : Board)

/-- The mapped registers do not throw. -/
def env : Env Nat UInt32 where
  faults _ := none
  driven a :=
    if a = Spi.afeGlobalControlBusy.addr then some fun _ => b.control
    else if a = Dac.dacGainBiasControlBusy.addr then some fun _ => b.dacControl
    else ((List.range 5).find? fun afe => (Afe.afeControl afe).addr = a).map fun afe writes _ =>
      (Afe.Registers.after (b.contents afe) afe writes).out
  polls := b.polls

theorem faults_none (n : Nat) : b.env.faults n = none := rfl

theorem driven_control : b.env.driven Spi.afeGlobalControlBusy.addr = some fun _ => b.control := rfl

theorem driven_afeControl {afe : Nat} (hafe : afe < 5) : b.env.driven (Afe.afeControl afe).addr =
    some fun writes _ => (Afe.Registers.after (b.contents afe) afe writes).out := by
  have hcontrol : (Afe.afeControl afe).addr ≠ Spi.afeGlobalControlBusy.addr := by
    simp only [Afe.afeControl, Spi.afeGlobalControlBusy]
    omega
  have hdac : (Afe.afeControl afe).addr ≠ Dac.dacGainBiasControlBusy.addr := by
    simp only [Afe.afeControl, Dac.dacGainBiasControlBusy]
    omega
  have hfind : ∀ afe < 5, (List.range 5).find? (fun i => (Afe.afeControl i).addr = (Afe.afeControl afe).addr) = some afe := by
    decide
  simp only [env]
  rw [if_neg hcontrol, if_neg hdac, hfind afe hafe]
  rfl

end Board
end DaphneZmq
