import DaphneZmq.Lib.Frame
import DaphneZmq.Registers

/-! # Gain and bias DACs (Dac.cpp, Dac.hpp)

Three chips give the gains and the biases of the AFEs and the HV bias control. Each chip has a register, and one
control register with GO and BUSY is for all of them. -/

namespace DaphneZmq
open Lib.Device

namespace Dac

inductive Chip where
  | U50
  | U53
  | U5
  deriving DecidableEq

namespace Chip

/-- The address of `dacGainBias` and the name of the chip. -/
def addr : Chip → Nat
  | .U50 => 0xC000004
  | .U53 => 0xC000008
  | .U5 => 0xC00000C

def data (chip : Chip) : BitField := { addr := chip.addr, low := 0, high := 11 }
def buffer (chip : Chip) : BitField := { addr := chip.addr, low := 12, high := 12 }
def gain (chip : Chip) : BitField := { addr := chip.addr, low := 13, high := 13 }
def channel (chip : Chip) : BitField := { addr := chip.addr, low := 14, high := 15 }

end Chip

def dacGainBiasControlBusy : BitField := { addr := 0xC000000, low := 0, high := 0 }
def dacGainBiasControlGo : BitField := { addr := 0xC000000, low := 1, high := 1 }
def biasEnable : BitField := { addr := 0x1400000C, low := 0, high := 0 }

/-- An entry of a mapping: the chip, its channel, the gain and the buffer. The chip of an entry that is not there has
    no name. -/
abbrev MappingEntry := Option Chip × UInt32 × Bool × Bool

def gainMapping : List (Nat × MappingEntry) :=
  [(0, some .U50, 0, false, false), (1, some .U50, 1, false, false), (2, some .U50, 2, false, false),
    (3, some .U50, 3, false, false), (4, some .U5, 1, false, false)]

def biasMapping : List (Nat × MappingEntry) :=
  [(0, some .U53, 0, false, false), (1, some .U53, 1, false, false), (2, some .U53, 2, false, false),
    (3, some .U53, 3, false, false), (4, some .U5, 0, false, false)]

/-- `mapping[afe]`. -/
def entryOf (mapping : List (Nat × MappingEntry)) (afe : Nat) : MappingEntry :=
  (mapping.lookup afe).getD (none, 0, false, false)

/-- The text of the exception that ends a wait. -/
def timeout : String := "Timeout while waiting DAC write"

section
variable {D : Type} (env : Env Nat UInt32)

def isBusy : Prog Nat UInt32 D Bool := do return (← Reg.readBits env dacGainBiasControlBusy) != 0

def waitNotBusy : Prog Nat UInt32 D Unit := fun s => pollWhile (isBusy env) timeout (env.polls s.accesses) s

def triggerWrite : Prog Nat UInt32 D UInt32 := do
  let _ ← Reg.writeBits env dacGainBiasControlGo 1
  Reg.writeBits env dacGainBiasControlGo 0

/-- The fields of the register of a chip; without a chip there is no register and `setBits` returns 0xDEADBEEF. -/
def setFields (chip : Option Chip) (channel : UInt32) (gain buffer : Bool) (value : UInt32) : Prog Nat UInt32 D UInt32 :=
  match chip with
  | none => return 0xDEADBEEF
  | some chip => do
    let _ ← Reg.writeBits env chip.channel channel
    let _ ← Reg.writeBits env chip.gain gain.toUInt32
    let _ ← Reg.writeBits env chip.buffer buffer.toUInt32
    Reg.writeBits env chip.data value

def setDacGeneral (chip : Option Chip) (channel : UInt32) (gain buffer : Bool) (value : UInt32) :
    Prog Nat UInt32 D UInt32 := do
  waitNotBusy env
  let returnedValue ← setFields env chip channel gain buffer value
  let _ ← triggerWrite env
  waitNotBusy env
  return returnedValue

/-- `setDacGainBias`, with the mapping of what is set. -/
def setDacGainBias (mapping : List (Nat × MappingEntry)) (afe : Nat) (value : UInt32) : Prog Nat UInt32 D UInt32 := do
  let entry := entryOf mapping afe
  let _ ← setDacGeneral env entry.1 entry.2.1 entry.2.2.1 entry.2.2.2 value
  return 0

def setDacGain (afe : Nat) (value : UInt32) : Prog Nat UInt32 D UInt32 := setDacGainBias env gainMapping afe value

def setDacBias (afe : Nat) (value : UInt32) : Prog Nat UInt32 D UInt32 := setDacGainBias env biasMapping afe value

def setDacHvBias (value : UInt32) (gain buffer : Bool) : Prog Nat UInt32 D UInt32 :=
  setDacGeneral env (some .U5) 2 gain buffer value

def setBiasEnable (enable : Bool) : Prog Nat UInt32 D UInt32 := Reg.writeBits env biasEnable enable.toUInt32

end

/-! ### The chips -/

/-- What the channels of the chips hold. -/
abbrev Levels := Chip → Nat → UInt32

/-- GO loads DATA of each chip into the channel that its CHANNEL field holds. -/
def Levels.load (levels : Levels) (cells : Nat → UInt32) : Levels := fun chip ch =>
  if ch = (chip.channel.extract (cells chip.addr)).toNat then chip.data.extract (cells chip.addr) else levels chip ch

/-- A write that sets GO. -/
def IsGo (w : Write Nat UInt32) : Prop :=
  w.address = dacGainBiasControlGo.addr ∧ dacGainBiasControlGo.extract w.word = 1

instance : DecidablePred IsGo := fun _ => inferInstanceAs (Decidable (_ ∧ _))

/-- The channels after the writes of a log; GO finds the registers as they are before it. -/
def Levels.after (levels : Levels) (writes : List (Write Nat UInt32)) : Levels :=
  writes.foldl (fun levels w => if IsGo w then levels.load w.before else levels) levels

end Dac
end DaphneZmq
