import DaphneZmq.Registers
import Mathlib.Logic.Function.Basic

/-! # Registers by name (reg.cpp, FpgaRegDict.cpp)

The dictionary of the FPGA registers, and the accesses that look a register and a field up in it. A name that is not found
gives values that no entry has: the address 0xdeadbeef, and -1 for both ends of a field. -/

namespace DaphneZmq
namespace RegDict

/-- The fields of a register, with their lowest and their highest bit. -/
abbrev Fields := List (String × Int × Int)

def afeGlobalControl_bits : Fields :=
  [("RESET", 0, 0), ("POWERSTATE", 1, 1), ("BUSY", 2, 4), ("BUSY_AFE0", 2, 2), ("BUSY_AFE12", 3, 3), ("BUSY_AFE34", 4, 4)]
def afeControl_bits : Fields := [("DATA", 0, 23)]
def afeDacTrim_bits : Fields := [("DATA", 0, 31)]
def afeDacOffset_bits : Fields := [("DATA", 0, 31)]
def dacGainBiasControl_bits : Fields := [("BUSY", 0, 0), ("GO", 1, 1)]
def dacGainBias_bits : Fields := [("DATA", 0, 11), ("BUFFER", 12, 12), ("GAIN", 13, 13), ("CHANNEL", 14, 15)]
def spyBuffer_bits : Fields := [("DATA", 0, 15), ("DATAL", 2, 15), ("DATAH", 18, 31)]
def timestamp_bits : Fields := [("VALUE", 0, 15)]
def endpointClockControl_bits : Fields := [("SOFT_RESET", 0, 0), ("MMCM_RESET", 1, 1), ("CLOCK_SOURCE", 2, 2)]
def endpointClockStatus_bits : Fields := [("MMCM0_LOCKED", 0, 0), ("MMCM1_LOCKED", 1, 1)]
def endpointControl_bits : Fields := [("RESET", 16, 16), ("ADDRESS", 0, 15)]
def endpointStatus_bits : Fields := [("TIMESTAMP_OK", 4, 4), ("FSM_STATUS", 0, 3)]
def frontendControl_bits : Fields := [("DELAY_EN_VTC", 2, 2), ("SERDES_RESET", 1, 1), ("DELAYCTRL_RESET", 0, 0)]
def frontendStatus_bits : Fields := [("DELAYCTRL_READY", 0, 0)]
def frontendTrigger_bits : Fields := [("GO", 0, 0)]
def frontendDelay_bits : Fields := [("DELAY", 0, 8)]
def frontendBitslip_bits : Fields := [("BITSLIP", 0, 3)]
def tenGigabitSender_bits : Fields := [("DATA", 0, 3)]
def fanControl_bits : Fields := [("FAN_CTRL", 0, 7)]
def fanReadSpeed_bits : Fields := [("SPEED", 0, 11)]
def biasEnable_bits : Fields := [("ENABLE", 0, 0)]
def muxEnable_bits : Fields := [("ENABLE0", 0, 0), ("ENABLE1", 1, 1)]
def muxAddress_bits : Fields := [("ADDRESS", 0, 1)]
def led_bits : Fields := [("LED", 0, 5)]
def gitCommit_bits : Fields := [("GIT", 0, 27)]
def triggerEnableLow_bits : Fields := [("DATA", 0, 31)]
def triggerEnableHigh_bits : Fields := [("DATA", 0, 7)]
def idLink_bits : Fields := [("ID", 0, 5)]
def idSlot_bits : Fields := [("ID", 0, 3)]
def idCrate_bits : Fields := [("ID", 0, 9)]
def idDetector_bits : Fields := [("ID", 0, 5)]
def idVersion_bits : Fields := [("ID", 0, 5)]
def adHocTriggerCommand_bits : Fields := [("VALUE", 0, 7)]
def selfTriggerFullConfig_bits : Fields := [("VALUE", 0, 31)]
def matchingTriggerTemplate_bits : Fields := [("VALUE", 0, 27)]

def fpgaRegDict : List (String × UInt32 × Fields) :=
  [("afeGlobalControl", 0x0000000, afeGlobalControl_bits)] ++
  (List.range 5).flatMap (fun afe =>
    let offset : UInt32 := UInt32.ofNat afe * 0xC
    [("afeControl_" ++ toString afe, 0x00000004 + offset, afeControl_bits),
      ("afeDacTrim_" ++ toString afe, 0x00000008 + offset, afeDacTrim_bits),
      ("afeDacOffset_" ++ toString afe, 0x0000000C + offset, afeDacOffset_bits)]) ++
  [("dacGainBiasControl", 0xC000000, dacGainBiasControl_bits), ("dacGainBiasU50", 0xC000004, dacGainBias_bits),
    ("dacGainBiasU53", 0xC000008, dacGainBias_bits), ("dacGainBiasU5", 0xC00000C, dacGainBias_bits)] ++
  (List.range 5).flatMap (fun afe =>
    let offsetAfe : UInt32 := UInt32.ofNat afe * 0x9000
    (List.range 9).map fun ch =>
      ("spyBuffer_" ++ toString afe ++ "_" ++ toString ch, 0x10000000 + (offsetAfe + UInt32.ofNat ch * 0x1000), spyBuffer_bits)) ++
  [("timestamp0", 0x1002D000, timestamp_bits), ("timestamp1", 0x1002E000, timestamp_bits),
    ("timestamp2", 0x1002F000, timestamp_bits), ("timestamp3", 0x10030000, timestamp_bits),
    ("endpointClockControl", 0x4000000, endpointClockControl_bits),
    ("endpointClockStatus", 0x4000004, endpointClockStatus_bits), ("endpointControl", 0x4000008, endpointControl_bits),
    ("endpointStatus", 0x400000C, endpointStatus_bits), ("frontendControl", 0x8000000, frontendControl_bits),
    ("frontendStatus", 0x8000004, frontendStatus_bits), ("frontendTrigger", 0x8000008, frontendTrigger_bits)] ++
  (List.range 5).flatMap (fun afe =>
    let offset : UInt32 := UInt32.ofNat afe * 0x4
    [("frontendDelay_" ++ toString afe, 0x800000C + offset, frontendDelay_bits),
      ("frontendBitslip_" ++ toString afe, 0x8000020 + offset, frontendBitslip_bits)]) ++
  [("tenGigabitSender", 0x18000000, tenGigabitSender_bits), ("fanControl", 0x14000000, fanControl_bits),
    ("fanReadSpeed_0", 0x14000004, fanReadSpeed_bits), ("fanReadSpeed_1", 0x14000008, fanReadSpeed_bits),
    ("biasEnable", 0x1400000C, biasEnable_bits), ("muxEnable", 0x14000010, muxEnable_bits),
    ("muxAddress", 0x14000014, muxAddress_bits), ("LED", 0x14000018, led_bits), ("GIT", 0x1400001C, gitCommit_bits),
    ("triggerEnableLow", 0x14000020, triggerEnableLow_bits), ("triggerEnableHigh", 0x14000024, triggerEnableHigh_bits),
    ("idLink", 0x14000028, idLink_bits), ("idSlot", 0x1400002C, idSlot_bits), ("idCrate", 0x14000030, idCrate_bits),
    ("idDetector", 0x14000034, idDetector_bits), ("idVersion", 0x14000038, idVersion_bits),
    ("adHocTriggerCommand", 0x1400003C, adHocTriggerCommand_bits),
    ("selfTriggerFullConfigLow", 0x14000040, selfTriggerFullConfig_bits),
    ("selfTriggerFullConfigHIGH", 0x14000044, selfTriggerFullConfig_bits)] ++
  (List.range 16).map (fun i =>
    ("matchingTriggerTemplate_" ++ toString i, 0x14000048 + UInt32.ofNat i * 0x4, matchingTriggerTemplate_bits))

/-- `GetRegister` with a field: the address, the highest and the lowest bit. -/
def getRegisterBits (regName bitName : String) : UInt32 × Int × Int :=
  match fpgaRegDict.lookup regName with
  | some (regAddr, bitField) =>
    match bitField.lookup bitName with
    | some (bitRangeL, bitRangeH) => (regAddr, bitRangeH, bitRangeL)
    | none => (regAddr, -1, -1)
  | none => (0xdeadbeef, -1, -1)

def getRegister (regName : String) : UInt32 :=
  match fpgaRegDict.lookup regName with
  | some (regAddr, _) => regAddr
  | none => 0xdeadbeef

/-! ### Accesses -/

/-- What the compiler makes of a shift by an amount that the language leaves undefined. -/
structure Undefined where
  left : UInt32 → Int → UInt32
  right : UInt32 → Int → UInt32

/-- The words of the registers, and the amounts of the shifts so far. -/
structure Machine where
  memory : UInt32 → UInt32
  shifts : List Int

abbrev RegM := StateM Machine

def load (addr : UInt32) : RegM UInt32 := fun m => (m.memory addr, m)

def store (addr word : UInt32) : RegM Unit := fun m => ((), { m with memory := Function.update m.memory addr word })

def shiftLeft (u : Undefined) (word : UInt32) (amount : Int) : RegM UInt32 := fun m =>
  (if 0 ≤ amount ∧ amount < 32 then word <<< UInt32.ofNat amount.toNat else u.left word amount,
    { m with shifts := m.shifts ++ [amount] })

def shiftRight (u : Undefined) (word : UInt32) (amount : Int) : RegM UInt32 := fun m =>
  (if 0 ≤ amount ∧ amount < 32 then word >>> UInt32.ofNat amount.toNat else u.right word amount,
    { m with shifts := m.shifts ++ [amount] })

variable (u : Undefined)

def mask (bitRangeH bitRangeL : Int) : RegM UInt32 :=
  if bitRangeH - bitRangeL + 1 = 32 then return 0xFFFFFFFF
  else do return (← shiftLeft u 1 (bitRangeH - bitRangeL + 1)) - 1

def readRegister (regName : String) : RegM UInt32 :=
  let regAddr := getRegister regName
  if regAddr = 0xffffffff then return 0xdeadbeef else load regAddr

/-- `WriteRegister`, with a single word. -/
def writeRegister (regName : String) (value : UInt32) : RegM UInt32 :=
  let regAddr := getRegister regName
  if regAddr = 0xffffffff then return 0xdeadbeef
  else do
    store regAddr value
    readRegister regName

def readBits (regName bitName : String) (offset : UInt32) : RegM UInt32 :=
  let (regAddr, bitRangeH, bitRangeL) := getRegisterBits regName bitName
  if regAddr = 0xdeadbeef then return 0xdeadbeef
  else do
    let value ← load (regAddr + offset)
    let bits ← mask u bitRangeH bitRangeL
    return (← shiftRight u value bitRangeL) &&& bits

def writeBits (regName bitName : String) (data : UInt32) : RegM UInt32 :=
  let (regAddr, bitRangeH, bitRangeL) := getRegisterBits regName bitName
  if regAddr = 0xdeadbeef then return 0xdeadbeef
  else do
    let value ← load regAddr
    let bits ← mask u bitRangeH bitRangeL
    let value := value &&& ~~~(← shiftLeft u bits bitRangeL)
    let value := value ||| (← shiftLeft u (data &&& bits) bitRangeL)
    let _ ← writeRegister regName value
    readBits u regName bitName 0

end RegDict
end DaphneZmq
