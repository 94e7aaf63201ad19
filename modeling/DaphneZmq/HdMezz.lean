import DaphneZmq.Lib.Device

/-! # HD mezzanines (DaphneI2CDrivers.cpp, server_controller/monitoring.cpp, server_controller/handlers.cpp)

Each mezzanine has a power expander, whose output port switches the two rails, and a current monitor on each rail.
They are behind a switch on one I2C bus. Requests and passes of the monitor hold the mutex of the bus, so they
run one after the other. The driver has been constructed; what the monitor only reports is left out. -/

namespace DaphneZmq
open Lib.Device

namespace HdMezz

inductive Rail where
  | v5
  | v3v3
  deriving DecidableEq

/-- A register on the bus, behind the switch at the block that is selected. -/
inductive Reg where
  | switch
  | tca9536 (afeBlock : Nat) (addr : Nat)
  | ina232 (afeBlock : Nat) (rail : Rail) (addr : Nat)
  deriving DecidableEq

/-- `TCA9536_OUTPUT_PORT_REG` of a block. -/
def outputPort (afeBlock : Nat) : Reg := .tca9536 afeBlock 0x1

/-- The bit of a rail in the output port. -/
def railBit : Rail → UInt8
  | .v5 => 0b00000001
  | .v3v3 => 0b00000010

/-- The members of `HDMezzDriver` and of `Daphne` that say which rails are powered and which alerts are latched. -/
structure Driver where
  enabled_afeBlocks : Nat → Bool := fun _ => false
  powerStatus5V : Bool := true
  powerStatus3V3 : Bool := true
  HDMezz_is_powered : Rail → Nat → Bool := fun _ _ => false
  HDMezz_alert : Rail → Nat → Bool := fun _ _ => false

/-- One entry of an array of flags is stored. -/
def storeFlag (flags : Rail → Nat → Bool) (rail : Rail) (i : Nat) (value : Bool) : Rail → Nat → Bool := fun r j =>
  if r = rail ∧ j = i then value else flags r j

abbrev MezzState := State Reg UInt16 Driver
abbrev MezzProg (α : Type) := Prog Reg UInt16 Driver α

/-- `std::hex << std::uppercase << std::setw(2) << std::setfill('0')`. -/
def hexByte (n : UInt8) : String :=
  let digits := (String.ofList (Nat.toDigits 16 n.toNat)).toUpper
  if digits.length < 2 then "0" ++ digits else digits

section
variable (env : Env Reg UInt16)

def enableAfeBlock (afeBlock : Nat) (enable : Bool) : MezzProg Unit :=
  if afeBlock > 4 then throw "Invalid AFE block number. Valid values are 0 to 4."
  else modifyDriver fun d => { d with enabled_afeBlocks := Function.update d.enabled_afeBlocks afeBlock enable }

def isAfeBlockEnabled (afeBlock : Nat) : MezzProg Bool :=
  if afeBlock > 4 then throw "Invalid AFE block number. Valid values are 0 to 4."
  else do return (← getDriver).enabled_afeBlocks afeBlock

def selectAfeBlock (afeBlock : Nat) : MezzProg Unit := do
  let d ← getDriver
  if afeBlock > 4 then throw "Invalid AFE block number. Valid values are 0 to 4."
  else if !d.enabled_afeBlocks afeBlock then
    throw ("AFE block " ++ toString afeBlock ++ " is not enabled. Please enable it before configuration.")
  else write env .switch (1 <<< UInt16.ofNat afeBlock)

def readTCA9536Register (afeBlock : Nat) (registerAddress : Nat) : MezzProg UInt8 := do
  selectAfeBlock env afeBlock
  return (← read env (.tca9536 afeBlock registerAddress)).toUInt8

def writeTCA9536Register (afeBlock : Nat) (registerAddress : Nat) (value : UInt8) : MezzProg Unit := do
  selectAfeBlock env afeBlock
  write env (.tca9536 afeBlock registerAddress) value.toUInt16
  let readback ← read env (.tca9536 afeBlock registerAddress)
  if readback.toUInt8 ≠ value then
    throw ("Failed to write value to TCA9536 register in AFE block " ++ toString afeBlock ++ ", register 0x" ++
      hexByte (UInt8.ofNat registerAddress) ++ ". Expected: 0x" ++ hexByte value ++ ", Readback: 0x" ++
      hexByte readback.toUInt8)
  else return ()

/-- `readINA232Function`: the bits `lsb` to `msb` of a register. -/
def readINA232Function (afeBlock : Nat) (rail : Rail) (addr msb lsb : Nat) : MezzProg UInt16 := do
  selectAfeBlock env afeBlock
  let value ← read env (.ina232 afeBlock rail addr)
  return (value >>> UInt16.ofNat lsb) &&& UInt16.ofNat (2 ^ (msb - lsb + 1) - 1)

/-- The register value of the bus voltage. -/
def readRailVoltage (afeBlock : Nat) (rail : Rail) : MezzProg UInt16 := readINA232Function env afeBlock rail 0x2 14 0

/-- The register value of the current. -/
def readRailCurrent (afeBlock : Nat) (rail : Rail) : MezzProg UInt16 := readINA232Function env afeBlock rail 0x4 15 0

/-- The register value of the power. -/
def readRailPower (afeBlock : Nat) (rail : Rail) : MezzProg UInt16 := readINA232Function env afeBlock rail 0x3 15 0

def checkAlertStatus (afeBlock : Nat) (rail : Rail) : MezzProg Bool := do
  let value ← readINA232Function env afeBlock rail 0x6 4 4
  return value &&& 0x1 != 0

def setPowerStatus (rail : Rail) (powerOn : Bool) : MezzProg Unit :=
  modifyDriver fun d => match rail with
    | .v5 => { d with powerStatus5V := powerOn }
    | .v3v3 => { d with powerStatus3V3 := powerOn }

/-- The output port with a rail switched. -/
def switched (outputPort : UInt8) (rail : Rail) (powerOn : Bool) : UInt8 :=
  if powerOn then outputPort ||| railBit rail else outputPort &&& ~~~railBit rail

def powerOn_HDMezzAfeBlock (afeBlock : Nat) (powerOn : Bool) (rail : Rail) : MezzProg Unit := do
  let output_port ← readTCA9536Register env afeBlock 0x1
  rethrow ("Failed to write to TCA9536 expander: " ++ ·) do
    writeTCA9536Register env afeBlock 0x1 (switched output_port rail powerOn)
    setPowerStatus rail powerOn

/-- `isPowerOn`; the block is not used. -/
def isPowerOn (_afeBlock : Nat) (rail : Rail) : MezzProg Bool := do
  let d ← getDriver
  match rail with
  | .v5 => return d.powerStatus5V
  | .v3v3 => return d.powerStatus3V3

/-! ### The monitor -/

def storePowered (i : Nat) (rail : Rail) : MezzProg Unit := do
  let powered ← isPowerOn i rail
  modifyDriver fun d => { d with HDMezz_is_powered := storeFlag d.HDMezz_is_powered rail i powered }

/-- The alert is checked until it is latched. -/
def latchAlert (i : Nat) (rail : Rail) : MezzProg Unit := do
  let d ← getDriver
  if !d.HDMezz_alert rail i then
    let alert ← checkAlertStatus env i rail
    modifyDriver fun d => { d with HDMezz_alert := storeFlag d.HDMezz_alert rail i alert }
  else return ()

/-- A block in a pass of `i2c_2_monitor_thread`. -/
def monitorBlock (i : Nat) : MezzProg Unit := do
  let enabled ← isAfeBlockEnabled i
  if enabled then
    storePowered i .v5
    storePowered i .v3v3
    let _ ← readRailVoltage env i .v5
    let _ ← readRailCurrent env i .v5
    let _ ← readRailVoltage env i .v3v3
    let _ ← readRailCurrent env i .v3v3
    let _ ← readRailPower env i .v5
    let _ ← readRailPower env i .v3v3
    latchAlert env i .v5
    latchAlert env i .v3v3
    let d ← getDriver
    if (d.HDMezz_alert .v5 i || d.HDMezz_alert .v3v3 i) && (d.HDMezz_is_powered .v5 i || d.HDMezz_is_powered .v3v3 i) then
      powerOn_HDMezzAfeBlock env i false .v5
      powerOn_HDMezzAfeBlock env i false .v3v3
    else return ()
  else return ()

/-- A pass that has the mutex; what it throws is caught and logged. -/
def monitorPass (s : MezzState) : MezzState :=
  match ((List.range 5).mapM (monitorBlock env)) s with
  | .ok _ t => t
  | .error _ t => t

/-! ### The requests -/

/-- What a handler answers: the result, `response_str` and the fields of the response. -/
structure Answer (α : Type) where
  ok : Bool
  response_str : String
  response : α

/-- `std::to_string` of a flag. -/
def flagText (b : Bool) : String := if b then "1" else "0"

/-- A handler's `try` and `catch`, with an empty response if something is thrown. -/
def answer {α : Type} (empty : α) (failure : String) (m : MezzProg (String × α)) (s : MezzState) : Answer α × MezzState :=
  match m s with
  | .ok (response_str, response) t => (⟨true, response_str, response⟩, t)
  | .error what t => (⟨false, failure ++ what, empty⟩, t)

/-- The check of a handler. -/
def checkBlock (afeBlock : Nat) : MezzProg Unit :=
  if afeBlock > 4 then throw "HD mezzanine block out of range (0..4)" else return ()

structure SetHDMezzBlockEnableResponse where
  afeBlock : Nat := 0
  enable : Bool := false

def setHDMezzBlockEnable (afeBlock : Nat) (enable : Bool) : MezzState → Answer SetHDMezzBlockEnableResponse × MezzState :=
  answer {} "Error setting HD mezzanine block enable state: " do
    checkBlock afeBlock
    enableAfeBlock afeBlock enable
    return ("HD mezzanine block " ++ toString afeBlock ++ " enable state set to " ++ flagText enable ++ ".",
      { afeBlock, enable })

structure SetHDMezzPowerStatesResponse where
  afeBlock : Nat := 0
  power5V : Bool := false
  power3V3 : Bool := false

def setHDMezzPowerStates (afeBlock : Nat) (power_5v power_3v3 : Bool) :
    MezzState → Answer SetHDMezzPowerStatesResponse × MezzState :=
  answer {} "Error setting HD mezzanine block power states: " do
    checkBlock afeBlock
    powerOn_HDMezzAfeBlock env afeBlock power_5v .v5
    powerOn_HDMezzAfeBlock env afeBlock power_3v3 .v3v3
    return ("HD mezzanine block " ++ toString afeBlock ++ " power states set to 5V: " ++ flagText power_5v ++
      ", 3V3: " ++ flagText power_3v3 ++ ".", { afeBlock, power5V := power_5v, power3V3 := power_3v3 })

structure ClearHDMezzAlertFlagResponse where
  afeBlock : Nat := 0

def clearHDMezzAlertFlag (afeBlock : Nat) : MezzState → Answer ClearHDMezzAlertFlagResponse × MezzState :=
  answer {} "Error clearing HD mezzanine block alert flags: " do
    checkBlock afeBlock
    modifyDriver fun d => { d with HDMezz_alert := storeFlag d.HDMezz_alert .v5 afeBlock false }
    modifyDriver fun d => { d with HDMezz_alert := storeFlag d.HDMezz_alert .v3v3 afeBlock false }
    return ("HD mezzanine block " ++ toString afeBlock ++ " alert flags cleared.", { afeBlock })

/-! ### Runs of the server -/

/-- What takes the mutex of the bus. -/
inductive Action where
  | setBlockEnable (afeBlock : Nat) (enable : Bool)
  | setPowerStates (afeBlock : Nat) (power_5v power_3v3 : Bool)
  | clearAlertFlag (afeBlock : Nat)
  | monitorPass
  deriving DecidableEq

def Action.run (a : Action) (s : MezzState) : MezzState :=
  match a with
  | .setBlockEnable afeBlock enable => (setHDMezzBlockEnable afeBlock enable s).2
  | .setPowerStates afeBlock power_5v power_3v3 => (setHDMezzPowerStates env afeBlock power_5v power_3v3 s).2
  | .clearAlertFlag afeBlock => (clearHDMezzAlertFlag afeBlock s).2
  | .monitorPass => HdMezz.monitorPass env s

def runActions (actions : List Action) (s : MezzState) : MezzState := actions.foldl (fun s a => a.run env s) s

end

/-- The hardware on the bus: the current monitors are driven, with the words that the successive reads of their
    registers give. -/
structure Bus where
  faults : Nat → Option String
  ina232 : Nat → Rail → Nat → Nat → UInt16

def Bus.env (bus : Bus) : Env Reg UInt16 where
  faults := bus.faults
  driven
    | .ina232 afeBlock rail addr => some fun _ => bus.ina232 afeBlock rail addr
    | _ => none
  polls _ := 0

/-- The state when the server starts, with the registers as they are then. -/
def serverStart (cells : Reg → UInt16) (reads : Reg → Nat) (accesses : Nat) : MezzState where
  cells
  reads
  accesses
  writes := []
  driver := {}

end HdMezz
end DaphneZmq
