import DaphneZmq.Lib.Frame
import DaphneZmq.MezzBus

/-! # Calibration of the mezzanines (DaphneI2CDrivers.cpp, server_controller/handlers.cpp)

What the driver keeps of the configuration of a block, and what it programs into its current monitors. The driver computes with
doubles; here the type of its numbers is a parameter, with what it makes of a number. A request holds the mutex of the bus, so
that it is a program on its own. -/

namespace DaphneZmq
open Lib.Device

namespace MezzCalibration
open HdMezz (Reg Rail Answer hexByte)
open MezzBus (INA232Function storeAt hexWord)

/-- What the driver makes of a number. -/
structure Conversions (K : Type) where
  /-- `(uint16_t)`. -/
  toUInt16 : K → UInt16
  /-- `std::to_string`. -/
  to_string : K → String

section
variable (K : Type) [OfScientific K]

/-- The members of `HDMezzDriver` that a block is configured with. -/
structure Calibration where
  r_shunt : Rail → Nat → K := fun rail _ => match rail with
    | .v5 => 36e-3
    | .v3v3 => 0.3
  max_current_scale : Rail → Nat → K := fun _ _ => 200e-3
  max_current_shutdown : Rail → Nat → K := fun rail _ => match rail with
    | .v5 => 120e-3
    | .v3v3 => 10e-3
  max_power : Rail → Nat → K := fun _ _ => 0.0
  current_lsb : Rail → Nat → K := fun _ _ => 0.0
  shunt_cal : Rail → Nat → UInt16 := fun _ _ => 0

structure Members extends HdMezz.Driver, Calibration K

/-- The fields of `cmd_configureHDMezzBlock`, which the response repeats. -/
structure BlockConfiguration where
  afeBlock : Nat := 0
  r_shunt_5V : K := 0.0
  r_shunt_3V3 : K := 0.0
  max_current_5V_scale : K := 0.0
  max_current_3V3_scale : K := 0.0
  max_current_5V_shutdown : K := 0.0
  max_current_3V3_shutdown : K := 0.0

structure ReadHDMezzBlockConfigResponse extends BlockConfiguration K where
  max_power_5V : K := 0.0
  max_power_3V3 : K := 0.0
  current_lsb_5V : K := 0.0
  current_lsb_3V3 : K := 0.0
  shunt_cal_5V : UInt16 := 0
  shunt_cal_3V3 : UInt16 := 0

end

abbrev DriverState (K : Type) [OfScientific K] := State Reg UInt16 (Members K)
abbrev DriverProg (K : Type) [OfScientific K] (α : Type) := Prog Reg UInt16 (Members K) α

/-! ### The chips -/

section
variable {K : Type} [OfScientific K] (env : Env Reg UInt16)

/-- A program on the other members. -/
def onDriver {α : Type} (m : HdMezz.MezzProg α) : DriverProg K α := zoom Members.toDriver (fun d m => { m with toDriver := d }) m

def readINA232Register (afeBlock : Nat) (rail : Rail) (registerAddress : UInt8) : DriverProg K UInt16 := do
  onDriver (HdMezz.selectAfeBlock env afeBlock)
  read env (.ina232 afeBlock rail registerAddress.toNat)

def writeINA232Register (afeBlock : Nat) (rail : Rail) (registerAddress : UInt8) (value : UInt16) : DriverProg K Unit := do
  onDriver (HdMezz.selectAfeBlock env afeBlock)
  write env (.ina232 afeBlock rail registerAddress.toNat) value

def writeINA232Function (afeBlock : Nat) (rail : Rail) (f : INA232Function) (value : UInt16) : DriverProg K Unit := do
  let register_value ← readINA232Register env afeBlock rail f.bitField.registerAddr
  let register_value := f.bitField.replaced register_value value
  writeINA232Register env afeBlock rail f.bitField.registerAddr register_value
  let readback_register_value ← readINA232Register env afeBlock rail f.bitField.registerAddr
  if readback_register_value ≠ register_value then
    throw ("Failed to write value to INA232 function " ++ f.name ++ " in AFE block " ++ toString afeBlock ++ ", register 0x" ++
      hexByte f.bitField.registerAddr ++ ". Expected Register Value: 0x" ++ hexWord register_value ++
      ", Readback Register Value: 0x" ++ hexWord readback_register_value)
  else return ()

end

/-! ### Values -/

variable {K : Type} [OfScientific K] [Mul K] [Div K] [LE K] [DecidableLE K] (conv : Conversions K)

/-- The voltage that the power of a rail is computed with. -/
def voltage : Rail → K
  | .v5 => 5.0
  | .v3v3 => 3.3

/-- `configureCalibrationValues`, which does the blocks one by one. -/
def Calibration.derived (c : Calibration K) : Calibration K :=
  let current_lsb : Rail → Nat → K := fun rail afeBlock => c.max_current_scale rail afeBlock / 32768.0
  { c with
    current_lsb
    shunt_cal := fun rail afeBlock => conv.toUInt16 (0.00512 / (current_lsb rail afeBlock * c.r_shunt rail afeBlock))
    max_power := fun rail afeBlock => c.max_current_shutdown rail afeBlock * voltage rail }

def configureCalibrationValues : DriverProg K Unit :=
  modifyDriver fun m => { m with toCalibration := m.toCalibration.derived conv }

/-- The values of a rail that can be set. -/
inductive Setting where
  | rShunt
  | maxCurrentScale
  | maxCurrentShutdown
  deriving DecidableEq

def Setting.name : Setting → String
  | rShunt => "Rshunt"
  | maxCurrentScale => "Max Current Scale"
  | maxCurrentShutdown => "Max Current Shutdown"

def Calibration.get (c : Calibration K) : Setting → Rail → Nat → K
  | .rShunt => c.r_shunt
  | .maxCurrentScale => c.max_current_scale
  | .maxCurrentShutdown => c.max_current_shutdown

def Calibration.set (c : Calibration K) (setting : Setting) (rail : Rail) (afeBlock : Nat) (value : K) : Calibration K :=
  match setting with
  | .rShunt => { c with r_shunt := storeAt c.r_shunt rail afeBlock value }
  | .maxCurrentScale => { c with max_current_scale := storeAt c.max_current_scale rail afeBlock value }
  | .maxCurrentShutdown => { c with max_current_shutdown := storeAt c.max_current_shutdown rail afeBlock value }

/-- The setters. -/
def setValue (setting : Setting) (afeBlock : Nat) (value : K) (rail : Rail) : DriverProg K Unit :=
  if afeBlock > 4 then throw "Invalid AFE block number. Valid values are 0 to 4."
  else if value ≤ 0.0 then throw ("Invalid " ++ setting.name ++ " value. It must be greater than zero.")
  else do
    modifyDriver fun m => { m with toCalibration := m.toCalibration.set setting rail afeBlock value }
    configureCalibrationValues conv

def setRShunt (afeBlock : Nat) (rShunt : K) (rail : Rail) : DriverProg K Unit := setValue conv .rShunt afeBlock rShunt rail

def setMaxCurrentScale (afeBlock : Nat) (maxCurrent : K) (rail : Rail) : DriverProg K Unit :=
  setValue conv .maxCurrentScale afeBlock maxCurrent rail

def setMaxCurrentShutdown (afeBlock : Nat) (maxCurrent : K) (rail : Rail) : DriverProg K Unit :=
  setValue conv .maxCurrentShutdown afeBlock maxCurrent rail

/-! ### Configuration -/

section
variable (env : Env Reg UInt16)

/-- The functions of one INA232 that `configureHdMezzAfeBlock` writes. -/
def configureINA232 (afeBlock : Nat) (rail : Rail) : DriverProg K Unit := do
  writeINA232Function env afeBlock rail .SHUNT_CAL ((← getDriver).shunt_cal rail afeBlock)
  let m ← getDriver
  let max_power_reg := conv.toUInt16 (m.max_power rail afeBlock / (32.0 * m.current_lsb rail afeBlock))
  writeINA232Function env afeBlock rail .LIMIT max_power_reg
  writeINA232Function env afeBlock rail .LEN 0x1
  writeINA232Function env afeBlock rail .POL 0x1

def configureHdMezzAfeBlock (afeBlock : Nat) : DriverProg K Unit := do
  configureINA232 conv env afeBlock .v5
  configureINA232 conv env afeBlock .v3v3
  onDriver (HdMezz.writeTCA9536Register env afeBlock 0x3 0xF0)

/-! ### The requests -/

/-- The `try` block of `configureHDMezzBlock`. -/
def tryConfigure (request : BlockConfiguration K) : DriverProg K Unit :=
  if request.afeBlock > 4 then throw "HD mezzanine block out of range (0..4)"
  else do
    setRShunt conv request.afeBlock request.r_shunt_5V .v5
    setRShunt conv request.afeBlock request.r_shunt_3V3 .v3v3
    setMaxCurrentScale conv request.afeBlock request.max_current_5V_scale .v5
    setMaxCurrentScale conv request.afeBlock request.max_current_3V3_scale .v3v3
    setMaxCurrentShutdown conv request.afeBlock request.max_current_5V_shutdown .v5
    setMaxCurrentShutdown conv request.afeBlock request.max_current_3V3_shutdown .v3v3
    configureHdMezzAfeBlock conv env request.afeBlock

def configureHDMezzBlock (request : BlockConfiguration K) (s : DriverState K) : Answer (BlockConfiguration K) × DriverState K :=
  match tryConfigure conv env request s with
  | .ok () t =>
    (⟨true, "HD mezzanine block " ++ toString request.afeBlock ++ " configured with values " ++
      ", ".intercalate ([request.r_shunt_5V, request.r_shunt_3V3, request.max_current_5V_scale, request.max_current_3V3_scale,
        request.max_current_5V_shutdown, request.max_current_3V3_shutdown].map conv.to_string) ++ ".", request⟩, t)
  | .error what t => (⟨false, "Error configuring HD mezzanine block: " ++ what, {}⟩, t)

end

/-- The answer of `readHDMezzBlockConfig`, which reads the members only. -/
def readHDMezzBlockConfig (afeBlock : Nat) (m : Members K) : Answer (ReadHDMezzBlockConfigResponse K) :=
  if afeBlock > 4 then
    ⟨false, "Error reading HD mezzanine block configuration: HD mezzanine block out of range (0..4)", {}⟩
  else
    ⟨true, "HD mezzanine block " ++ toString afeBlock ++ " configuration read successfully.",
      { afeBlock
        r_shunt_5V := m.r_shunt .v5 afeBlock
        r_shunt_3V3 := m.r_shunt .v3v3 afeBlock
        max_current_5V_scale := m.max_current_scale .v5 afeBlock
        max_current_3V3_scale := m.max_current_scale .v3v3 afeBlock
        max_current_5V_shutdown := m.max_current_shutdown .v5 afeBlock
        max_current_3V3_shutdown := m.max_current_shutdown .v3v3 afeBlock
        max_power_5V := m.max_power .v5 afeBlock
        max_power_3V3 := m.max_power .v3v3 afeBlock
        current_lsb_5V := m.current_lsb .v5 afeBlock
        current_lsb_3V3 := m.current_lsb .v3v3 afeBlock
        shunt_cal_5V := m.shunt_cal .v5 afeBlock
        shunt_cal_3V3 := m.shunt_cal .v3v3 afeBlock }⟩

/-! ### Runs of the server -/

/-- The members that the constructor leaves. -/
def constructed : Members K := { toCalibration := Calibration.derived conv {} }

/-- The state after a program, whether it returns or throws. -/
def after {α : Type} (m : DriverProg K α) (s : DriverState K) : DriverState K :=
  match m s with
  | .ok _ t => t
  | .error _ t => t

/-- The states that calls of the setters and requests lead to. Other requests, the passes of the monitor and what the hardware
does leave the calibration alone. -/
inductive Reached (env : Env Reg UInt16) : DriverState K → Prop where
  | start (cells : Reg → UInt16) (reads : Reg → Nat) (accesses : Nat) :
      Reached env ⟨cells, reads, accesses, [], constructed conv⟩
  | set {s : DriverState K} (setting : Setting) (afeBlock : Nat) (value : K) (rail : Rail) (hs : Reached env s) :
      Reached env (after (setValue conv setting afeBlock value rail) s)
  | configure {s : DriverState K} (request : BlockConfiguration K) (hs : Reached env s) :
      Reached env (configureHDMezzBlock conv env request s).2
  | other {s t : DriverState K} (hs : Reached env s) (h : t.driver.toCalibration = s.driver.toCalibration) : Reached env t

end MezzCalibration
end DaphneZmq
