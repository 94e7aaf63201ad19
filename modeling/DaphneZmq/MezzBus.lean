import DaphneZmq.HdMezz
import DaphneZmq.Lib.Threads

/-! # The I2C bus of the mezzanines and its threads (DaphneI2CDrivers.cpp, server_controller/monitoring.cpp, server_controller/handlers.cpp)

The thread of the router serves the requests, `i2c_2_monitor_thread` makes its passes, and the mutex of the bus is all that
orders them. Scripts are as fine as the transactions on the bus: to read a register the driver selects the block in the
switch, sends the address of the register and fetches its bytes. A failed transaction throws. What the log of the server
prints and the waits are left out. -/

namespace DaphneZmq
open Lib.Threads

namespace MezzBus
open HdMezz (Rail Driver Answer storeFlag hexByte switched flagText)

/-! ### Transactions -/

/-- The devices of a block; their addresses on the bus are distinct. -/
inductive Chip where
  | tca9536
  | ina232 (rail : Rail)
  deriving DecidableEq

/-- A register as a call of the driver names it. -/
structure Register where
  afeBlock : Nat
  chip : Chip
  addr : UInt8
  deriving DecidableEq

/-- What is sent on the bus. A device answers a `fetch` with the register that it was last pointed to. -/
inductive Transaction where
  | select (switch : UInt8)
  | point (register : Register)
  | fetch (register : Register)
  | store (register : Register) (word : UInt16)

abbrev Transaction.Given : Transaction → Type
  | .fetch _ => UInt16
  | _ => Unit

/-- The members of `HDMezzDriver` that a block is configured with. -/
structure Calibration where
  r_shunt : Rail → Nat → Float := fun rail _ => match rail with
    | .v5 => 36e-3
    | .v3v3 => 0.3
  max_current_scale : Rail → Nat → Float := fun _ _ => 200e-3
  max_current_shutdown : Rail → Nat → Float := fun rail _ => match rail with
    | .v5 => 120e-3
    | .v3v3 => 10e-3
  max_power : Rail → Nat → Float := fun _ _ => 0.0
  current_lsb : Rail → Nat → Float := fun _ _ => 0.0
  shunt_cal : Rail → Nat → UInt16 := fun _ _ => 0

/-- The members of `HDMezzDriver`, and those of `Daphne` that the monitor stores in. -/
structure Members extends Driver, Calibration where
  HDMezz_voltage : Rail → Nat → Float := fun _ _ => 0.0
  HDMezz_current : Rail → Nat → Float := fun _ _ => 0.0
  HDMezz_power : Rail → Nat → Float := fun _ _ => 0.0
  isI2C_2_device_configuring : Bool := false

/-- What a thread does between two points where another thread can come in. `load` is for the atomic members. -/
inductive Op where
  | transact (transaction : Transaction)
  | members
  | update (f : Members → Members)
  | load

abbrev Op.Res : Op → Type
  | .transact transaction => Except String transaction.Given
  | .update _ => Unit
  | _ => Members

abbrev MezzScript (α : Type) := ExceptT String (Script Op Op.Res) α

def transact (transaction : Transaction) : MezzScript transaction.Given := ExceptT.mk (.op (.transact transaction) .ret)

def members : MezzScript Members := ExceptT.mk (.op .members fun m => .ret (.ok m))

def update (f : Members → Members) : MezzScript Unit := ExceptT.mk (.op (.update f) fun _ => .ret (.ok ()))

def load : MezzScript Members := ExceptT.mk (.op .load fun m => .ret (.ok m))

/-- `catch` that throws again with a text of its own. -/
def rethrow {α : Type} (f : String → String) (m : MezzScript α) : MezzScript α :=
  ExceptT.mk (m.run.bind fun r => .ret (r.mapError f))

/-! ### Registers -/

structure BitField where
  registerAddr : UInt8
  msb_pos : Nat
  lsb_pos : Nat

/-- The names in `INA232FunctionDict`. -/
inductive INA232Function where
  | RST | ADCRANGE | AVG | VBUSCT | VSHCT | MODE | VSHUNT | VBUS | POWER | CURRENT | SHUNT_CAL | SOL | SUL | BOL | BUL | POL | CNVR
  | MemError | AFF | CVRF | OVF | APOL | LEN | LIMIT | MANUFACTURE_ID
  deriving DecidableEq

/-- `INA232FunctionDict`. -/
def INA232Function.bitField : INA232Function → BitField
  | RST => ⟨0x0, 15, 15⟩
  | ADCRANGE => ⟨0x0, 12, 12⟩
  | AVG => ⟨0x0, 11, 9⟩
  | VBUSCT => ⟨0x0, 8, 6⟩
  | VSHCT => ⟨0x0, 5, 3⟩
  | MODE => ⟨0x0, 2, 0⟩
  | VSHUNT => ⟨0x1, 15, 0⟩
  | VBUS => ⟨0x2, 14, 0⟩
  | POWER => ⟨0x3, 15, 0⟩
  | CURRENT => ⟨0x4, 15, 0⟩
  | SHUNT_CAL => ⟨0x5, 14, 0⟩
  | SOL => ⟨0x6, 15, 15⟩
  | SUL => ⟨0x6, 14, 14⟩
  | BOL => ⟨0x6, 13, 13⟩
  | BUL => ⟨0x6, 12, 12⟩
  | POL => ⟨0x6, 11, 11⟩
  | CNVR => ⟨0x6, 10, 10⟩
  | MemError => ⟨0x6, 5, 5⟩
  | AFF => ⟨0x6, 4, 4⟩
  | CVRF => ⟨0x6, 3, 3⟩
  | OVF => ⟨0x6, 2, 2⟩
  | APOL => ⟨0x6, 1, 1⟩
  | LEN => ⟨0x6, 0, 0⟩
  | LIMIT => ⟨0x7, 15, 0⟩
  | MANUFACTURE_ID => ⟨0x3e, 15, 0⟩

def INA232Function.name (f : INA232Function) : String := match f with
  | RST => "RST"
  | ADCRANGE => "ADCRANGE"
  | AVG => "AVG"
  | VBUSCT => "VBUSCT"
  | VSHCT => "VSHCT"
  | MODE => "MODE"
  | VSHUNT => "VSHUNT"
  | VBUS => "VBUS"
  | POWER => "POWER"
  | CURRENT => "CURRENT"
  | SHUNT_CAL => "SHUNT_CAL"
  | SOL => "SOL"
  | SUL => "SUL"
  | BOL => "BOL"
  | BUL => "BUL"
  | POL => "POL"
  | CNVR => "CNVR"
  | MemError => "MemError"
  | AFF => "AFF"
  | CVRF => "CVRF"
  | OVF => "OVF"
  | APOL => "APOL"
  | LEN => "LEN"
  | LIMIT => "LIMIT"
  | MANUFACTURE_ID => "MANUFACTURE_ID"

/-- The bits of a field, at the low end. -/
def BitField.ones (field : BitField) : UInt16 := UInt16.ofNat (2 ^ (field.msb_pos - field.lsb_pos + 1) - 1)

def BitField.mask (field : BitField) : UInt16 := field.ones <<< UInt16.ofNat field.lsb_pos

/-- `std::hex << std::uppercase << std::setw(4) << std::setfill('0')`. -/
def hexWord (n : UInt16) : String :=
  let digits := (String.ofList (Nat.toDigits 16 n.toNat)).toUpper
  String.ofList (List.replicate (4 - digits.length) '0') ++ digits

/-- `HDMezzExpanderEncoder`, by the number in the name of the block. -/
def HDMezzExpanderEncoder : List UInt8 := [0b00001, 0b00010, 0b00100, 0b01000, 0b10000]

def selectAfeBlock (afeBlock : Nat) : MezzScript Unit :=
  if afeBlock > 4 then throw "Invalid AFE block number. Valid values are 0 to 4."
  else do
    let m ← members
    if !m.enabled_afeBlocks afeBlock then
      throw ("AFE block " ++ toString afeBlock ++ " is not enabled. Please enable it before configuration.")
    else match HDMezzExpanderEncoder[afeBlock]? with
      | some switch => transact (.select switch)
      | none => throw "_Map_base::at"

/-- `I2CDevice::readByte` and `I2CDevice::readBytes`. -/
def readDevice (register : Register) : MezzScript UInt16 := do
  transact (.point register)
  transact (.fetch register)

def readINA232Register (afeBlock : Nat) (rail : Rail) (registerAddress : UInt8) : MezzScript UInt16 := do
  selectAfeBlock afeBlock
  readDevice ⟨afeBlock, .ina232 rail, registerAddress⟩

def writeINA232Register (afeBlock : Nat) (rail : Rail) (registerAddress : UInt8) (value : UInt16) : MezzScript Unit := do
  selectAfeBlock afeBlock
  transact (.store ⟨afeBlock, .ina232 rail, registerAddress⟩ value)

def readINA232Function (afeBlock : Nat) (rail : Rail) (f : INA232Function) : MezzScript UInt16 := do
  let register_value ← readINA232Register afeBlock rail f.bitField.registerAddr
  return (register_value >>> UInt16.ofNat f.bitField.lsb_pos) &&& f.bitField.ones

/-- A register value with a field replaced. -/
def BitField.replaced (field : BitField) (register_value value : UInt16) : UInt16 :=
  (register_value &&& ~~~field.mask) ||| ((value <<< UInt16.ofNat field.lsb_pos) &&& field.mask)

def writeINA232Function (afeBlock : Nat) (rail : Rail) (f : INA232Function) (value : UInt16) : MezzScript Unit := do
  let register_value ← readINA232Register afeBlock rail f.bitField.registerAddr
  let register_value := f.bitField.replaced register_value value
  writeINA232Register afeBlock rail f.bitField.registerAddr register_value
  let readback_register_value ← readINA232Register afeBlock rail f.bitField.registerAddr
  if readback_register_value ≠ register_value then
    throw ("Failed to write value to INA232 function " ++ f.name ++ " in AFE block " ++ toString afeBlock ++ ", register 0x" ++
      hexByte f.bitField.registerAddr ++ ". Expected Register Value: 0x" ++ hexWord register_value ++
      ", Readback Register Value: 0x" ++ hexWord readback_register_value)
  else return ()

def readTCA9536Register (afeBlock : Nat) (registerAddress : UInt8) : MezzScript UInt8 := do
  selectAfeBlock afeBlock
  return (← readDevice ⟨afeBlock, .tca9536, registerAddress⟩).toUInt8

def writeTCA9536Register (afeBlock : Nat) (registerAddress : UInt8) (value : UInt8) : MezzScript Unit := do
  selectAfeBlock afeBlock
  transact (.store ⟨afeBlock, .tca9536, registerAddress⟩ value.toUInt16)
  let readback_value := (← readDevice ⟨afeBlock, .tca9536, registerAddress⟩).toUInt8
  if readback_value ≠ value then
    throw ("Failed to write value to TCA9536 register in AFE block " ++ toString afeBlock ++ ", register 0x" ++
      hexByte registerAddress ++ ". Expected: 0x" ++ hexByte value ++ ", Readback: 0x" ++ hexByte readback_value)
  else return ()

/-! ### The driver -/

/-- `configureCalibrationValues`, which does the blocks one by one. -/
def configureCalibrationValues : MezzScript Unit :=
  update fun m =>
    let current_lsb : Rail → Nat → Float := fun rail afeBlock => m.max_current_scale rail afeBlock / Float.pow 2 15
    { m with
      current_lsb
      shunt_cal := fun rail afeBlock => (0.00512 / (current_lsb rail afeBlock * m.r_shunt rail afeBlock)).toUInt16
      max_power := fun rail afeBlock => m.max_current_shutdown rail afeBlock * match rail with
        | .v5 => 5.0
        | .v3v3 => 3.3 }

/-- One entry of an array is stored. -/
def storeAt {α : Type} (values : Rail → Nat → α) (rail : Rail) (i : Nat) (value : α) : Rail → Nat → α := fun r j =>
  if r = rail ∧ j = i then value else values r j

/-- The setters of a value that a block is calibrated with. -/
def setCalibration (what : String) (set : Members → Float → Members) (afeBlock : Nat) (value : Float) : MezzScript Unit :=
  if afeBlock > 4 then throw "Invalid AFE block number. Valid values are 0 to 4."
  else if value ≤ 0 then throw ("Invalid " ++ what ++ " value. It must be greater than zero.")
  else do
    update fun m => set m value
    configureCalibrationValues

def setRShunt (afeBlock : Nat) (rShunt : Float) (rail : Rail) : MezzScript Unit :=
  setCalibration "Rshunt" (fun m value => { m with r_shunt := storeAt m.r_shunt rail afeBlock value }) afeBlock rShunt

def setMaxCurrentScale (afeBlock : Nat) (maxCurrent : Float) (rail : Rail) : MezzScript Unit :=
  setCalibration "Max Current Scale" (fun m value => { m with max_current_scale := storeAt m.max_current_scale rail afeBlock value })
    afeBlock maxCurrent

def setMaxCurrentShutdown (afeBlock : Nat) (maxCurrent : Float) (rail : Rail) : MezzScript Unit :=
  setCalibration "Max Current Shutdown"
    (fun m value => { m with max_current_shutdown := storeAt m.max_current_shutdown rail afeBlock value }) afeBlock maxCurrent

/-- The getters of a block's values. -/
def getCalibration {α : Type} (get : Members → Rail → Nat → α) (afeBlock : Nat) (rail : Rail) : MezzScript α :=
  if afeBlock > 4 then throw "Invalid AFE block number. Valid values are 0 to 4."
  else do return get (← members) rail afeBlock

def getRShunt : Nat → Rail → MezzScript Float := getCalibration fun m => m.r_shunt
def getMaxCurrentScale : Nat → Rail → MezzScript Float := getCalibration fun m => m.max_current_scale
def getMaxCurrentShutdown : Nat → Rail → MezzScript Float := getCalibration fun m => m.max_current_shutdown
def getMaxPower : Nat → Rail → MezzScript Float := getCalibration fun m => m.max_power
def getCurrentLsb : Nat → Rail → MezzScript Float := getCalibration fun m => m.current_lsb
def getShuntCal : Nat → Rail → MezzScript UInt16 := getCalibration fun m => m.shunt_cal

def enableAfeBlock (afeBlock : Nat) (enable : Bool) : MezzScript Unit :=
  if afeBlock > 4 then throw "Invalid AFE block number. Valid values are 0 to 4."
  else update fun m => { m with enabled_afeBlocks := Function.update m.enabled_afeBlocks afeBlock enable }

def isAfeBlockEnabled (afeBlock : Nat) : MezzScript Bool :=
  if afeBlock > 4 then throw "Invalid AFE block number. Valid values are 0 to 4."
  else do return (← members).enabled_afeBlocks afeBlock

/-- The functions of one INA232 that `configureHdMezzAfeBlock` writes. -/
def configureINA232 (afeBlock : Nat) (rail : Rail) : MezzScript Unit := do
  writeINA232Function afeBlock rail .SHUNT_CAL ((← members).shunt_cal rail afeBlock)
  let m ← members
  let max_power_reg := (m.max_power rail afeBlock / (32 * m.current_lsb rail afeBlock)).toUInt16
  writeINA232Function afeBlock rail .LIMIT max_power_reg
  writeINA232Function afeBlock rail .LEN 0x1
  writeINA232Function afeBlock rail .POL 0x1

def configureHdMezzAfeBlock (afeBlock : Nat) : MezzScript Unit := do
  configureINA232 afeBlock .v5
  configureINA232 afeBlock .v3v3
  writeTCA9536Register afeBlock 0x3 0xF0

def setPowerStatus (rail : Rail) (powerOn : Bool) : MezzScript Unit :=
  update fun m => match rail with
    | .v5 => { m with powerStatus5V := powerOn }
    | .v3v3 => { m with powerStatus3V3 := powerOn }

def powerOn_HDMezzAfeBlock (afeBlock : Nat) (powerOn : Bool) (rail : Rail) : MezzScript Unit := do
  let output_port ← readTCA9536Register afeBlock 0x1
  rethrow ("Failed to write to TCA9536 expander: " ++ ·) do
    writeTCA9536Register afeBlock 0x1 (switched output_port rail powerOn)
    setPowerStatus rail powerOn

/-- `isPowerOn`; the block is not used. -/
def isPowerOn (_afeBlock : Nat) (rail : Rail) : MezzScript Bool := do
  let m ← members
  match rail with
  | .v5 => return m.powerStatus5V
  | .v3v3 => return m.powerStatus3V3

def readRailVoltage (afeBlock : Nat) (rail : Rail) : MezzScript Float := do
  let bus_voltage_reg_value ← readINA232Function afeBlock rail .VBUS
  return bus_voltage_reg_value.toFloat * 1.6e-3

def readRailCurrent (afeBlock : Nat) (rail : Rail) : MezzScript Float := do
  let current_reg_value ← readINA232Function afeBlock rail .CURRENT
  return current_reg_value.toInt16.toFloat * (← members).current_lsb rail afeBlock * 1000

def readRailPower (afeBlock : Nat) (rail : Rail) : MezzScript Float := do
  let power_reg_value ← readINA232Function afeBlock rail .POWER
  return 32 * power_reg_value.toFloat * (← members).current_lsb rail afeBlock * 1000

def checkAlertStatus (afeBlock : Nat) (rail : Rail) : MezzScript Bool := do
  let alert_reg_value ← readINA232Function afeBlock rail .AFF
  return alert_reg_value &&& 0x1 != 0

/-! ### The monitor -/

def storePowered (i : Nat) (rail : Rail) : MezzScript Unit := do
  let powered ← isPowerOn i rail
  update fun m => { m with HDMezz_is_powered := storeFlag m.HDMezz_is_powered rail i powered }

def storeVoltage (i : Nat) (rail : Rail) : MezzScript Unit := do
  let voltage ← readRailVoltage i rail
  update fun m => { m with HDMezz_voltage := storeAt m.HDMezz_voltage rail i voltage }

def storeCurrent (i : Nat) (rail : Rail) : MezzScript Unit := do
  let current ← readRailCurrent i rail
  update fun m => { m with HDMezz_current := storeAt m.HDMezz_current rail i current }

def storePower (i : Nat) (rail : Rail) : MezzScript Unit := do
  let power ← readRailPower i rail
  update fun m => { m with HDMezz_power := storeAt m.HDMezz_power rail i power }

/-- The alert is checked until it is latched. -/
def latchAlert (i : Nat) (rail : Rail) : MezzScript Unit := do
  let m ← load
  if !m.HDMezz_alert rail i then
    let alert ← checkAlertStatus i rail
    update fun m => { m with HDMezz_alert := storeFlag m.HDMezz_alert rail i alert }
  else return ()

/-- Either of two atomic flags; the second is loaded if the first is not set. -/
def loadEither (flag : Members → Rail → Nat → Bool) (i : Nat) : MezzScript Bool := do
  if flag (← load) .v5 i then return true else return flag (← load) .v3v3 i

/-- There is an alert and a rail is powered. -/
def poweredInAlert (i : Nat) : MezzScript Bool := do
  if ← loadEither (·.HDMezz_alert) i then loadEither (·.HDMezz_is_powered) i else return false

/-- A block in a pass of `i2c_2_monitor_thread`. -/
def monitorBlock (i : Nat) : MezzScript Unit := do
  let enabled ← isAfeBlockEnabled i
  if enabled then
    storePowered i .v5
    storePowered i .v3v3
    storeVoltage i .v5
    storeCurrent i .v5
    storeVoltage i .v3v3
    storeCurrent i .v3v3
    storePower i .v5
    storePower i .v3v3
    latchAlert i .v5
    latchAlert i .v3v3
    let off ← poweredInAlert i
    if off then
      powerOn_HDMezzAfeBlock i false .v5
      powerOn_HDMezzAfeBlock i false .v3v3
    else return ()
  else return ()

/-- A pass of `i2c_2_monitor_thread`: what it throws is caught, when the lock has been freed. -/
def monitorPass (hd : Bool) : Script Op Op.Res Unit :=
  .tryLock fun owns_lock =>
    if owns_lock then
      (if hd then (List.range 5).forM monitorBlock else pure ()).run.bind fun _ => .unlock (.ret ())
    else .ret ()

/-! ### The requests -/

/-- What is done in the scope of an `I2C2BusGuard`, which also ends when something is thrown. -/
def busGuard {α : Type} (m : MezzScript α) : MezzScript α :=
  ExceptT.mk <| .lock <| .op (.update fun m => { m with isI2C_2_device_configuring := true }) fun _ =>
    m.run.bind fun r => .op (.update fun m => { m with isI2C_2_device_configuring := false }) fun _ => .unlock (.ret r)

/-- A handler's `try` and `catch`, with an empty response if something is thrown. -/
def answer {α : Type} (empty : α) (failure : String) (m : MezzScript (String × α)) : Script Op Op.Res (Answer α) :=
  m.run.bind fun
    | .ok (response_str, response) => .ret ⟨true, response_str, response⟩
    | .error what => .ret ⟨false, failure ++ what, empty⟩

/-- The checks of a handler. -/
def checkRequest (hd : Bool) (afeBlock : Nat) : MezzScript Unit :=
  if afeBlock > 4 then throw "HD mezzanine block out of range (0..4)"
  else if !hd then throw "HD mezzanine driver not initialized"
  else return ()

/-- `std::to_string` of a number. -/
def numberText (x : Float32) : String := if x.isNaN then "nan" else x.toFloat.toString

section
variable (hd : Bool)

def setHDMezzBlockEnable (afeBlock : Nat) (enable : Bool) : Script Op Op.Res (Answer HdMezz.SetHDMezzBlockEnableResponse) :=
  answer {} "Error setting HD mezzanine block enable state: " do
    checkRequest hd afeBlock
    busGuard do
      enableAfeBlock afeBlock enable
      return ("HD mezzanine block " ++ toString afeBlock ++ " enable state set to " ++ flagText enable ++ ".",
        { afeBlock, enable })

/-- The fields of `cmd_configureHDMezzBlock`, which the response repeats. -/
structure BlockConfiguration where
  afeBlock : Nat := 0
  r_shunt_5V : Float32 := 0
  r_shunt_3V3 : Float32 := 0
  max_current_5V_scale : Float32 := 0
  max_current_3V3_scale : Float32 := 0
  max_current_5V_shutdown : Float32 := 0
  max_current_3V3_shutdown : Float32 := 0

def configureHDMezzBlock (request : BlockConfiguration) : Script Op Op.Res (Answer BlockConfiguration) :=
  answer {} "Error configuring HD mezzanine block: " do
    checkRequest hd request.afeBlock
    busGuard do
      setRShunt request.afeBlock request.r_shunt_5V.toFloat .v5
      setRShunt request.afeBlock request.r_shunt_3V3.toFloat .v3v3
      setMaxCurrentScale request.afeBlock request.max_current_5V_scale.toFloat .v5
      setMaxCurrentScale request.afeBlock request.max_current_3V3_scale.toFloat .v3v3
      setMaxCurrentShutdown request.afeBlock request.max_current_5V_shutdown.toFloat .v5
      setMaxCurrentShutdown request.afeBlock request.max_current_3V3_shutdown.toFloat .v3v3
      configureHdMezzAfeBlock request.afeBlock
      return ("HD mezzanine block " ++ toString request.afeBlock ++ " configured with values " ++
        ", ".intercalate ([request.r_shunt_5V, request.r_shunt_3V3, request.max_current_5V_scale, request.max_current_3V3_scale,
          request.max_current_5V_shutdown, request.max_current_3V3_shutdown].map numberText) ++ ".", request)

structure ReadHDMezzBlockConfigResponse extends BlockConfiguration where
  max_power_5V : Float32 := 0
  max_power_3V3 : Float32 := 0
  current_lsb_5V : Float32 := 0
  current_lsb_3V3 : Float32 := 0
  shunt_cal_5V : UInt16 := 0
  shunt_cal_3V3 : UInt16 := 0

def readHDMezzBlockConfig (afeBlock : Nat) : Script Op Op.Res (Answer ReadHDMezzBlockConfigResponse) :=
  answer {} "Error reading HD mezzanine block configuration: " do
    checkRequest hd afeBlock
    busGuard do
      let response : ReadHDMezzBlockConfigResponse :=
        { afeBlock
          r_shunt_5V := (← getRShunt afeBlock .v5).toFloat32
          r_shunt_3V3 := (← getRShunt afeBlock .v3v3).toFloat32
          max_current_5V_scale := (← getMaxCurrentScale afeBlock .v5).toFloat32
          max_current_3V3_scale := (← getMaxCurrentScale afeBlock .v3v3).toFloat32
          max_current_5V_shutdown := (← getMaxCurrentShutdown afeBlock .v5).toFloat32
          max_current_3V3_shutdown := (← getMaxCurrentShutdown afeBlock .v3v3).toFloat32
          max_power_5V := (← getMaxPower afeBlock .v5).toFloat32
          max_power_3V3 := (← getMaxPower afeBlock .v3v3).toFloat32
          current_lsb_5V := (← getCurrentLsb afeBlock .v5).toFloat32
          current_lsb_3V3 := (← getCurrentLsb afeBlock .v3v3).toFloat32
          shunt_cal_5V := ← getShuntCal afeBlock .v5
          shunt_cal_3V3 := ← getShuntCal afeBlock .v3v3 }
      return ("HD mezzanine block " ++ toString afeBlock ++ " configuration read successfully.", response)

def setHDMezzPowerStates (afeBlock : Nat) (power_5v power_3v3 : Bool) :
    Script Op Op.Res (Answer HdMezz.SetHDMezzPowerStatesResponse) :=
  answer {} "Error setting HD mezzanine block power states: " do
    checkRequest hd afeBlock
    busGuard do
      powerOn_HDMezzAfeBlock afeBlock power_5v .v5
      powerOn_HDMezzAfeBlock afeBlock power_3v3 .v3v3
      return ("HD mezzanine block " ++ toString afeBlock ++ " power states set to 5V: " ++ flagText power_5v ++
        ", 3V3: " ++ flagText power_3v3 ++ ".", { afeBlock, power5V := power_5v, power3V3 := power_3v3 })

structure ReadHDMezzStatusResponse where
  afeBlock : Nat := 0
  power5V : Bool := false
  power3V3 : Bool := false
  measured_voltage5V : Float32 := 0
  measured_voltage3V3 : Float32 := 0
  measured_current5V : Float32 := 0
  measured_current3V3 : Float32 := 0
  measured_power5V : Float32 := 0
  measured_power3V3 : Float32 := 0
  alert_5V : Bool := false
  alert_3V3 : Bool := false

/-- The one handler that does not take the mutex. -/
def readHDMezzStatus (afeBlock : Nat) : Script Op Op.Res (Answer ReadHDMezzStatusResponse) :=
  answer {} "Error reading HD mezzanine block status: " do
    checkRequest hd afeBlock
    let response : ReadHDMezzStatusResponse :=
      { afeBlock
        power5V := (← load).HDMezz_is_powered .v5 afeBlock
        power3V3 := (← load).HDMezz_is_powered .v3v3 afeBlock
        measured_voltage5V := ((← load).HDMezz_voltage .v5 afeBlock).toFloat32
        measured_voltage3V3 := ((← load).HDMezz_voltage .v3v3 afeBlock).toFloat32
        measured_current5V := ((← load).HDMezz_current .v5 afeBlock).toFloat32
        measured_current3V3 := ((← load).HDMezz_current .v3v3 afeBlock).toFloat32
        measured_power5V := ((← load).HDMezz_power .v5 afeBlock).toFloat32
        measured_power3V3 := ((← load).HDMezz_power .v3v3 afeBlock).toFloat32
        alert_5V := (← load).HDMezz_alert .v5 afeBlock
        alert_3V3 := (← load).HDMezz_alert .v3v3 afeBlock }
    return ("HD mezzanine block " ++ toString afeBlock ++ " status read successfully.", response)

def clearHDMezzAlertFlag (afeBlock : Nat) : Script Op Op.Res (Answer HdMezz.ClearHDMezzAlertFlagResponse) :=
  answer {} "Error clearing HD mezzanine block alert flags: " do
    checkRequest hd afeBlock
    busGuard do
      update fun m => { m with HDMezz_alert := storeFlag m.HDMezz_alert .v5 afeBlock false }
      update fun m => { m with HDMezz_alert := storeFlag m.HDMezz_alert .v3v3 afeBlock false }
      return ("HD mezzanine block " ++ toString afeBlock ++ " alert flags cleared.", { afeBlock })

/-- The requests about the mezzanines. -/
inductive Request where
  | setHDMezzBlockEnable (afeBlock : Nat) (enable : Bool)
  | configureHDMezzBlock (request : BlockConfiguration)
  | readHDMezzBlockConfig (afeBlock : Nat)
  | setHDMezzPowerStates (afeBlock : Nat) (power_5v power_3v3 : Bool)
  | readHDMezzStatus (afeBlock : Nat)
  | clearHDMezzAlertFlag (afeBlock : Nat)

def Request.serve : Request → Script Op Op.Res Unit
  | .setHDMezzBlockEnable afeBlock enable => discard (MezzBus.setHDMezzBlockEnable hd afeBlock enable)
  | .configureHDMezzBlock request => discard (MezzBus.configureHDMezzBlock hd request)
  | .readHDMezzBlockConfig afeBlock => discard (MezzBus.readHDMezzBlockConfig hd afeBlock)
  | .setHDMezzPowerStates afeBlock power_5v power_3v3 => discard (MezzBus.setHDMezzPowerStates hd afeBlock power_5v power_3v3)
  | .readHDMezzStatus afeBlock => discard (MezzBus.readHDMezzStatus hd afeBlock)
  | .clearHDMezzAlertFlag afeBlock => discard (MezzBus.clearHDMezzAlertFlag hd afeBlock)

end

/-! ### Runs -/

inductive Thread where
  | router
  | monitor
  deriving DecidableEq

/-- What a thread does next when it has nothing to do. -/
inductive Job (hd : Bool) : Thread → Script Op Op.Res Unit → Prop
  | request (request : Request) : Job hd .router (request.serve hd)
  | monitorPass : Job hd .monitor (monitorPass hd)

/-- The switch, the registers that the devices are pointed to, and what their registers hold. -/
structure Bus where
  switch : UInt8
  pointer : Nat → Chip → UInt8
  cells : Register → UInt16

/-- Each bit of the switch connects a block. -/
def Bus.connected (bus : Bus) (afeBlock : Nat) : Bool := bus.switch.toNat.testBit afeBlock

/-- All connected devices at an address hear what is sent to it. -/
def Bus.pointed (bus : Bus) (chip : Chip) (addr : UInt8) : Bus :=
  { bus with pointer := fun afeBlock c => if bus.connected afeBlock ∧ c = chip then addr else bus.pointer afeBlock c }

def Bus.stored (bus : Bus) (chip : Chip) (addr : UInt8) (word : UInt16) : Bus :=
  { bus.pointed chip addr with
    cells := fun reg => if bus.connected reg.afeBlock ∧ reg.chip = chip ∧ reg.addr = addr then word else bus.cells reg }

/-- A transaction that was made, with the bus as it found it. -/
structure Entry where
  thread : Thread
  transaction : Transaction
  result : Except String transaction.Given
  before : Bus

/-- What the threads share, with the transactions made so far, the last one first. -/
structure Shared where
  bus : Bus
  members : Members
  log : List Entry

def Shared.logged (s : Shared) (thread : Thread) (transaction : Transaction) (result : Except String transaction.Given) (bus : Bus) :
    Shared :=
  { s with bus, log := ⟨thread, transaction, result, s.bus⟩ :: s.log }

/-- What an operation of a thread can give and make of what is shared. `kept` has the bits of a register that only change
when it is written; the device drives the others. What a failed transaction leaves on the bus is open. -/
inductive Exec (kept : Chip → UInt8 → UInt16) (t : Thread) (s : Shared) : (o : Op) → o.Res → Shared → Prop
  | failed {transaction : Transaction} (what : String) (bus : Bus) :
      Exec kept t s (.transact transaction) (.error what) (s.logged t transaction (.error what) bus)
  | select {switch : UInt8} :
      Exec kept t s (.transact (.select switch)) (.ok ()) (s.logged t (.select switch) (.ok ()) { s.bus with switch })
  | point {reg : Register} :
      Exec kept t s (.transact (.point reg)) (.ok ()) (s.logged t (.point reg) (.ok ()) (s.bus.pointed reg.chip reg.addr))
  | fetch {reg : Register} (value : UInt16)
      (hvalue : ∀ afeBlock, (∀ j, s.bus.connected j = true ↔ j = afeBlock) →
        value &&& kept reg.chip (s.bus.pointer afeBlock reg.chip) =
          s.bus.cells ⟨afeBlock, reg.chip, s.bus.pointer afeBlock reg.chip⟩ &&& kept reg.chip (s.bus.pointer afeBlock reg.chip)) :
      Exec kept t s (.transact (.fetch reg)) (.ok value) (s.logged t (.fetch reg) (.ok value) s.bus)
  | store {reg : Register} {word : UInt16} :
      Exec kept t s (.transact (.store reg word)) (.ok ())
        (s.logged t (.store reg word) (.ok ()) (s.bus.stored reg.chip reg.addr word))
  | members : Exec kept t s .members s.members s
  | update (f : Members → Members) : Exec kept t s (.update f) () { s with members := f s.members }
  | load : Exec kept t s .load s.members s

/-- The configurations of the server, from any state of the bus and the members. -/
abbrev ServerReaches (kept : Chip → UInt8 → UInt16) (hd : Bool) : Config Thread Op Op.Res Shared → Prop :=
  Reachable (Exec kept) (Job hd) fun s => s.log = []

end MezzBus
end DaphneZmq
