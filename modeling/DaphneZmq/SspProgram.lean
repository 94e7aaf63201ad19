import DaphneZmq.SspLedControl

/-! # The program of the SSP (ssp_led_control.py)

The commands of `main` over any `transaction`, with what they print of the registers as what they return, and the program over
a connection. At the other end of it is an SSP that answers a request with a register. -/

namespace DaphneZmq.SspLedControl
open Lib.Device (Env)

def DP_FPGA_FW_BUILD : Int := 0x80000010
def CALIB_BUILD : Int := 0x80000014
def DP_CLOCK_STATUS : Int := 0x80000020
def MASTER_LOGIC_CONTROL : Int := 0x80000500
def MASTER_LOGIC_STATUS : Int := 0x80000504

def PDTS_REPORT_REGISTERS : List (Int × String) :=
  [ (DP_CLOCK_CONTROL, "dp_clock_control"), (PDTS_CONTROL, "pdts_control"), (PDTS_STATUS, "pdts_status"),
    (PDTS_CMD_CONTROL_1, "pdts_cmd_control_1"), (PDTS_CMD_CONTROL_2, "pdts_cmd_control_2"), (CAL_COUNT, "cal_count")] ++
    (List.range 16).map fun (index : Nat) => (PDTS_CMD_DELAY_0 + index * 4, s!"pdts_cmd_delay_{index}")

def INSPECT_REGISTERS : List (Int × String) :=
  [ (DP_FPGA_FW_BUILD, "dp_fpga_fw_build"), (CALIB_BUILD, "calib_build"), (DP_CLOCK_STATUS, "dp_clock_status"),
    (MASTER_LOGIC_CONTROL, "master_logic_control"), (MASTER_LOGIC_STATUS, "master_logic_status"),
    (DP_CLOCK_CONTROL, "dp_clock_control"), (PDTS_CONTROL, "pdts_control"), (PDTS_STATUS, "pdts_status"),
    (PDTS_CMD_CONTROL_1, "pdts_cmd_control_1"), (PDTS_CMD_CONTROL_2, "pdts_cmd_control_2"), (CAL_COUNT, "cal_count")]

section Client
variable {σ : Type} (transaction : Int → Int → List Int → EStateM String σ Reply)

/-- `dump_registers`, with the lines that it prints. -/
def dumpRegisters (registers : List (Int × String)) (heading : String) : EStateM String σ (List String) := do
  let lines ← registers.mapM fun (address, label) => do
    let value ← read transaction address
    return s!"  0x{hex8 address}  0x{hex8 value.toNat}  {label}"
  return heading :: lines

def pulseMasterLogicReset : EStateM String σ (List String) := do
  let current ← read transaction MASTER_LOGIC_CONTROL
  let cleared := current &&& ~~~(0x00000101 : UInt32)
  writeAndLog transaction MASTER_LOGIC_CONTROL cleared.toNat true
  writeAndLog transaction MASTER_LOGIC_CONTROL 0x00000041 true
  let status ← read transaction MASTER_LOGIC_STATUS
  let pdts_status ← read transaction PDTS_STATUS
  let control ← read transaction MASTER_LOGIC_CONTROL
  return [s!"Master logic before pulse: control=0x{hex8 current.toNat}",
    s!"Master logic after pulse: control=0x{hex8 control.toNat} status=0x{hex8 status.toNat} pdts_status=0x{hex8 pdts_status.toNat}"]

/-- What `main` is asked for, the configuration merged. -/
inductive Command
  | run (cfg : LEDRunConfig)
  | stop
  | pdtsSyncReport (partition_number timing_address : Int)
  | inspect
  | masterLogicResetReport

/-- What `main` does over its client. -/
def Command.execute : Command → EStateM String σ (List String)
  | .run cfg => do
    configureRun transaction cfg
    return []
  | .stop => do
    stopRun transaction
    return []
  | .pdtsSyncReport partition_number timing_address => do
    let before ← dumpRegisters transaction PDTS_REPORT_REGISTERS "PDTS register dump before sync:"
    syncPdts transaction partition_number timing_address
    configurePdtsRegisterBlock transaction
    let after ← dumpRegisters transaction PDTS_REPORT_REGISTERS "PDTS register dump after sync:"
    return before ++ after
  | .inspect => dumpRegisters transaction INSPECT_REGISTERS "SSP inspect dump:"
  | .masterLogicResetReport => do
    let before ← dumpRegisters transaction INSPECT_REGISTERS "Before master logic reset:"
    let pulse ← pulseMasterLogicReset transaction
    let after ← dumpRegisters transaction INSPECT_REGISTERS "After master logic reset:"
    return before ++ pulse ++ after

/-- What `main` does once it has its configuration. No client is made for one that is not valid. -/
def Command.main (command : Command) : EStateM String σ (List String) :=
  match command with
  | .run cfg =>
    match validateConfig cfg with
    | .error e => throw e
    | .ok () => command.execute transaction
  | _ => command.execute transaction

end Client

/-! ### Programs over connections -/

abbrev Registers := Lib.Device.State Nat UInt32 Unit

/-- What an invocation prints or the text of its error, and the peer after it. -/
def outcome {σ : Type} : EStateM.Result String σ (List String) → Except String (List String) × σ
  | .ok lines s => (.ok lines, s)
  | .error e s => (.error e, s)

section Invocations
variable {P : Type} (peer : Peer P)

end Invocations

/-! ### What it is for -/

/-- What is known of the channels. -/
inductive Lights
  | unknown
  | lit (cfg : LEDRunConfig)
  | dark

/-- What is known after an invocation. One that fails can have written some of the channels, unless it was for a
    configuration that is not valid. -/
def Lights.after (lights : Lights) : Command → Except String (List String) → Lights
  | .run cfg, .ok _ => .lit cfg
  | .run cfg, .error _ =>
    match validateConfig cfg with
    | .error _ => lights
    | .ok () => .unknown
  | .stop, .ok _ => .dark
  | .stop, .error _ => .unknown
  | .pdtsSyncReport .., _ => lights
  | .inspect, _ => lights
  | .masterLogicResetReport, _ => lights

def Lights.Hold : Lights → (Nat → UInt32) → Prop
  | .unknown, _ => True
  | .lit cfg, cells => validateConfig cfg = .ok () ∧ ∀ counter < cfg.number_channels.toNat, Configured cfg cells counter
  | .dark, cells => Dark cells

end DaphneZmq.SspLedControl
