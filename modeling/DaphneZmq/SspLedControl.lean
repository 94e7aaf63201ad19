import DaphneZmq.Lib.Device
import DaphneZmq.SspClient

/-! # The LED runs of the SSP (ssp_led_control.py)

`configure_run` and `stop_run` are written over any `transaction`, and run here on the registers of an SSP. -/

namespace DaphneZmq.SspLedControl
open Lib
open Lib.Device (Env Prog)

def MODULE_ID : Int := 0x80000024
def CAL_COUNT : Int := 0x80000448
def PDTS_CMD_CONTROL_1 : Int := 0x80000464
def PDTS_CMD_CONTROL_2 : Int := 0x80000468
def PDTS_CONTROL : Int := 0x800004C0
def PDTS_STATUS : Int := 0x800004C4
def DP_CLOCK_CONTROL : Int := 0x80000520
def PDTS_CMD_DELAY_0 : Int := 0x80000940

structure LEDRunConfig where
  number_channels : Int := 12
  channel_mask : Int := 1
  pulse_mode : String := "single"
  burst_count : Int := 1
  double_pulse_delay_ticks : Int := 0
  pulse1_width_ticks : Int := 5
  pulse2_width_ticks : Int := 0
  pulse_bias_percent_270nm : Int := 4000
  pulse_bias_percent_367nm : Int := 0
  module_id : Option Int := none
  partition_number : Option Int := none
  timing_address : Option Int := none
  pdts_sync : Bool := false

/-- A check, with the text of the `ValueError` that it raises. -/
def check (passes : Prop) [Decidable passes] (text : String) : Except String Unit :=
  if passes then pure () else throw text

/-- The check that a field is in `0..upper`. -/
def checkRange (field : String) (value upper : Int) : Except String Unit :=
  check (¬(value < 0 ∨ value > upper)) s!"{field} must be in 0..{upper}, got {value}"

/-- The checks of the fields that `--pdts-sync` needs. -/
def checkSync (cfg : LEDRunConfig) : Except String Unit :=
  if cfg.pdts_sync then
    match cfg.partition_number, cfg.timing_address with
    | none, _ => throw "--partition-number is required with --pdts-sync"
    | some _, none => throw "--timing-address is required with --pdts-sync"
    | some partition_number, some timing_address => do
      checkRange "partition_number" partition_number 3
      checkRange "timing_address" timing_address 0xFF
  else
    pure ()

def validateConfig (cfg : LEDRunConfig) : Except String Unit := do
  check (cfg.number_channels = 5 ∨ cfg.number_channels = 12) s!"number_channels must be 5 or 12, got {cfg.number_channels}"
  checkRange "channel_mask" cfg.channel_mask 4095
  check (cfg.pulse_mode = "single" ∨ cfg.pulse_mode = "burst")
    s!"pulse_mode must be 'single' or 'burst', got {cfg.pulse_mode}"
  checkRange "burst_count" cfg.burst_count 10000
  checkRange "double_pulse_delay_ticks" cfg.double_pulse_delay_ticks 4095
  checkRange "pulse1_width_ticks" cfg.pulse1_width_ticks 255
  checkRange "pulse2_width_ticks" cfg.pulse2_width_ticks 255
  checkRange "pulse_bias_percent_270nm" cfg.pulse_bias_percent_270nm 4095
  checkRange "pulse_bias_percent_367nm" cfg.pulse_bias_percent_367nm 4095
  checkSync cfg

/-- The bit of a channel in the mask. -/
def LEDRunConfig.inMask (cfg : LEDRunConfig) (counter : Nat) : Bool := cfg.channel_mask.testBit counter

section Client
variable {σ : Type} (transaction : Int → Int → List Int → EStateM String σ Reply)

/-- `write_and_log`, less its log. -/
def writeAndLog (address value : Int) (verify : Bool) : EStateM String σ Unit := do
  match ← write transaction address value verify with
  | none => pure ()
  | some readback =>
    if (readback.toNat : Int) ≠ value then
      throw s!"unexpected readback at 0x{hex8 address}: wrote 0x{hex8 value}, got 0x{hex8 readback.toNat}"
    else pure ()

/-- The attempts of `sync_pdts` that are left, and the status before them. -/
def syncAttempts (partition_number timing_address : Int) (pdts_status : UInt32) : Nat → EStateM String σ Unit
  | 0 => throw s!"PDTS sync failed after 5 tries; status=0x{hex8 pdts_status.toNat}"
  | attempts + 1 => do
    let reset_value := 0x80000000 + partition_number + timing_address * 0x10000
    let run_value := partition_number + timing_address * 0x10000
    writeAndLog transaction DP_CLOCK_CONTROL 0x30 true
    writeAndLog transaction PDTS_CONTROL reset_value true
    let _ ← read transaction PDTS_STATUS
    let _ ← read transaction PDTS_CONTROL
    let _ ← read transaction DP_CLOCK_CONTROL
    writeAndLog transaction PDTS_CONTROL run_value true
    let _ ← read transaction PDTS_STATUS
    let _ ← read transaction PDTS_CONTROL
    writeAndLog transaction DP_CLOCK_CONTROL 0x31 true
    let status ← read transaction PDTS_STATUS
    if 0x6 ≤ status &&& 0xF ∧ status &&& 0xF ≤ 0x8 then pure ()
    else syncAttempts partition_number timing_address status attempts

/-- The polls of `sync_pdts` that are left, and the status before them. -/
def awaitRunning (pdts_status : UInt32) : Nat → EStateM String σ Unit
  | 0 => throw s!"PDTS did not reach running state 0x8; last status=0x{hex8 pdts_status.toNat}"
  | polls + 1 => do
    let status ← read transaction PDTS_STATUS
    if status &&& 0xF = 0x8 then pure () else awaitRunning status polls

def syncPdts (partition_number timing_address : Int) : EStateM String σ Unit := do
  let pdts_status ← read transaction PDTS_STATUS
  let pdts_control ← read transaction PDTS_CONTROL
  let dp_clock_control ← read transaction DP_CLOCK_CONTROL
  let present_timing_address := (pdts_control >>> 16) &&& 0xFF
  let present_timing_partition := pdts_control &&& 0x3
  let status_nibble := pdts_status &&& 0xF
  (if 0x6 ≤ status_nibble ∧ status_nibble ≤ 0x8 ∧ (present_timing_address.toNat : Int) = timing_address ∧
      (present_timing_partition.toNat : Int) = partition_number ∧ dp_clock_control &&& 0xF = 0x1 then
    pure ()
  else
    syncAttempts transaction partition_number timing_address pdts_status 5)
  awaitRunning transaction pdts_status 3

def configurePdtsRegisterBlock : EStateM String σ Unit := do
  writeAndLog transaction PDTS_CMD_CONTROL_1 0x000002E7 true
  (List.range 16).forM fun index => writeAndLog transaction (PDTS_CMD_DELAY_0 + index * 4) 0x00030036 true
  writeAndLog transaction PDTS_CMD_CONTROL_2 0x80000000 true
  writeAndLog transaction DP_CLOCK_CONTROL 0x00000011 true

variable (cfg : LEDRunConfig)

/-- `bias_reg_val` of a channel in the mask. -/
def biasRegVal (counter : Nat) : Int :=
  let pulse_bias_setting_270nm := cfg.pulse_bias_percent_270nm
  let pulse_bias_setting_367nm := cfg.pulse_bias_percent_367nm / 2
  0x00040000 + if counter < 6 then pulse_bias_setting_270nm else pulse_bias_setting_367nm

/-- `timing_reg_val` of a channel in the mask. -/
def timingRegVal : Int :=
  (if cfg.pulse_mode = "single" then 0xF0000000 else 0x90000000) + cfg.pulse1_width_ticks +
    cfg.pulse2_width_ticks * 2 ^ 8 + cfg.double_pulse_delay_ticks * 2 ^ 16

def baseBiasAddr : Int := if cfg.number_channels = 5 then 0x4000035C else 0x40000340

def baseTimingAddr : Int := if cfg.number_channels = 5 then 0x800003DC else 0x800003C0

/-- A round of the loop over the channels. -/
def configureChannel (base_bias_addr base_timing_addr : Int) (counter : Nat) : EStateM String σ Unit := do
  let bias_reg_addr := base_bias_addr + 0x4 * counter
  let timing_reg_addr := base_timing_addr + 0x4 * counter
  if cfg.inMask counter then
    writeAndLog transaction bias_reg_addr (biasRegVal cfg counter) true
    (if counter = 7 ∧ ¬cfg.inMask (counter - 1) then
      writeAndLog transaction (bias_reg_addr - 0x4) (biasRegVal cfg counter) true
    else pure ())
    writeAndLog transaction timing_reg_addr (timingRegVal cfg) true
  else
    writeAndLog transaction bias_reg_addr 0x00000000 true
    writeAndLog transaction timing_reg_addr 0x00000000 true

/-- The first step of `configure_run`. -/
def syncRun : EStateM String σ Unit :=
  if cfg.pdts_sync then
    match cfg.partition_number, cfg.timing_address with
    | some partition_number, some timing_address => syncPdts transaction partition_number timing_address
    -- `None` has no such format, and `validate_config` lets no such configuration pass
    | _, _ => throw "unsupported format string passed to NoneType.__format__"
  else
    pure ()

/-- The second step of `configure_run`. -/
def writeModuleId : EStateM String σ Unit :=
  match cfg.module_id with
  | some module_id => writeAndLog transaction MODULE_ID module_id true
  | none => pure ()

def configureRun : EStateM String σ Unit := do
  syncRun transaction cfg
  writeModuleId transaction cfg
  configurePdtsRegisterBlock transaction
  let cal_count := if cfg.pulse_mode = "single" then 1 else cfg.burst_count
  writeAndLog transaction CAL_COUNT cal_count true
  (List.range cfg.number_channels.toNat).forM
    (configureChannel transaction cfg (baseBiasAddr cfg) (baseTimingAddr cfg))
  writeAndLog transaction BIAS_CONTROL 0x00000001 false

def stopRun : EStateM String σ Unit := do
  (List.range 12).forM fun counter => do
    writeAndLog transaction (0x40000340 + 0x4 * counter) 0x00000000 true
    writeAndLog transaction (0x800003C0 + 0x4 * counter) 0x00000000 true
  writeAndLog transaction BIAS_CONTROL 0x00000001 false

end Client

/-! ### The registers -/

/-- A transaction with an SSP, which answers it with a register. -/
def registerTransaction (env : Env Nat UInt32) (address command : Int) (data_words : List Int) : Prog Nat UInt32 Unit Reply :=
  match data_words.mapM packWord, packWord address with
  | .error e, _ => throw e
  | .ok _, .error e => throw e
  | .ok words, .ok rx_addr => do
    if command = CMD_READ then
      let word ← Device.read env rx_addr.toNat
      return ⟨24, rx_addr, 0x01, 1, 0, [word]⟩
    else
      words.forM (Device.write env rx_addr.toNat)
      return ⟨20, rx_addr, 0x03, 1, 0, []⟩

/-! ### What it is for -/

/-- The bias registers and the timing registers of the twelve channels. -/
def biasRegister (i : Nat) : Nat := 0x40000340 + 4 * i
def timingRegister (i : Nat) : Nat := 0x800003C0 + 4 * i

/-- The registers of the channels hold what is written to them. -/
def Latching (env : Env Nat UInt32) : Prop :=
  ∀ i < 12, env.driven (biasRegister i) = none ∧ env.driven (timingRegister i) = none

/-- The fields of a bias register. -/
structure Bias where
  level : Nat
  control : Nat
  deriving DecidableEq

def decodeBias (w : UInt32) : Bias := ⟨w.toNat % 2 ^ 12, w.toNat / 2 ^ 12⟩

/-- The fields of a timing register. -/
structure Timing where
  mode : Nat
  delay : Nat
  width2 : Nat
  width1 : Nat
  deriving DecidableEq

def decodeTiming (w : UInt32) : Timing :=
  ⟨w.toNat / 2 ^ 28, w.toNat / 2 ^ 16 % 2 ^ 12, w.toNat / 2 ^ 8 % 2 ^ 8, w.toNat % 2 ^ 8⟩

/-- The first of the twelve channels that a run addresses. -/
def LEDRunConfig.first (cfg : LEDRunConfig) : Nat := if cfg.number_channels = 5 then 7 else 0

/-- The bias of a channel that a run lights. -/
def LEDRunConfig.bias (cfg : LEDRunConfig) (counter : Nat) : Bias where
  level := if counter < 6 then cfg.pulse_bias_percent_270nm.toNat else cfg.pulse_bias_percent_367nm.toNat / 2
  control := 0x40

/-- The timing of the channels that a run lights. -/
def LEDRunConfig.timing (cfg : LEDRunConfig) : Timing where
  mode := if cfg.pulse_mode = "single" then 0xF else 0x9
  delay := cfg.double_pulse_delay_ticks.toNat
  width2 := cfg.pulse2_width_ticks.toNat
  width1 := cfg.pulse1_width_ticks.toNat

/-- The registers of a channel that a run addresses say what the configuration does. -/
structure Configured (cfg : LEDRunConfig) (cells : Nat → UInt32) (counter : Nat) : Prop where
  timing_on : cfg.inMask counter → decodeTiming (cells (timingRegister (cfg.first + counter))) = cfg.timing
  timing_ne_zero_iff : cells (timingRegister (cfg.first + counter)) ≠ 0 ↔ cfg.inMask counter
  bias_on : cfg.inMask counter → decodeBias (cells (biasRegister (cfg.first + counter))) = cfg.bias counter
  bias_off : ¬cfg.inMask counter → ¬(counter = 6 ∧ cfg.inMask 7) → cells (biasRegister (cfg.first + counter)) = 0
  bias_beside : counter = 6 → ¬cfg.inMask 6 → cfg.inMask 7 →
    cells (biasRegister (cfg.first + 6)) = cells (biasRegister (cfg.first + 7)) ∧
      decodeBias (cells (biasRegister (cfg.first + 6))) = cfg.bias 7

/-- All channels are off. -/
def Dark (cells : Nat → UInt32) : Prop := ∀ i < 12, cells (biasRegister i) = 0 ∧ cells (timingRegister i) = 0

/-- The registers that a run writes besides those of the channels. -/
def settings : List Nat :=
  [ MODULE_ID, PDTS_CMD_CONTROL_1, PDTS_CMD_CONTROL_2, PDTS_CONTROL, DP_CLOCK_CONTROL, CAL_COUNT, BIAS_CONTROL].map Int.toNat ++
    (List.range 16).map fun index => PDTS_CMD_DELAY_0.toNat + index * 4

/-- A register that a run may write. -/
def Written (a : Nat) : Prop := (∃ i < 12, a = biasRegister i ∨ a = timingRegister i) ∨ a ∈ settings

/-- Runs one after the other, each of which may raise, and `stop_run`. -/
def stopAfter (env : Env Nat UInt32) (runs : List LEDRunConfig) : Prog Nat UInt32 Unit Unit := do
  runs.forM fun cfg => do
    let _ ← Device.attempt (configureRun (registerTransaction env) cfg)
    pure ()
  stopRun (registerTransaction env)

end DaphneZmq.SspLedControl
