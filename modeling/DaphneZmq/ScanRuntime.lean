import DaphneZmq.Lib.Commands
import DaphneZmq.PdsConfigureUtils
import Mathlib.Logic.Function.Basic

/-! # The tools of the LED scans (client/dynamic_range_led/scan_runtime.py)

A scan runs other programs, sends configure requests and writes files. Each of these may fail: a program by its return code, and
any of them by an exception. -/

namespace DaphneZmq.ScanRuntime
open Lib.Commands

def inclusiveRange (start stop step : Int) : Except String (List Int) :=
  if step ≤ 0 then throw "step must be > 0"
  else
    let values := (List.range ((stop - start) / step + 1).toNat).map fun i : Nat => start + step * (i : Int)
    return if values.getLast? = some stop then values else values ++ [stop]

structure LedBiases where
  pulse_bias_percent_270nm : Int
  pulse_bias_percent_367nm : Int

def resolveLedBiases (scan_wavelength : String) (intensity fixed_bias_270nm fixed_bias_367nm : Int) : LedBiases where
  pulse_bias_percent_270nm := if scan_wavelength = "270" then intensity else fixed_bias_270nm
  pulse_bias_percent_367nm := if scan_wavelength = "367" then intensity else fixed_bias_367nm

/-- The programs, with the arguments that change in the course of a scan. -/
inductive Subprocess where
  | led (biases : LedBiases)
  | ledStop
  | feStateReadback
  | biasMonitor (afe : Int)
  | acquire (raw_dir : String) (channels : List Int) (waveforms : Int)

/-- What is written to a file. -/
inductive Content where
  | text
  | metadata (status : String)

/-- What the summary of a configure request has under `success` and under the `success` of `configure_response`. -/
structure Summary where
  success : Option Bool
  configure_response : Option Bool

inductive Command where
  | run (program : Subprocess)
  | configure (cfg : PdsConfigureUtils.ConfigureRequest)
  | mkdir (path : String)
  | writeText (path : String) (content : Content)

/-- What a command answers: the return code of a program. -/
def Command.Res : Command → Type
  | run _ => Int
  | configure _ => Summary
  | mkdir _ => Unit
  | writeText _ _ => Unit

abbrev ScanEnv := Env Command.Res
abbrev ScanProg (α : Type) := Prog Command.Res α

section
variable (env : ScanEnv) (dry_run : Bool)

def run (program : Subprocess) : ScanProg Int := issue env (.run program)

def configure (cfg : PdsConfigureUtils.ConfigureRequest) : ScanProg Summary := issue env (.configure cfg)

def mkdir (path : String) : ScanProg Unit := issue env (.mkdir path)

def writeText (path : String) : ScanProg Unit := issue env (.writeText path .text)

def writeMetadata (point_dir status : String) : ScanProg Unit := issue env (.writeText (point_dir ++ "/metadata.json") (.metadata status))

/-- `run_cmd`: a dry run only writes the command down. -/
def runCmd (program : Subprocess) (log_path : String) : ScanProg Int :=
  if dry_run then do
    writeText env log_path
    return 0
  else do
    let returncode ← run env program
    writeText env log_path
    return returncode

def runLed (biases : LedBiases) (log_path : String) : ScanProg Int := runCmd env dry_run (.led biases) log_path

def runLedStop (log_path : String) : ScanProg Int := runCmd env dry_run .ledStop log_path

def runFeStateReadback (log_path : String) : ScanProg Int := runCmd env dry_run .feStateReadback log_path

/-- `run_bias_monitor` for one AFE after another. -/
def runBiasMonitors (dir : String) (afes : List Int) : ScanProg Unit :=
  afes.forM fun afe => do
    let _ ← runCmd env dry_run (.biasMonitor afe) s!"{dir}/bias_monitor_afe{afe}.log"

def runAcquire (raw_dir : String) (channels : List Int) (waveforms : Int) (log_path : String) : ScanProg Int :=
  runCmd env dry_run (.acquire raw_dir channels waveforms) log_path

end

/-! ### What it is for -/

/-- What is known of the LED: a program that fails leaves it unsure. -/
inductive Led where
  | dark
  | lit (biases : LedBiases)
  | unsure

/-- What data have been taken under; a configure request that fails leaves the front end unknown. -/
structure Conditions where
  led : Led
  frontEnd : Option PdsConfigureUtils.ConfigureRequest

structure Bench extends Conditions where
  /-- The conditions of the data in a directory, if an acquisition has filled it. -/
  taken : String → Option Conditions
  /-- The status in a metadata file. -/
  status : String → Option String

def Summary.ok (summary : Summary) : Bool := summary.success.getD false || summary.configure_response.getD false

/-- The program has returned 0. -/
def succeeded : Except String Int → Bool
  | .ok returncode => decide (returncode = 0)
  | .error _ => false

def Bench.step (b : Bench) (event : Event Command.Res) : Bench :=
  match event with
  | ⟨.run (.led biases), answer⟩ => { b with led := if succeeded answer then .lit biases else .unsure }
  | ⟨.run .ledStop, answer⟩ => { b with led := if succeeded answer then .dark else .unsure }
  | ⟨.run (.acquire raw_dir _ _), answer⟩ =>
    { b with taken := Function.update b.taken raw_dir (if succeeded answer then some b.toConditions else none) }
  | ⟨.run .feStateReadback, _⟩ => b
  | ⟨.run (.biasMonitor _), _⟩ => b
  | ⟨.configure cfg, .ok summary⟩ => { b with frontEnd := if Summary.ok summary then some cfg else none }
  | ⟨.configure _, .error _⟩ => { b with frontEnd := none }
  | ⟨.mkdir _, _⟩ => b
  | ⟨.writeText _ .text, _⟩ => b
  | ⟨.writeText path (.metadata status), .ok _⟩ => { b with status := Function.update b.status path (some status) }
  | ⟨.writeText path (.metadata _), .error _⟩ => { b with status := Function.update b.status path none }

end DaphneZmq.ScanRuntime
