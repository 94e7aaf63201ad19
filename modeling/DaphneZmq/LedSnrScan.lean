import DaphneZmq.Lib.Checked
import Mathlib.Tactic.Ring

/-! # Windows and charges of an LED scan (analyze_led_snr_scan.cpp)

`derive_window_from_mean` and `measure_charge_stats`, whose reads of the vectors are checked here. They are written
over any type with the operations of `double`: no index depends on how these round. -/

namespace DaphneZmq.LedSnrScan
open Lib.Checked

/-- The operations on `double`. -/
class Double (K : Type) extends Add K, Sub K, Mul K, Div K, OfScientific K where
  lt : K → K → Bool
  le : K → K → Bool
  /-- `static_cast<double>` -/
  ofInt : Int → K
  sqrt : K → K
  fabs : K → K
  /-- `-std::numeric_limits<double>::infinity()` -/
  negInfinity : K

instance : Double Float where
  lt a b := a < b
  le a b := a ≤ b
  ofInt := Float.ofInt
  sqrt := Float.sqrt
  fabs := Float.abs
  negInfinity := -1.0 / 0.0

/-- The options that the two functions use. -/
structure Options (K : Type) where
  search_start : Int := 96
  search_stop : Int := 220
  baseline_margin : Int := 12
  baseline_len : Int := 100
  pre_samples : Int := 4
  post_samples : Int := 12
  max_integration_len : Int := 40
  threshold_frac : K
  pre_pulse_reject_sigma : K
  peak_window_pre : Int := -1
  peak_window_post : Int := -1
  post_peak_offset : Int := 8
  pre_activity_frac : K
  pre_activity_floor : K
  post_activity_frac : K
  post_activity_floor : K

structure ChannelWindow where
  channel : Int
  reference_intensity : Int
  baseline_start : Int
  baseline_stop : Int
  onset_index : Int
  peak_index : Int
  integrate_start : Int
  integrate_stop : Int

section
variable {K : Type} [Double K]
open Double (lt le ofInt sqrt fabs negInfinity)

/-- The defaults. -/
def Options.default : Options K where
  threshold_frac := 0.10
  pre_pulse_reject_sigma := 5.0
  pre_activity_frac := ofInt (-1)
  pre_activity_floor := ofInt (-1)
  post_activity_frac := ofInt (-1)
  post_activity_floor := ofInt (-1)

/-! ### The standard library -/

/-- `std::clamp` -/
def clamp (v lo hi : Int) : Int := if v < lo then lo else if hi < v then hi else v

def sum (values : List K) : K := values.foldl (· + ·) (ofInt 0)

/-- `row[j]`, for the row of waveform `i`. -/
def readRow (raw : List Int16) (waveform_len : Nat) (i : Nat) (j : Int) : Prog K :=
  if 0 ≤ j ∧ j < waveform_len then do
    let sample ← read raw (i * waveform_len + j)
    return ofInt sample.toInt
  else
    throw .outOfRange

variable (raw : List Int16) (waveform_len : Nat) (opt : Options K)

variable (window : ChannelWindow)

/-- The samples of a row from `start` to `stop`, less the baseline. -/
def above (i : Nat) (baseline : K) (start stop : Int) : Prog (List K) :=
  (indices start stop).mapM fun j => do return (← readRow raw waveform_len i j) - baseline

end
end DaphneZmq.LedSnrScan
