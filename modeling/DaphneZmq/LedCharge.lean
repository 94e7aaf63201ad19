import Mathlib.Algebra.Order.Field.Rat
import Mathlib.Data.List.MinMax

/-! # Charge windows (client/led_charge.py)

The windows of the LED pulse that `calibrate_window_from_mean` finds in a mean waveform, the ones that
`reanchor_charge_window` moves, and the pedestal window of each. Samples are rationals. -/

namespace DaphneZmq.LedCharge

structure ChargeWindow where
  channel : Int
  baseline_start : Int
  baseline_stop : Int
  search_start : Int
  search_stop : Int
  onset_index : Int
  peak_index : Int
  integrate_start : Int
  integrate_stop : Int
  deriving DecidableEq

/-! ### Arrays -/

/-- `xs[lo:hi]`, within the array. -/
def slice (xs : List ℚ) (lo hi : Int) : List ℚ := (xs.drop lo.toNat).take (hi - lo).toNat

def mean (xs : List ℚ) : ℚ := xs.sum / xs.length

/-- `np.argmax`: the first index of the greatest value. -/
def argmax (xs : List ℚ) : Nat := ((List.range xs.length).argmax fun i => xs.getD i 0).getD 0

/-- The indices that `np.flatnonzero(xs >= threshold)` gives. -/
def indicesFrom (xs : List ℚ) (threshold : ℚ) : List Nat := (List.range xs.length).filter fun i => threshold ≤ xs.getD i 0

/-- `np.diff(xs, prepend=xs[0])` -/
def diff (xs : List ℚ) : List ℚ := (List.range xs.length).map fun i => xs.getD i 0 - xs.getD (i - 1) 0

/-! ### Windows -/

def normalizeBounds (n_samples : Int) (start stop : Option Int) : Int × Int :=
  let lo := start.elim 0 fun start => max 0 (min n_samples start)
  let hi := stop.elim n_samples fun stop => max 0 (min n_samples stop)
  if hi < lo then (hi, lo) else (lo, hi)

/-- The arguments of `calibrate_window_from_mean`, besides the mean waveform. -/
structure Calibration where
  channel : Int
  baseline_start : Int
  baseline_stop : Int
  search_start : Int
  search_stop : Int
  onset_fraction : ℚ
  integrate_offset : Int
  integrate_len : Int

section Calibrate
variable (mean_wf : List ℚ) (cfg : Calibration)

def Calibration.baselineBounds : Int × Int := normalizeBounds mean_wf.length cfg.baseline_start cfg.baseline_stop

def Calibration.searchBounds : Int × Int := normalizeBounds mean_wf.length cfg.search_start cfg.search_stop

def Calibration.baseline : ℚ := mean (slice mean_wf (cfg.baselineBounds mean_wf).1 (cfg.baselineBounds mean_wf).2)

/-- `signal`: the search window above the baseline. -/
def Calibration.signal : List ℚ :=
  (slice mean_wf (cfg.searchBounds mean_wf).1 (cfg.searchBounds mean_wf).2).map (· - cfg.baseline mean_wf)

/-- `frac` -/
def Calibration.frac : ℚ := min (max cfg.onset_fraction (1 / 100)) (95 / 100)

/-- `onset_index`, from the start of the search window. -/
def onsetRel (signal : List ℚ) (threshold : ℚ) : Nat :=
  match indicesFrom signal threshold with
  | first :: _ => first
  | [] => argmax (diff signal)

def calibrateWindowFromMean : Except String ChargeWindow :=
  let n_samples : Int := mean_wf.length
  let (b_lo, b_hi) := cfg.baselineBounds mean_wf
  let (s_lo, s_hi) := cfg.searchBounds mean_wf
  if b_hi ≤ b_lo then
    throw s!"Invalid baseline window [{cfg.baseline_start}, {cfg.baseline_stop})"
  else if s_hi ≤ s_lo then
    throw s!"Invalid search window [{cfg.search_start}, {cfg.search_stop})"
  else if cfg.integrate_len ≤ 0 then
    throw "integrate_len must be > 0"
  else
    let signal := cfg.signal mean_wf
    let peak_rel := argmax signal
    let amplitude := signal.getD peak_rel 0
    if amplitude ≤ 0 then
      throw s!"Channel {cfg.channel}: no positive LED signal found in calibration window"
    else
      let threshold := amplitude * cfg.frac
      let onset_index := s_lo + onsetRel signal threshold
      let integrate_start := max 0 (min n_samples (onset_index + cfg.integrate_offset))
      let integrate_stop := max (integrate_start + 1) (min n_samples (integrate_start + cfg.integrate_len))
      return {
        channel := cfg.channel
        baseline_start := b_lo
        baseline_stop := b_hi
        search_start := s_lo
        search_stop := s_hi
        onset_index
        peak_index := s_lo + peak_rel
        integrate_start
        integrate_stop }

end Calibrate

/-- The index that an anchor names, after `str(anchor).strip().lower()`. -/
def anchorIndex (w : ChargeWindow) (anchor : String) : Except String Int :=
  let anchor_mode := anchor.trimAscii.toString.toLower
  if anchor_mode = "peak" then return w.peak_index
  else if anchor_mode = "onset" then return w.onset_index
  else throw s!"Unsupported charge window anchor: {anchor}"

def reanchorChargeWindow (w : ChargeWindow) (n_samples : Int) (anchor : String) (pre_samples post_samples : Int) :
    Except String ChargeWindow := do
  let pre := max 0 pre_samples
  let post := max 1 post_samples
  let anchor_index ← anchorIndex w anchor
  let start := max 0 (min n_samples (anchor_index - pre))
  let stop := max (start + 1) (min n_samples (anchor_index + post))
  return { w with integrate_start := start, integrate_stop := stop }

def pedestalWindowForCharge (w : ChargeWindow) (n_samples : Int) (window_len : Option Int) : Except String (Int × Int) :=
  let use_len := window_len.getD (w.integrate_stop - w.integrate_start)
  if use_len ≤ 0 then
    throw "window_len must be > 0"
  else
    let ped_start := max w.baseline_start (w.baseline_stop - use_len)
    let ped_stop := min n_samples (ped_start + use_len)
    if ped_stop ≤ ped_start then throw s!"Invalid pedestal window for channel {w.channel}"
    else return (ped_start, ped_stop)

/-! ### What it is for -/

/-- The windows lie in a record of `n` samples and are not empty; the onset does not come after the peak. -/
structure InRecord (n : Int) (w : ChargeWindow) : Prop where
  baseline : 0 ≤ w.baseline_start ∧ w.baseline_start < w.baseline_stop ∧ w.baseline_stop ≤ n
  search : 0 ≤ w.search_start ∧ w.search_start ≤ w.onset_index ∧ w.onset_index ≤ w.peak_index ∧
    w.peak_index < w.search_stop ∧ w.search_stop ≤ n
  integrate : 0 ≤ w.integrate_start ∧ w.integrate_start < w.integrate_stop ∧ w.integrate_stop ≤ n

/-- A sample of the search window that is `integrate_offset` before the end of the record comes up to the onset fraction of
    every other. -/
def Calibration.EarlyOnset (mean_wf : List ℚ) (cfg : Calibration) : Prop :=
  let height := fun i : Int => mean_wf.getD i.toNat 0 - cfg.baseline mean_wf
  ∃ i, (cfg.searchBounds mean_wf).1 ≤ i ∧ i < (cfg.searchBounds mean_wf).2 ∧ i + cfg.integrate_offset < mean_wf.length ∧
    ∀ j, (cfg.searchBounds mean_wf).1 ≤ j → j < (cfg.searchBounds mean_wf).2 → cfg.frac * height j ≤ height i

/-- The windows that the client can come by for records of `n` samples. -/
inductive Producible (n : Nat) : ChargeWindow → Prop
  | calibrate {mean_wf : List ℚ} {cfg : Calibration} {w : ChargeWindow} (hn : mean_wf.length = n)
      (h : calibrateWindowFromMean mean_wf cfg = .ok w) : Producible n w
  | reanchor {w w' : ChargeWindow} {anchor : String} {pre_samples post_samples : Int} (hw : Producible n w)
      (h : reanchorChargeWindow w n anchor pre_samples post_samples = .ok w') : Producible n w'

/-- The pedestal window lies in the baseline window, is not empty, and is as long as the charge window if the
    baseline window is long enough. -/
def PedestalInBaseline (n : Int) (w : ChargeWindow) : Prop :=
  ∃ start stop, pedestalWindowForCharge w n none = .ok (start, stop) ∧ start < stop ∧
    w.baseline_start ≤ start ∧ stop ≤ w.baseline_stop ∧
    (w.integrate_stop - w.integrate_start ≤ w.baseline_stop - w.baseline_start →
      stop - start = w.integrate_stop - w.integrate_start)

end DaphneZmq.LedCharge
