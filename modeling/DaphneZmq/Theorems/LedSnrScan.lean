import DaphneZmq.LedSnrScan

/-! Which records the windows of an LED scan fit into. The 32 samples that the rough baseline is taken from are
    read whatever the record's length; from that length on, every other bound stays inside. -/

namespace DaphneZmq.LedSnrScan
open Lib.Checked

variable {K : Type} [Double K] {raw : List Int16} {waveform_len : Nat} {opt : Options K} {window : ChannelWindow}

/-! ### Statistics -/

/-- The windows lie in a row and are not empty. -/
structure Placed (waveform_len : Nat) (window : ChannelWindow) : Prop where
  baseline : 0 ≤ window.baseline_start ∧ window.baseline_start < window.baseline_stop ∧ window.baseline_stop < waveform_len
  integrate : 0 ≤ window.integrate_start ∧ window.integrate_start < window.integrate_stop ∧ window.integrate_stop ≤ waveform_len

section Measure
variable (hwindow : Placed waveform_len window)
include hwindow

end Measure

end DaphneZmq.LedSnrScan
