import DaphneZmq.Lib.SortedTable
import Mathlib.Algebra.Order.Ring.Rat
import Mathlib.Algebra.Field.Rat
import Mathlib.Tactic.Ring

/-! # Input voltages (Daphne.cpp, Daphne.hpp)

The gain of an AFE is looked up in a table of control voltages, and interpolated between its entries. The numbers are
exact. -/

namespace DaphneZmq.InputVoltage
open Lib.SortedTable

/-- `AFE_GAIN_LUT["VCNTL"]`. -/
def VCNTL : List ℚ := [0, 0.1, 0.2, 0.3, 0.4, 0.5, 0.6, 0.7, 0.8, 0.9, 1.0, 1.1, 1.2, 1.3, 1.4, 1.5]

/-- `AFE_GAIN_LUT["GAIN"]`. -/
def GAIN : List ℚ :=
  [36.45, 33.91, 30.78, 27.39, 23.74, 20.69, 17.11, 13.54, 10.27, 6.48, 3.16, -0.35, -2.48, -3.58, -4.01, -4]

/-- An entry at an index that is in the table. -/
def entryAt (lut : List ℚ) (idx : Int) : ℚ := lut.getD idx.toNat 0

/-- The control voltage of a gain setting. -/
def vCntl (vGain_mV : ℚ) : ℚ := vGain_mV / 1000 * 1.5 / (1.5 + 2.49)

/-- The gain in decibels. -/
def gain_dB (vCntl : ℚ) : ℚ :=
  let idx := find VCNTL vCntl
  if idx ≠ -1 then entryAt GAIN idx
  else
    let idx : Int := lowerBound VCNTL vCntl
    let idxPrev := if idx > 0 then idx - 1 else -1
    let idxNext := if idx < VCNTL.length then idx else -1
    if idxPrev = -1 then entryAt GAIN 0
    else if idxNext = -1 then entryAt GAIN (GAIN.length - 1)
    else (entryAt GAIN idxNext - entryAt GAIN idxPrev) / (entryAt VCNTL idxNext - entryAt VCNTL idxPrev) * vCntl + entryAt GAIN idxPrev

/-- `calcInputVoltage`; `pow` has the powers of ten. -/
def calcInputVoltage (pow : ℚ → ℚ) (value vGain_mV : ℚ) : ℚ := value / pow (gain_dB (vCntl vGain_mV) / 20)

end DaphneZmq.InputVoltage
