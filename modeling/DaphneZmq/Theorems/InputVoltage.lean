import DaphneZmq.InputVoltage
import Mathlib.Analysis.Normed.Field.Lemmas
import Mathlib.Tactic.IntervalCases
import Mathlib.Tactic.Linarith

/-! # Where the gain follows its table

Between two entries the code adds the slope times the whole control voltage to the gain of the lower entry, not the slope
times the distance from it. The two agree only in the segment that starts at 0. -/

namespace DaphneZmq.InputVoltage
open Lib.SortedTable Filter Topology

variable {v x x' y y' : ℚ} {k : Nat}

/-- The gain between two neighbouring entries is between theirs, and tends to each of them. -/
structure Follows (v x x' y y' : ℚ) : Prop where
  min_le : min y y' ≤ gain_dB v
  le_max : gain_dB v ≤ max y y'
  lower : Tendsto gain_dB (𝓝[Set.Ioo x x'] x) (𝓝 y)
  upper : Tendsto gain_dB (𝓝[Set.Ioo x x'] x') (𝓝 y')

/-- The gain at a control voltage is that of the table. -/
structure Agrees (v : ℚ) : Prop where
  entry : ∀ k : Nat, VCNTL[k]? = some v → GAIN[k]? = some (gain_dB v)
  below : ∀ x : ℚ, VCNTL.head? = some x → v < x → GAIN.head? = some (gain_dB v)
  above : ∀ x : ℚ, VCNTL.getLast? = some x → x < v → GAIN.getLast? = some (gain_dB v)
  between : ∀ (k : Nat) (x x' y y' : ℚ), VCNTL[k]? = some x → VCNTL[k + 1]? = some x' → GAIN[k]? = some y → GAIN[k + 1]? = some y' →
    x < v → v < x' → Follows v x x' y y'

theorem sorted_VCNTL : VCNTL.Pairwise (· < ·) := by
  rw [VCNTL]
  norm_num

theorem length_VCNTL : VCNTL.length = 16 := rfl

theorem length_GAIN : GAIN.length = 16 := rfl

/-- The entries stand a tenth of a volt apart. -/
theorem getElem?_VCNTL (h : VCNTL[k]? = some x) : x = k / 10 := by
  have hk : k < 16 := (List.getElem?_eq_some_iff.mp h).1
  interval_cases k <;> simp only [VCNTL, List.getElem?_cons_zero, List.getElem?_cons_succ, Option.some.injEq] at h <;>
    subst h <;> norm_num

theorem getElem?_VCNTL_of_lt (hk : k < 16) : VCNTL[k]? = some ((k : ℚ) / 10) := by
  have hsome : VCNTL[k]? = some VCNTL[k] := List.getElem?_eq_getElem hk
  rw [hsome, getElem?_VCNTL hsome]

theorem exists_of_mem (h : v ∈ VCNTL) : ∃ k : Nat, k < 16 ∧ v = (k : ℚ) / 10 := by
  obtain ⟨k, hk⟩ := List.mem_iff_getElem?.mp h
  exact ⟨k, (List.getElem?_eq_some_iff.mp hk).1, getElem?_VCNTL hk⟩

theorem not_mem_of_between (hx : VCNTL[k]? = some x) (hx' : VCNTL[k + 1]? = some x') (hlt : x < v) (hlt' : v < x') :
    v ∉ VCNTL := by
  intro hmem
  obtain ⟨j, -, rfl⟩ := exists_of_mem hmem
  rw [getElem?_VCNTL hx] at hlt
  rw [getElem?_VCNTL hx'] at hlt'
  have hkj : (k : ℚ) < j := by linarith
  have hjk : (j : ℚ) < (k + 1 : Nat) := by linarith
  rw [Nat.cast_lt] at hkj hjk
  omega

/-- A control voltage in the table is an entry or has neighbours. -/
theorem exists_between (hpos : 0 ≤ v) (hle : v ≤ 3 / 2) (hnot : v ∉ VCNTL) : ∃ k x x' y y', VCNTL[k]? = some x ∧
    VCNTL[k + 1]? = some x' ∧ GAIN[k]? = some y ∧ GAIN[k + 1]? = some y' ∧ x < v ∧ v < x' := by
  have hne : ∀ j : Nat, j < 16 → v ≠ j / 10 := fun j hj h => hnot (List.mem_of_getElem? (h ▸ getElem?_VCNTL_of_lt hj))
  have hfloor : (⌊10 * v⌋₊ : ℚ) ≤ 10 * v := Nat.floor_le (by linarith)
  have hceil := Nat.lt_floor_add_one (10 * v)
  have hlt : v < 15 / 10 := lt_of_le_of_ne (by linarith) (by exact_mod_cast hne 15 (by decide))
  have hk : ⌊10 * v⌋₊ < 15 := (Nat.floor_lt (by linarith)).mpr (by push_cast; linarith)
  have hk' : ⌊10 * v⌋₊ + 1 < GAIN.length := by
    rw [length_GAIN]
    omega
  refine ⟨⌊10 * v⌋₊, _, _, _, _, getElem?_VCNTL_of_lt (by omega), getElem?_VCNTL_of_lt hk',
    List.getElem?_eq_getElem (Nat.lt_of_succ_lt hk'), List.getElem?_eq_getElem hk', ?_, ?_⟩
  · exact lt_of_le_of_ne (by linarith) (hne _ (by omega)).symm
  · push_cast
    linarith

/-! ### The branches -/

theorem entryAt_nat {lut : List ℚ} (h : lut[k]? = some x) : entryAt lut k = x := by
  rw [entryAt, Int.toNat_natCast, List.getD_eq_getElem?_getD, h, Option.getD_some]

theorem gain_dB_entry (h : VCNTL[k]? = some v) : GAIN[k]? = some (gain_dB v) := by
  have hk : k < GAIN.length := (List.getElem?_eq_some_iff.mp h).1
  rw [gain_dB, find_of_getElem? sorted_VCNTL h, if_pos (by omega), entryAt_nat (List.getElem?_eq_getElem hk)]
  exact List.getElem?_eq_getElem hk

theorem gain_dB_below (h : v < 0) : GAIN.head? = some (gain_dB v) := by
  have hnot : v ∉ VCNTL := by
    intro hmem
    obtain ⟨k, -, rfl⟩ := exists_of_mem hmem
    exact absurd h (not_lt.mpr (by positivity))
  rw [gain_dB, find_of_not_mem hnot, lowerBound_below (show VCNTL[0]? = some 0 from rfl) h]
  rfl

theorem gain_dB_above (h : 3 / 2 < v) : GAIN.getLast? = some (gain_dB v) := by
  have hall : ∀ x ∈ VCNTL, x < v := by
    intro x hx
    obtain ⟨k, hk, rfl⟩ := exists_of_mem hx
    have hle : (k : ℚ) ≤ 15 := by exact_mod_cast Nat.le_of_lt_succ hk
    linarith
  have hnot : v ∉ VCNTL := fun hmem => lt_irrefl v (hall v hmem)
  rw [gain_dB, find_of_not_mem hnot, lowerBound_above hall]
  rfl

theorem gain_dB_between (hx : VCNTL[k]? = some x) (hx' : VCNTL[k + 1]? = some x') (hy : GAIN[k]? = some y)
    (hy' : GAIN[k + 1]? = some y') (hlt : x < v) (hlt' : v < x') : gain_dB v = (y' - y) / (x' - x) * v + y := by
  have hk : k + 1 < 16 := (List.getElem?_eq_some_iff.mp hx').1
  have hnot := not_mem_of_between hx hx' hlt hlt'
  have hprev : ((k + 1 : Nat) : Int) - 1 = k := by omega
  have hpos : ((k + 1 : Nat) : Int) > 0 := by omega
  have hnext : ((k + 1 : Nat) : Int) < VCNTL.length := by
    rw [length_VCNTL]
    omega
  rw [gain_dB, find_of_not_mem hnot, lowerBound_between sorted_VCNTL hx hlt hx' hlt'.le]
  simp only [ne_eq, not_true_eq_false, if_false, hprev, if_pos hpos, if_pos hnext]
  rw [if_neg (by omega), if_neg (by omega), entryAt_nat hx, entryAt_nat hx', entryAt_nat hy, entryAt_nat hy']

/-! ### The segments -/

theorem ne_of_getElem?_GAIN (hy : GAIN[k]? = some y) (hy' : GAIN[k + 1]? = some y') : y ≠ y' := by
  have hnodup : GAIN.Nodup := by
    rw [GAIN]
    norm_num
  obtain ⟨hk, rfl⟩ := List.getElem?_eq_some_iff.mp hy
  obtain ⟨hk', rfl⟩ := List.getElem?_eq_some_iff.mp hy'
  exact fun h => absurd ((hnodup.getElem_inj_iff).mp h) (by omega)

/-- Above the first segment the slope is multiplied by more than the width of a segment. -/
theorem not_follows (hx : VCNTL[k]? = some x) (hx' : VCNTL[k + 1]? = some x') (hy : GAIN[k]? = some y)
    (hy' : GAIN[k + 1]? = some y') (hlt : x < v) (hlt' : v < x') (hv : 1 / 10 < v) : ¬Follows v x x' y y' := by
  intro hfollows
  have hwidth : x' - x = 1 / 10 := by
    rw [getElem?_VCNTL hx, getElem?_VCNTL hx']
    push_cast
    ring
  have hgain : gain_dB v = y + (y' - y) * (10 * v) := by
    rw [gain_dB_between hx hx' hy hy' hlt hlt', hwidth]
    ring
  have hmin := hfollows.min_le
  have hmax := hfollows.le_max
  rw [hgain] at hmin hmax
  rcases lt_or_gt_of_ne (ne_of_getElem?_GAIN hy hy') with h | h
  · rw [max_eq_right h.le] at hmax
    nlinarith
  · rw [min_eq_right h.le] at hmin
    nlinarith

/-- In the segment that starts at 0 the gain is on the line through the entries. -/
theorem follows_of_zero (hx : VCNTL[0]? = some x) (hx' : VCNTL[1]? = some x') (hy : GAIN[0]? = some y) (hy' : GAIN[1]? = some y')
    (hlt : x < v) (hlt' : v < x') : Follows v x x' y y' := by
  obtain rfl : x = 0 := by simpa using getElem?_VCNTL hx
  have hline : ∀ u ∈ Set.Ioo 0 x', gain_dB u = (y' - y) / x' * u + y := fun u hu => by
    rw [gain_dB_between hx hx' hy hy' hu.1 hu.2, sub_zero]
  have hcontinuous : Continuous fun u : ℚ => (y' - y) / x' * u + y := by fun_prop
  have htends : ∀ u, Tendsto gain_dB (𝓝[Set.Ioo 0 x'] u) (𝓝 ((y' - y) / x' * u + y)) := fun u =>
    tendsto_nhdsWithin_congr (fun w hw => (hline w hw).symm) ((hcontinuous.tendsto u).mono_left nhdsWithin_le_nhds)
  have hx'0 : 0 < x' := hlt.trans hlt'
  have hgain : gain_dB v = (1 - v / x') * y + v / x' * y' := by
    rw [hline v ⟨hlt, hlt'⟩]
    ring
  have hshare : 0 ≤ v / x' := (div_pos hlt hx'0).le
  have hshare' : v / x' ≤ 1 := (div_le_one hx'0).mpr hlt'.le
  exact {
    min_le := by
      rw [hgain]
      nlinarith [min_le_left y y', min_le_right y y']
    le_max := by
      rw [hgain]
      nlinarith [le_max_left y y', le_max_right y y']
    lower := by simpa using htends 0
    upper := by simpa [div_mul_cancel₀ _ hx'0.ne'] using htends x' }

theorem agrees_of_between (h : ∀ (k : Nat) (x x' y y' : ℚ), VCNTL[k]? = some x → VCNTL[k + 1]? = some x' → GAIN[k]? = some y →
    GAIN[k + 1]? = some y' → x < v → v < x' → Follows v x x' y y') : Agrees v where
  entry _ := gain_dB_entry
  below _ hx hlt := gain_dB_below (Option.some.inj hx ▸ hlt)
  above _ hx hlt := gain_dB_above (by
    obtain rfl := Option.some.inj hx
    norm_num at hlt
    exact hlt)
  between := h

/-- The gain is that of the table up to 0.1 V, at the entries, and above 1.5 V. -/
theorem agrees_iff (v : ℚ) : Agrees v ↔ v ≤ 1 / 10 ∨ v ∈ VCNTL ∨ 3 / 2 < v := by
  constructor
  · intro hagrees
    by_contra! hneither
    obtain ⟨hlow, hnot, hhigh⟩ := hneither
    obtain ⟨k, x, x', y, y', hx, hx', hy, hy', hlt, hlt'⟩ := exists_between (by linarith) hhigh hnot
    exact not_follows hx hx' hy hy' hlt hlt' hlow (hagrees.between k x x' y y' hx hx' hy hy' hlt hlt')
  · intro hwhen
    refine agrees_of_between fun k x x' y y' hx hx' hy hy' hlt hlt' => ?_
    rcases hwhen with hlow | hmem | hhigh
    · have hk : (k : ℚ) < (1 : Nat) := by
        rw [getElem?_VCNTL hx] at hlt
        push_cast
        linarith
      obtain rfl : k = 0 := Nat.lt_one_iff.mp (Nat.cast_lt.mp hk)
      exact follows_of_zero hx hx' hy hy' hlt hlt'
    · exact absurd hmem (not_mem_of_between hx hx' hlt hlt')
    · have hk : ((k + 1 : Nat) : ℚ) ≤ (15 : Nat) := Nat.cast_le.mpr (Nat.le_of_lt_succ (List.getElem?_eq_some_iff.mp hx').1)
      rw [getElem?_VCNTL hx'] at hlt'
      push_cast at hk hlt'
      linarith

/-- The setting 399 makes the control voltage 0.15 V, halfway between two entries. -/
theorem halfway_not_agrees : ¬∀ v, Agrees v := by
  intro h
  have hv : vCntl 399 = 3 / 20 := by
    rw [vCntl]
    norm_num
  refine not_follows (k := 1) rfl rfl rfl rfl ?_ ?_ ?_ ((h (vCntl 399)).between 1 _ _ _ _ rfl rfl rfl rfl ?_ ?_) <;>
    rw [hv] <;> norm_num

end DaphneZmq.InputVoltage
