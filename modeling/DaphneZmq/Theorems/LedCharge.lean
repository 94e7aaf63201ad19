import DaphneZmq.LedCharge
import Mathlib.Tactic.NormNum

/-! Which charge windows lie in the record, and which pedestal windows in the baseline window. -/

namespace DaphneZmq.LedCharge

variable {mean_wf : List ℚ} {cfg : Calibration} {w w' : ChargeWindow}

/-! ### Arrays -/

theorem argmax_lt {xs : List ℚ} (h : 0 < xs.length) : argmax xs < xs.length := by
  unfold argmax
  cases hmax : (List.range xs.length).argmax fun i => xs.getD i 0 with
  | none =>
    rw [List.argmax_eq_none, List.range_eq_nil] at hmax
    omega
  | some m => exact List.mem_range.mp (List.argmax_mem hmax)

theorem getD_le_argmax {xs : List ℚ} {i : Nat} (h : i < xs.length) : xs.getD i 0 ≤ xs.getD (argmax xs) 0 := by
  unfold argmax
  cases hmax : (List.range xs.length).argmax fun i => xs.getD i 0 with
  | none =>
    rw [List.argmax_eq_none, List.range_eq_nil] at hmax
    omega
  | some m => exact List.le_of_mem_argmax (List.mem_range.mpr h) hmax

theorem mem_indicesFrom {xs : List ℚ} {threshold : ℚ} {i : Nat} :
    i ∈ indicesFrom xs threshold ↔ i < xs.length ∧ threshold ≤ xs.getD i 0 := by
  simp only [indicesFrom, List.mem_filter, List.mem_range, decide_eq_true_eq]

/-- The first of the indices is the least. -/
structure IsOnset (xs : List ℚ) (threshold : ℚ) (first : Nat) : Prop where
  lt : first < xs.length
  reached : threshold ≤ xs.getD first 0
  least : ∀ i < xs.length, threshold ≤ xs.getD i 0 → first ≤ i

theorem isOnset_onsetRel {xs : List ℚ} {threshold : ℚ} {i : Nat} (hi : i < xs.length) (h : threshold ≤ xs.getD i 0) :
    IsOnset xs threshold (onsetRel xs threshold) := by
  have hmem := mem_indicesFrom.mpr ⟨hi, h⟩
  unfold onsetRel
  cases hindices : indicesFrom xs threshold with
  | nil =>
    rw [hindices] at hmem
    cases hmem
  | cons first rest =>
    have hsorted : (indicesFrom xs threshold).Pairwise (· < ·) := List.pairwise_lt_range.filter _
    rw [hindices, List.pairwise_cons] at hsorted
    have hfirst : first ∈ indicesFrom xs threshold := by
      rw [hindices]
      exact List.mem_cons_self ..
    obtain ⟨hlt, hreached⟩ := mem_indicesFrom.mp hfirst
    refine ⟨hlt, hreached, fun j hj hthreshold => ?_⟩
    have := mem_indicesFrom.mpr ⟨hj, hthreshold⟩
    rw [hindices] at this
    rcases List.mem_cons.mp this with rfl | hrest
    · exact Nat.le_refl j
    · exact (hsorted.1 j hrest).le

/-! ### Bounds -/

theorem normalizeBounds_spec {n : Int} (hn : 0 ≤ n) (start stop : Option Int) :
    0 ≤ (normalizeBounds n start stop).1 ∧ (normalizeBounds n start stop).1 ≤ (normalizeBounds n start stop).2 ∧
      (normalizeBounds n start stop).2 ≤ n := by
  have hlo : 0 ≤ start.elim 0 (fun start => max 0 (min n start)) ∧ start.elim 0 (fun start => max 0 (min n start)) ≤ n := by
    cases start <;> simp only [Option.elim] <;> omega
  have hhi : 0 ≤ stop.elim n (fun stop => max 0 (min n stop)) ∧ stop.elim n (fun stop => max 0 (min n stop)) ≤ n := by
    cases stop <;> simp only [Option.elim] <;> omega
  unfold normalizeBounds
  dsimp only
  by_cases hswap : stop.elim n (fun stop => max 0 (min n stop)) < start.elim 0 fun start => max 0 (min n start)
  · rw [if_pos hswap]
    exact ⟨hhi.1, hswap.le, hlo.2⟩
  · rw [if_neg hswap]
    exact ⟨hlo.1, Int.not_lt.mp hswap, hhi.2⟩

theorem slice_length {xs : List ℚ} {lo hi : Int} (h0 : 0 ≤ lo) (h : lo ≤ hi) (hhi : hi ≤ xs.length) :
    (slice xs lo hi).length = (hi - lo).toNat := by
  rw [slice, List.length_take, List.length_drop]
  omega

theorem slice_getD {xs : List ℚ} {lo hi : Int} {i : Nat} (hi' : (i : Int) < hi - lo) :
    (slice xs lo hi).getD i 0 = xs.getD (lo.toNat + i) 0 := by
  rw [slice, List.getD_eq_getElem?_getD, List.getElem?_take_of_lt (by omega), List.getElem?_drop, ← List.getD_eq_getElem?_getD]

section Calibrate
variable (mean_wf cfg)

theorem searchBounds_spec : 0 ≤ (cfg.searchBounds mean_wf).1 ∧ (cfg.searchBounds mean_wf).1 ≤ (cfg.searchBounds mean_wf).2 ∧
    (cfg.searchBounds mean_wf).2 ≤ mean_wf.length := normalizeBounds_spec (by omega) _ _

theorem baselineBounds_spec : 0 ≤ (cfg.baselineBounds mean_wf).1 ∧ (cfg.baselineBounds mean_wf).1 ≤ (cfg.baselineBounds mean_wf).2 ∧
    (cfg.baselineBounds mean_wf).2 ≤ mean_wf.length := normalizeBounds_spec (by omega) _ _

theorem signal_length : ((cfg.signal mean_wf).length : Int) = (cfg.searchBounds mean_wf).2 - (cfg.searchBounds mean_wf).1 := by
  obtain ⟨h0, hle, hn⟩ := searchBounds_spec mean_wf cfg
  rw [Calibration.signal, List.length_map, slice_length h0 hle hn]
  omega

theorem signal_getD {i : Nat} (hi : i < (cfg.signal mean_wf).length) :
    (cfg.signal mean_wf).getD i 0 = mean_wf.getD ((cfg.searchBounds mean_wf).1.toNat + i) 0 - cfg.baseline mean_wf := by
  have hlength := signal_length mean_wf cfg
  obtain ⟨h0, hle, hn⟩ := searchBounds_spec mean_wf cfg
  have hslice : i < (slice mean_wf (cfg.searchBounds mean_wf).1 (cfg.searchBounds mean_wf).2).length := by
    rw [slice_length h0 hle hn]
    omega
  have hgetD : (slice mean_wf (cfg.searchBounds mean_wf).1 (cfg.searchBounds mean_wf).2).getD i 0 =
      mean_wf.getD ((cfg.searchBounds mean_wf).1.toNat + i) 0 := slice_getD (by omega)
  rw [← hgetD, Calibration.signal, List.getD_eq_getElem?_getD, List.getElem?_map, List.getD_eq_getElem?_getD,
    List.getElem?_eq_getElem hslice]
  rfl

end Calibrate

/-! ### Calibration -/

theorem frac_pos (cfg : Calibration) : 0 < cfg.frac := by
  refine lt_min (lt_max_of_lt_right ?_) ?_ <;> norm_num

theorem frac_le_one (cfg : Calibration) : cfg.frac ≤ 1 := (min_le_right _ _).trans (by norm_num)

/-- What a calibration that returns has found. -/
structure Found (mean_wf : List ℚ) (cfg : Calibration) (w : ChargeWindow) : Prop where
  baseline : (w.baseline_start, w.baseline_stop) = cfg.baselineBounds mean_wf ∧ w.baseline_start < w.baseline_stop
  search : (w.search_start, w.search_stop) = cfg.searchBounds mean_wf ∧ w.search_start < w.search_stop
  peak : w.peak_index = w.search_start + argmax (cfg.signal mean_wf)
  amplitude : 0 < (cfg.signal mean_wf).getD (argmax (cfg.signal mean_wf)) 0
  onset : w.onset_index = w.search_start +
    onsetRel (cfg.signal mean_wf) ((cfg.signal mean_wf).getD (argmax (cfg.signal mean_wf)) 0 * cfg.frac)
  integrate_len : 0 < cfg.integrate_len
  start : w.integrate_start = max 0 (min (mean_wf.length : Int) (w.onset_index + cfg.integrate_offset))
  stop : w.integrate_stop = max (w.integrate_start + 1) (min (mean_wf.length : Int) (w.integrate_start + cfg.integrate_len))

theorem found_of_calibrate (h : calibrateWindowFromMean mean_wf cfg = .ok w) : Found mean_wf cfg w := by
  unfold calibrateWindowFromMean at h
  dsimp only at h
  split at h
  next => cases h
  split at h
  next => cases h
  split at h
  next => cases h
  split at h
  next => cases h
  next hbaseline hsearch hlen hamplitude =>
    cases h
    exact ⟨⟨rfl, by dsimp only; omega⟩, ⟨rfl, by dsimp only; omega⟩, rfl, not_le.mp hamplitude, rfl, by omega, rfl, rfl⟩

namespace Found
variable (h : Found mean_wf cfg w)
include h

theorem signal_length_eq : ((cfg.signal mean_wf).length : Int) = w.search_stop - w.search_start := by
  rw [signal_length, ← h.search.1]

theorem isOnset : IsOnset (cfg.signal mean_wf) ((cfg.signal mean_wf).getD (argmax (cfg.signal mean_wf)) 0 * cfg.frac)
    (onsetRel (cfg.signal mean_wf) ((cfg.signal mean_wf).getD (argmax (cfg.signal mean_wf)) 0 * cfg.frac)) := by
  have hlength := h.signal_length_eq
  have hsearch := h.search.2
  exact isOnset_onsetRel (argmax_lt (by omega)) (mul_le_of_le_one_right h.amplitude.le (frac_le_one cfg))

theorem baseline_inRecord : 0 ≤ w.baseline_start ∧ w.baseline_start < w.baseline_stop ∧ w.baseline_stop ≤ mean_wf.length := by
  obtain ⟨h0, -, hn⟩ := baselineBounds_spec mean_wf cfg
  rw [← h.baseline.1] at h0 hn
  exact ⟨h0, h.baseline.2, hn⟩

theorem search_inRecord : 0 ≤ w.search_start ∧ w.search_start ≤ w.onset_index ∧ w.onset_index ≤ w.peak_index ∧
    w.peak_index < w.search_stop ∧ w.search_stop ≤ mean_wf.length := by
  obtain ⟨h0, -, hn⟩ := searchBounds_spec mean_wf cfg
  rw [← h.search.1] at h0 hn
  have hlength := h.signal_length_eq
  have hsearch := h.search.2
  have hpeak : argmax (cfg.signal mean_wf) < (cfg.signal mean_wf).length := argmax_lt (by omega)
  -- the onset is not after the peak, which reaches the threshold too
  have honset := h.isOnset.least _ hpeak (mul_le_of_le_one_right h.amplitude.le (frac_le_one cfg))
  rw [h.onset, h.peak]
  exact ⟨h0, by omega, by omega, by omega, hn⟩

/-- The integration window reaches past the record when its start does. -/
theorem integrate_inRecord_iff : (0 ≤ w.integrate_start ∧ w.integrate_start < w.integrate_stop ∧ w.integrate_stop ≤ mean_wf.length) ↔
    w.onset_index + cfg.integrate_offset < mean_wf.length := by
  obtain ⟨h0, h1, h2, h3, h4⟩ := h.search_inRecord
  have hlen := h.integrate_len
  rw [h.stop, h.start]
  omega

/-- A sample comes up to the threshold if it comes up to the fraction of every other. -/
theorem threshold_le_iff {i : Nat} : (cfg.signal mean_wf).getD (argmax (cfg.signal mean_wf)) 0 * cfg.frac ≤ (cfg.signal mean_wf).getD i 0 ↔
    ∀ j < (cfg.signal mean_wf).length, cfg.frac * (cfg.signal mean_wf).getD j 0 ≤ (cfg.signal mean_wf).getD i 0 := by
  have hlength := h.signal_length_eq
  have hsearch := h.search.2
  rw [mul_comm]
  constructor
  · intro hi j hj
    exact (mul_le_mul_of_nonneg_left (getD_le_argmax hj) (frac_pos cfg).le).trans hi
  · exact fun hi => hi _ (argmax_lt (by omega))

end Found

theorem Found.earlyOnset_iff (h : Found mean_wf cfg w) :
    cfg.EarlyOnset mean_wf ↔ w.onset_index + cfg.integrate_offset < mean_wf.length := by
  have hlength := h.signal_length_eq
  have hsearch := h.search_inRecord
  have hbounds := h.search.1
  have hheight {i : Int} (hlo : w.search_start ≤ i) (hhi : i < w.search_stop) :
      mean_wf.getD i.toNat 0 - cfg.baseline mean_wf = (cfg.signal mean_wf).getD (i - w.search_start).toNat 0 := by
    rw [signal_getD mean_wf cfg (by omega), ← hbounds]
    congr 2
    dsimp only
    omega
  unfold Calibration.EarlyOnset
  rw [← hbounds]
  dsimp only
  constructor
  · rintro ⟨i, hlo, hhi, hearly, hall⟩
    -- the first such sample is not after this one
    have hi : (i - w.search_start).toNat < (cfg.signal mean_wf).length := by omega
    have hleast := h.isOnset.least _ hi (h.threshold_le_iff.mpr fun j hj => by
      have := hall (w.search_start + j) (by omega) (by omega)
      rwa [hheight hlo hhi, hheight (by omega) (by omega), show (w.search_start + (j : Int) - w.search_start).toNat = j by omega] at this)
    rw [h.onset]
    omega
  · intro hearly
    have honset := h.isOnset
    refine ⟨w.onset_index, hsearch.2.1, by omega, hearly, fun j hlo hhi => ?_⟩
    rw [hheight hlo hhi, hheight hsearch.2.1 (by omega)]
    have hrel : (w.onset_index - w.search_start).toNat =
        onsetRel (cfg.signal mean_wf) ((cfg.signal mean_wf).getD (argmax (cfg.signal mean_wf)) 0 * cfg.frac) := by
      rw [h.onset]
      omega
    rw [hrel]
    exact h.threshold_le_iff.mp honset.reached _ (by omega)

/-- The windows of a calibration lie in the record exactly when the onset is early enough for its offset. -/
theorem calibrateWindowFromMean_inRecord_iff (h : calibrateWindowFromMean mean_wf cfg = .ok w) :
    InRecord mean_wf.length w ↔ cfg.EarlyOnset mean_wf := by
  have hfound := found_of_calibrate h
  rw [hfound.earlyOnset_iff, ← hfound.integrate_inRecord_iff]
  exact ⟨fun hin => hin.integrate, fun hin => ⟨hfound.baseline_inRecord, hfound.search_inRecord, hin⟩⟩

/-- A step in the last sample, with the offset that is asked for. -/
def stepCalibration (integrate_offset : Int) : Calibration where
  channel := 0
  baseline_start := 0
  baseline_stop := 2
  search_start := 2
  search_stop := 4
  onset_fraction := 1 / 5
  integrate_offset
  integrate_len := 2

theorem calibrate_step : calibrateWindowFromMean [0, 0, 0, 1] (stepCalibration 0) = .ok ⟨0, 0, 2, 2, 4, 3, 3, 3, 4⟩ := by
  decide +kernel

theorem step_inRecord : InRecord 4 ⟨0, 0, 2, 2, 4, 3, 3, 3, 4⟩ ∧ (stepCalibration 0).EarlyOnset [0, 0, 0, 1] := by
  have hin : InRecord ([0, 0, 0, 1] : List ℚ).length ⟨0, 0, 2, 2, 4, 3, 3, 3, 4⟩ := ⟨by decide, by decide, by decide⟩
  exact ⟨hin, (calibrateWindowFromMean_inRecord_iff calibrate_step).mp hin⟩

/-- With an offset past the end the integration window is the sample after the record. -/
theorem late_step_not_inRecord : ¬∀ (mean_wf : List ℚ) (cfg : Calibration) (w : ChargeWindow),
    calibrateWindowFromMean mean_wf cfg = .ok w → InRecord mean_wf.length w := by
  intro hall
  have hlate : calibrateWindowFromMean [0, 0, 0, 1] (stepCalibration 8) = .ok ⟨0, 0, 2, 2, 4, 3, 3, 4, 5⟩ := by
    decide +kernel
  exact absurd (hall _ _ _ hlate).integrate.2.2 (by decide)

/-! ### Pedestal windows -/

/-- What the windows of a record have in common, whether calibrated or moved. -/
structure Placed (n : Nat) (w : ChargeWindow) : Prop where
  baseline : 0 ≤ w.baseline_start ∧ w.baseline_start < w.baseline_stop ∧ w.baseline_stop ≤ n
  integrate : w.integrate_start < w.integrate_stop

theorem reanchor_eq {n : Int} {anchor : String} {pre_samples post_samples : Int}
    (h : reanchorChargeWindow w n anchor pre_samples post_samples = .ok w') :
    ∃ start stop, w' = { w with integrate_start := start, integrate_stop := stop } ∧ start < stop := by
  unfold reanchorChargeWindow at h
  cases hanchor : anchorIndex w anchor with
  | error e =>
    rw [hanchor] at h
    cases h
  | ok anchor_index =>
    rw [hanchor] at h
    cases h
    exact ⟨_, _, rfl, by omega⟩

theorem Producible.placed {n : Nat} (h : Producible n w) : Placed n w := by
  induction h with
  | calibrate hn h =>
    have hfound := found_of_calibrate h
    refine ⟨hn ▸ hfound.baseline_inRecord, ?_⟩
    rw [hfound.stop]
    omega
  | reanchor hw h ih =>
    obtain ⟨start, stop, rfl, hlt⟩ := reanchor_eq h
    exact ⟨ih.baseline, hlt⟩

/-- The pedestal window of a window of a record: as long as the charge window, from the baseline's last samples if it
    fits in there. -/
theorem Placed.pedestal {n : Nat} (h : Placed n w) : pedestalWindowForCharge w n none =
    .ok (max w.baseline_start (w.baseline_stop - (w.integrate_stop - w.integrate_start)),
      min (n : Int) (max w.baseline_start (w.baseline_stop - (w.integrate_stop - w.integrate_start)) + (w.integrate_stop - w.integrate_start))) := by
  obtain ⟨⟨h0, hlt, hn⟩, hint⟩ := h
  unfold pedestalWindowForCharge
  rw [Option.getD_none, if_neg (by omega)]
  dsimp only
  rw [if_neg (by omega)]
  rfl

/-- The pedestal window stays in the baseline window exactly when the charge window is no longer than that, or
    nothing of the record is after it. -/
theorem pedestalInBaseline_iff {n : Nat} (h : Producible n w) : PedestalInBaseline n w ↔
    w.integrate_stop - w.integrate_start ≤ w.baseline_stop - w.baseline_start ∨ (n : Int) ≤ w.baseline_stop := by
  obtain ⟨h0, hlt, hn⟩ := h.placed.baseline
  have hint := h.placed.integrate
  unfold PedestalInBaseline
  rw [h.placed.pedestal]
  constructor
  · rintro ⟨start, stop, heq, -, -, hstop, -⟩
    cases heq
    omega
  · intro hcond
    exact ⟨_, _, rfl, by omega, by omega, by omega, fun hle => by omega⟩

theorem pedestal_of_step : PedestalInBaseline 4 ⟨0, 0, 2, 2, 4, 3, 3, 3, 4⟩ :=
  (pedestalInBaseline_iff (.calibrate rfl calibrate_step)).mpr (Or.inl (by decide))

/-- A charge window of three samples takes its pedestal from the one sample of the baseline and two of the pulse. -/
theorem long_charge_not_pedestalInBaseline : ¬∀ (n : Nat) (w : ChargeWindow), Producible n w → PedestalInBaseline n w := by
  intro hall
  have hcalibrate : calibrateWindowFromMean [0, 1, 1, 1] ⟨0, 0, 1, 1, 4, 1 / 5, 0, 3⟩ = .ok ⟨0, 0, 1, 1, 4, 1, 1, 1, 4⟩ := by
    decide +kernel
  obtain ⟨start, stop, heq, -, -, hstop, -⟩ := hall 4 _ (.calibrate rfl hcalibrate)
  have hpedestal : pedestalWindowForCharge ⟨0, 0, 1, 1, 4, 1, 1, 1, 4⟩ (4 : Nat) none = .ok (0, 3) := by decide +kernel
  rw [hpedestal] at heq
  cases heq
  exact absurd hstop (by decide)

end DaphneZmq.LedCharge
