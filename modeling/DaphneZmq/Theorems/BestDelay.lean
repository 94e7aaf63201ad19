import DaphneZmq.Theorems.Alignment

/-! The delay that `setBestDelay` programs, for any number of taps. The delay register of an AFE has a field of nine bits, so
that a scan with more taps than that sets some of them again. -/

namespace DaphneZmq
open Lib Lib.Device

namespace Daphne
open FrontEnd

/-! ### The run -/

theorem longestIdenticalSubsequenceIndices_eq_none {nums : List UInt32} :
    longestIdenticalSubsequenceIndices nums = none ↔ nums = [] := by
  constructor
  · intro hnone
    rcases Nat.eq_zero_or_pos nums.length with hlen | hlen
    · exact List.length_eq_zero_iff.mp hlen
    · obtain ⟨first, last, hfound, -⟩ := longestIdenticalSubsequenceIndices_spec hlen
      rw [hnone] at hfound
      cases hfound
  · rintro rfl
    rfl

theorem longestIdenticalSubsequenceIndices_eq_some {nums : List UInt32} {first last : Nat}
    (h : longestIdenticalSubsequenceIndices nums = some (first, last)) : LongestPlateau nums first last := by
  rcases Nat.eq_zero_or_pos nums.length with hlen | hlen
  · rw [longestIdenticalSubsequenceIndices_eq_none.mpr (List.length_eq_zero_iff.mp hlen)] at h
    cases h
  · obtain ⟨_, _, hfound, hlongest⟩ := longestIdenticalSubsequenceIndices_spec hlen
    rw [h] at hfound
    cases hfound
    exact hlongest

/-- A run of equal words that is not part of a longer one, of those the longest, and of those the leftmost. -/
structure LongestRun (nums : List UInt32) (first last : Nat) : Prop where
  run : Plateau nums first last
  left : 0 < first → nums[first - 1]? ≠ nums[first]?
  right : nums[last + 1]? ≠ nums[last]?
  longest : ∀ first' last', Plateau nums first' last' → last' - first' ≤ last - first
  leftmost : ∀ first' last', Plateau nums first' last' → last' - first' = last - first → first ≤ first'

theorem longestRun_of_longestPlateau {nums : List UInt32} {first last : Nat} (h : LongestPlateau nums first last) :
    LongestRun nums first last where
  run := h.plateau
  left := h.ne_left
  right := h.ne_right
  longest first' last' h' := by rcases h.longest _ _ h' with hlt | ⟨heq, -⟩ <;> omega
  leftmost first' last' h' heq := by rcases h.longest _ _ h' with hlt | ⟨-, hle⟩ <;> omega

/-! ### The delay -/

/-- The tap that the words of a scan ask for: the middle of the run, rounded down. -/
structure Chosen (data : List UInt32) (best : UInt32) : Prop where
  middle : ∃ first last, longestIdenticalSubsequenceIndices data = some (first, last) ∧ LongestRun data first last ∧
    best.toNat = first + (last - first) / 2 ∧ first ≤ best.toNat ∧ best.toNat ≤ last
  lt : best.toNat < data.length

theorem chosen_of_longestPlateau {data : List UInt32} {first last : Nat} (hlen : data.length ≤ 2 ^ 23)
    (hfound : longestIdenticalSubsequenceIndices data = some (first, last)) :
    Chosen data (UInt32.ofNat (first + (last - first) / 2)) := by
  have hlongest := longestIdenticalSubsequenceIndices_eq_some hfound
  have hle := hlongest.plateau.le
  have hlt := hlongest.plateau.lt
  have hbest : (UInt32.ofNat (first + (last - first) / 2)).toNat = first + (last - first) / 2 := by
    rw [UInt32.toNat_ofNat', Nat.mod_eq_of_lt (by omega)]
  refine ⟨⟨first, last, hfound, longestRun_of_longestPlateau hlongest, hbest, ?_, ?_⟩, ?_⟩ <;> rw [hbest] <;> omega

variable {D : Type}

/-- The run that is found, and the delay that is set after a scan; the register has as much of it as its field holds. -/
theorem setBestDelay_spec {b : Bench} {afe taps : Nat} (hafe : afe < 5) (hpos : 1 ≤ taps) (hexact : taps ≤ 2 ^ 23)
    (s : State Nat UInt32 D) :
    (∀ nums, longestIdenticalSubsequenceIndices nums = none ↔ nums = []) ∧
    (∀ nums first last, longestIdenticalSubsequenceIndices nums = some (first, last) → LongestRun nums first last) ∧
    Takes b.env (block afe) (taps * 7 + 4) (setBestDelay b.env afe taps)
      (fun a t => ∃ best u, Chosen (scan b afe (samples s afe) taps) best ∧ best.toNat < taps ∧
        scanGeneric b.env afe taps (setDelay b.env) s = .ok (scan b afe (samples s afe) taps) u ∧
        setDelay b.env afe best u = .ok a.1 t ∧ (regs t afe).1.toNat = best.toNat % 512 ∧
        (taps ≤ 512 → (regs t afe).1 = best)) s := by
  refine ⟨fun nums => longestIdenticalSubsequenceIndices_eq_none,
    fun nums first last h => longestRun_of_longestPlateau (longestIdenticalSubsequenceIndices_eq_some h), ?_⟩
  refine (takes_setBestDelay_any hafe hpos).mono ?_
  rintro a t ⟨⟨first, last, u, hfound, -, hscanned, hset, hregs⟩, -⟩
  have hlen : (scan b afe (samples s afe) taps).length = taps := by simp [scan]
  have hchosen := chosen_of_longestPlateau (hlen.trans_le hexact) hfound
  have hlt := hlen ▸ hchosen.lt
  have hmod : (regs t afe).1.toNat = (UInt32.ofNat (first + (last - first) / 2)).toNat % 512 := by
    rw [hregs, UInt32.toNat_and, BitField.toNat_mask, Nat.and_two_pow_sub_one_eq_mod]
    rfl
  refine ⟨_, u, hchosen, hlt, hscanned, hset, hmod, fun hle => ?_⟩
  rw [← UInt32.toNat_inj, hmod, Nat.mod_eq_of_lt (by omega)]

/-! ### A scan that goes round -/

theorem getElem?_scan {b : Bench} {afe start n i : Nat} (hi : i < n) :
    (scan b afe start n)[i]? = some (b.frameClock afe (start + i)) := by
  rw [scan, List.getElem?_map, List.getElem?_range hi]
  rfl

/-- The frame clocks are steady on the delays from 400 to 511 and on those up to 300. -/
def wrapping : Bench where
  faults _ := none
  status _ := 1
  frameClock _ i := if 300 < i % 512 ∧ i % 512 < 400 then 0 else 1
  polls _ := 0

def start : State Nat UInt32 Unit := ⟨fun _ => 0, fun _ => 0, 0, [], ()⟩

theorem wrapping_plateau : LongestPlateau (scan wrapping 0 0 813) 400 812 where
  plateau := by
    refine ⟨by decide, by simp [scan], fun i h1 h2 => ?_⟩
    rw [getElem?_scan (by omega), getElem?_scan (by omega)]
    simp only [wrapping]
    rw [if_neg (by omega), if_neg (by omega)]
  longest c d h := by
    have hlt : d < 813 := by simpa [scan] using h.lt
    have hle := h.le
    have hleft : (scan wrapping 0 0 813)[300 + 1]? ≠ (scan wrapping 0 0 813)[300]? := by
      rw [getElem?_scan (by decide), getElem?_scan (by decide)]
      decide
    have hright : (scan wrapping 0 0 813)[399 + 1]? ≠ (scan wrapping 0 0 813)[399]? := by
      rw [getElem?_scan (by decide), getElem?_scan (by decide)]
      decide
    rcases h.not_cross hleft with h1 | h1 <;> rcases h.not_cross hright with h2 | h2 <;> omega

/-- The scan of 813 taps asks for the tap 606, and the register has the delay 94 in the end, which is not in the run. -/
theorem wrapping_not_middle : ∃ a t, setBestDelay wrapping.env 0 813 start = .ok a t ∧
    longestIdenticalSubsequenceIndices (scan wrapping 0 0 813) = some (400, 812) ∧
    (regs t 0).1.toNat ≠ 400 + (812 - 400) / 2 ∧ ¬400 ≤ (regs t 0).1.toNat := by
  obtain ⟨a, t, hrun, ⟨first, last, -, hfound, hlongest, -, -, hregs⟩, -⟩ :=
    (takes_setBestDelay_any (b := wrapping) (s := start) (by decide : 0 < 5) (by decide : 0 < 813)).exists_ok fun _ _ => rfl
  rw [show samples start 0 = 0 by rfl] at hfound hlongest
  obtain ⟨rfl, rfl⟩ := hlongest.unique wrapping_plateau
  have hdelay : (regs t 0).1 = 94 := by
    rw [hregs]
    decide
  exact ⟨a, t, hrun, hfound, by rw [hdelay]; decide, by rw [hdelay]; decide⟩

/-- A scan of 512 taps, each of which the register can have. -/
theorem setBestDelay_spec_512 : ∃ a t best, setBestDelay wrapping.env 0 512 start = .ok a t ∧
    Chosen (scan wrapping 0 0 512) best ∧ (regs t 0).1 = best := by
  obtain ⟨a, t, hrun, best, u, hchosen, -, -, -, -, hregs⟩ :=
    (setBestDelay_spec (b := wrapping) (D := Unit) (by decide : 0 < 5) (by decide : 1 ≤ 512) (by decide) start).2.2.exists_ok
      fun _ _ => rfl
  exact ⟨a, t, best, hrun, hchosen, hregs (Nat.le_refl _)⟩

end Daphne
end DaphneZmq
