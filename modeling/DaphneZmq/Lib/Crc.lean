import Mathlib.Algebra.Field.ZMod
import Mathlib.Algebra.Polynomial.Div
import Mathlib.Algebra.Polynomial.Coeff
import Mathlib.RingTheory.Polynomial.Basic
import Mathlib.RingTheory.Coprime.Lemmas
import Mathlib.Tactic.LinearCombination

/-! # Cyclic redundancy checks

A CRC register of `w` bits that is fed a message bit by bit, as division of polynomials over `ZMod 2`: what the register
holds is the remainder of the message behind the initial word. From it, that `w` bits at once are one xor and `w` shifts, and
that a burst of at most `w` bits never goes unnoticed. -/

namespace Lib.Crc
open Polynomial

variable {w : Nat}

/-! ### Words and messages as polynomials -/

noncomputable def toPoly (r : BitVec w) : (ZMod 2)[X] :=
  ∑ i ∈ Finset.range w, if r.getLsbD i then X ^ i else 0

noncomputable def bit (b : Bool) : (ZMod 2)[X] := if b then 1 else 0

/-- A message, its first bit the highest coefficient. -/
noncomputable def ofBits : List Bool → (ZMod 2)[X]
  | [] => 0
  | b :: bits => bit b * X ^ bits.length + ofBits bits

/-- The divisor: `poly` with the bit that is left out of it. -/
noncomputable def generator (poly : BitVec w) : (ZMod 2)[X] := X ^ w + toPoly poly

theorem coeff_toPoly (r : BitVec w) (i : Nat) : (toPoly r).coeff i = if r.getLsbD i then 1 else 0 := by
  have hcoeff : ∀ j ∈ Finset.range w, (if r.getLsbD j then (X : (ZMod 2)[X]) ^ j else 0).coeff i =
      if j = i then (if r.getLsbD i then 1 else 0) else 0 := by
    intro j _
    by_cases hj : j = i
    · subst hj
      by_cases hr : r.getLsbD j <;> simp [hr]
    · by_cases hr : r.getLsbD j <;> simp [hr, hj, coeff_X_pow, Ne.symm hj]
  rw [toPoly, finsetSum_coeff, Finset.sum_congr rfl hcoeff, Finset.sum_ite_eq']
  by_cases hi : i < w
  · simp [hi]
  · simp [hi, BitVec.getLsbD_of_ge r i (Nat.le_of_not_lt hi)]

theorem toPoly_injective : Function.Injective (toPoly (w := w)) := by
  intro r s h
  apply BitVec.eq_of_getLsbD_eq
  intro i _
  have hi := congrArg (fun p : (ZMod 2)[X] => p.coeff i) h
  simp only [coeff_toPoly] at hi
  cases hr : r.getLsbD i <;> cases hs : s.getLsbD i <;> simp [hr, hs] at hi ⊢

theorem toPoly_xor (r s : BitVec w) : toPoly (r ^^^ s) = toPoly r + toPoly s := by
  have htwo : (1 : ZMod 2) + 1 = 0 := rfl
  ext i
  rw [coeff_add, coeff_toPoly, coeff_toPoly, coeff_toPoly, BitVec.getLsbD_xor]
  cases r.getLsbD i <;> cases s.getLsbD i <;> simp [htwo]

theorem degree_toPoly_lt (r : BitVec w) : (toPoly r).degree < w := by
  rw [degree_lt_iff_coeff_zero]
  intro i hi
  rw [coeff_toPoly, BitVec.getLsbD_of_ge r i hi]
  rfl

theorem monic_generator (poly : BitVec w) : (generator poly).Monic := monic_X_pow_add (degree_toPoly_lt poly)

theorem degree_generator (poly : BitVec w) : (generator poly).degree = w := by
  rw [generator, degree_add_eq_left_of_degree_lt, degree_X_pow]
  rw [degree_X_pow]
  exact degree_toPoly_lt poly

theorem bit_xor (a b : Bool) : bit (a ^^ b) = bit a + bit b := by
  have htwo : (1 : (ZMod 2)[X]) + 1 = 0 := CharTwo.add_self_eq_zero 1
  cases a <;> cases b <;> simp [bit, htwo]

theorem coeff_bit_mul_X_pow (b : Bool) (n i : Nat) : (bit b * X ^ n).coeff i = if b ∧ i = n then 1 else 0 := by
  cases b <;> simp [bit, coeff_X_pow]

/-- The coefficients of a message are its bits from the last one on. -/
theorem coeff_ofBits (bits : List Bool) (i : Nat) : (ofBits bits).coeff i = if bits.reverse[i]? = some true then 1 else 0 := by
  induction bits with
  | nil => simp [ofBits]
  | cons b bits ih =>
    rw [ofBits, coeff_add, coeff_bit_mul_X_pow, ih, List.reverse_cons]
    rcases Nat.lt_trichotomy i bits.length with hi | rfl | hi
    · rw [List.getElem?_append_left (by simpa using hi)]
      simp [Nat.ne_of_lt hi]
    · have hnone : bits.reverse[bits.length]? = none := by simp
      rw [List.getElem?_append_right (by simp), hnone]
      cases b <;> simp
    · have hnone : bits.reverse[i]? = none := by simp; omega
      have hend : (bits.reverse ++ [b])[i]? = none := by simp; omega
      simp [hnone, hend, Nat.ne_of_gt hi]

theorem toPoly_shiftLeft (r : BitVec w) : toPoly (r <<< 1) = X * toPoly r + bit r.msb * X ^ w := by
  ext i
  rw [coeff_add, coeff_bit_mul_X_pow, coeff_toPoly, BitVec.getLsbD_shiftLeft]
  rcases i with _ | i
  · rcases w with _ | w
    · simp [BitVec.msb]
    · simp
  · rw [coeff_X_mul, coeff_toPoly]
    rcases Nat.lt_trichotomy (i + 1) w with hi | rfl | hi
    · simp [hi, Nat.ne_of_lt hi]
    · have hone : (1 : ZMod 2) + 1 = 0 := rfl
      rw [show r.msb = r.getLsbD i by simp [BitVec.msb_eq_getLsbD_last]]
      cases r.getLsbD i <;> simp [hone]
    · simp [Nat.not_lt_of_gt hi, Nat.ne_of_gt hi, BitVec.getLsbD_of_ge r i (Nat.le_of_lt_succ hi)]

/-! ### The register -/

variable (poly : BitVec w)

/-- A shift of the register. -/
def shift (r : BitVec w) : BitVec w := if r.msb then (r <<< 1) ^^^ poly else r <<< 1

/-- The register takes in a bit of the message. -/
def feed (r : BitVec w) (b : Bool) : BitVec w := if r.msb ^^ b then (r <<< 1) ^^^ poly else r <<< 1

/-- The register after a message, bit by bit. -/
def crc (r : BitVec w) (bits : List Bool) : BitVec w := bits.foldl (feed poly) r

theorem crc_append (r : BitVec w) (a b : List Bool) : crc poly r (a ++ b) = crc poly (crc poly r a) b := List.foldl_append

theorem shift_eq_feed (r : BitVec w) : shift poly r = feed poly r false := by
  rw [shift, feed, Bool.xor_false]

theorem toPoly_feed (r : BitVec w) (b : Bool) :
    toPoly (feed poly r b) = X * toPoly r + bit b * X ^ w + bit (r.msb ^^ b) * generator poly := by
  have htwo : (2 : (ZMod 2)[X]) = 0 := CharTwo.two_eq_zero
  have hfeed : toPoly (feed poly r b) = toPoly (r <<< 1) + bit (r.msb ^^ b) * toPoly poly := by
    cases h : r.msb ^^ b <;> simp [feed, h, bit, toPoly_xor]
  rw [hfeed, toPoly_shiftLeft, generator, bit_xor]
  linear_combination -(bit b * X ^ w) * htwo

/-- What the register holds is the remainder of the message behind the word it began with. -/
theorem toPoly_crc (r : BitVec w) (bits : List Bool) :
    toPoly (crc poly r bits) = (X ^ bits.length * toPoly r + X ^ w * ofBits bits) %ₘ generator poly := by
  induction bits generalizing r with
  | nil =>
    have hsmall : toPoly r %ₘ generator poly = toPoly r := by
      rw [modByMonic_eq_self_iff (monic_generator poly), degree_generator]
      exact degree_toPoly_lt r
    simp [crc, ofBits, hsmall]
  | cons b bits ih =>
    show toPoly (crc poly (feed poly r b) bits) = _
    rw [ih, toPoly_feed]
    apply modByMonic_eq_of_dvd_sub (monic_generator poly)
    refine ⟨X ^ bits.length * bit (r.msb ^^ b), ?_⟩
    rw [ofBits, List.length_cons]
    ring

theorem toPoly_shifts (k : Nat) (r : BitVec w) :
    toPoly (Nat.repeat (shift poly) k r) = (X ^ k * toPoly r) %ₘ generator poly := by
  have hzeros : Nat.repeat (shift poly) k r = crc poly r (List.replicate k false) := by
    induction k with
    | zero => rfl
    | succ k ih =>
      rw [List.replicate_succ', crc_append, ← ih]
      exact shift_eq_feed poly _
  have hnone : ofBits (List.replicate k false) = 0 := by
    ext i
    rw [coeff_ofBits, List.reverse_replicate, coeff_zero]
    simp [List.getElem?_replicate]
  rw [hzeros, toPoly_crc, hnone, List.length_replicate, mul_zero, add_zero]

/-- The bits of a word from the highest one on. -/
def bitsOf (x : BitVec w) : List Bool := ((List.range w).map x.getLsbD).reverse

theorem ofBits_bitsOf (x : BitVec w) : ofBits (bitsOf x) = toPoly x := by
  ext i
  rw [coeff_ofBits, bitsOf, List.reverse_reverse, coeff_toPoly]
  by_cases hi : i < w
  · simp [hi]
  · simp [hi, BitVec.getLsbD_of_ge x i (Nat.le_of_not_lt hi)]

/-- The bits of a word at once: they go into the register by one xor, and `w` shifts follow. -/
theorem crc_bitsOf (r x : BitVec w) : crc poly r (bitsOf x) = Nat.repeat (shift poly) w (r ^^^ x) := by
  have hlength : (bitsOf x).length = w := by simp [bitsOf]
  apply toPoly_injective
  rw [toPoly_crc, toPoly_shifts, ofBits_bitsOf, hlength, toPoly_xor, mul_add]

/-! ### Errors -/

variable {poly}

theorem isCoprime_X_pow_generator (hpoly : poly.getLsbD 0) (k : Nat) : IsCoprime (X ^ k) (generator poly) := by
  rcases w with _ | w
  · simp at hpoly
  · apply IsCoprime.pow_left
    have hconst : (generator poly).coeff 0 = 1 := by
      simp [generator, coeff_toPoly, hpoly, coeff_X_pow]
    refine ⟨-(generator poly).divX, 1, ?_⟩
    have hdiv := (generator poly).divX_mul_X_add
    rw [hconst, C_1] at hdiv
    linear_combination -hdiv

theorem dvd_of_crc_eq {r : BitVec w} {a b : List Bool} (hlength : a.length = b.length)
    (h : crc poly r a = crc poly r b) : generator poly ∣ X ^ w * (ofBits a - ofBits b) := by
  have hpoly := congrArg toPoly h
  rw [toPoly_crc, toPoly_crc, hlength, ← sub_eq_zero, ← sub_modByMonic,
    modByMonic_eq_zero_iff_dvd (monic_generator poly)] at hpoly
  rw [mul_sub, ← add_sub_add_left_eq_sub]
  exact hpoly

/-- Where the difference of two messages has a coefficient, the messages have different bits. -/
theorem getElem?_ne_of_coeff_ne {a b : List Bool} (hlength : a.length = b.length) {i : Nat}
    (h : (ofBits a - ofBits b).coeff i ≠ 0) :
    i < a.length ∧ a[a.length - 1 - i]? ≠ b[a.length - 1 - i]? := by
  have hrev : a.reverse[i]? ≠ b.reverse[i]? := by
    intro heq
    apply h
    rw [coeff_sub, coeff_ofBits, coeff_ofBits, heq, sub_self]
  by_cases hi : i < a.length
  · rw [List.getElem?_reverse hi, List.getElem?_reverse (hlength ▸ hi), ← hlength] at hrev
    exact ⟨hi, hrev⟩
  · exact absurd (by rw [List.getElem?_eq_none (by simpa using hi), List.getElem?_eq_none (by simpa [← hlength] using hi)]) hrev

theorem ofBits_sub_ne_zero {a b : List Bool} (hlength : a.length = b.length) (hne : a ≠ b) : ofBits a - ofBits b ≠ 0 := by
  intro hzero
  apply hne
  apply List.reverse_injective
  apply List.ext_getElem (by simpa using hlength)
  intro i ha hb
  have hcoeff := congrArg (fun p : (ZMod 2)[X] => p.coeff i) (sub_eq_zero.mp hzero)
  simp only [coeff_ofBits, List.getElem?_eq_getElem ha, List.getElem?_eq_getElem hb] at hcoeff
  cases hx : a.reverse[i] <;> cases hy : b.reverse[i] <;> simp [hx, hy] at hcoeff ⊢

/-- Two messages of one length that differ, and only within `n` bits in a row. -/
def Burst (n : Nat) (a b : List Bool) : Prop :=
  a.length = b.length ∧ a ≠ b ∧ ∃ k, ∀ i, a[i]? ≠ b[i]? → k ≤ i ∧ i < k + n

theorem crc_ne_of_burst (hpoly : poly.getLsbD 0) {r : BitVec w} {a b : List Bool} (h : Burst w a b) :
    crc poly r a ≠ crc poly r b := by
  obtain ⟨hlength, hne, k, hburst⟩ := h
  intro heq
  have hd := ofBits_sub_ne_zero hlength hne
  have hdvd := (isCoprime_X_pow_generator hpoly w).symm.dvd_of_dvd_mul_left (dvd_of_crc_eq hlength heq)
  have hin : ∀ i, (ofBits a - ofBits b).coeff i ≠ 0 → a.length - (k + w) ≤ i ∧ i < a.length - (k + w) + w := by
    intro i hi
    obtain ⟨hlt, hdiff⟩ := getElem?_ne_of_coeff_ne hlength hi
    have := hburst _ hdiff
    omega
  -- the difference is a power of `X`, which the divisor has no part in, times less than the divisor
  obtain ⟨e, he⟩ : X ^ (a.length - (k + w)) ∣ ofBits a - ofBits b := by
    rw [X_pow_dvd_iff]
    intro i hi
    by_contra hcoeff
    exact absurd (hin i hcoeff).1 (Nat.not_le_of_lt hi)
  have hsmall : e.degree < (generator poly).degree := by
    rw [degree_generator, degree_lt_iff_coeff_zero]
    intro i hi
    by_contra hcoeff
    have := hin (i + (a.length - (k + w))) (by rwa [he, coeff_X_pow_mul])
    omega
  have hedvd : generator poly ∣ e := by
    rw [he] at hdvd
    exact (isCoprime_X_pow_generator hpoly _).symm.dvd_of_dvd_mul_left hdvd
  apply hd
  rw [he, eq_zero_of_dvd_of_degree_lt hedvd hsmall, mul_zero]

/-- A message with its own check value behind it leaves nothing in the register. -/
theorem crc_append_self (r : BitVec w) (bits : List Bool) : crc poly r (bits ++ bitsOf (crc poly r bits)) = 0#w := by
  have hzero : toPoly 0#w = 0 := by
    ext i
    simp [coeff_toPoly]
  apply toPoly_injective
  rw [crc_append, crc_bitsOf, BitVec.xor_self, toPoly_shifts, hzero, mul_zero, zero_modByMonic]

/-- A message and its check value that are hit by a burst do not fit together any more. -/
theorem crc_ne_of_burst_append (hpoly : poly.getLsbD 0) {r c : BitVec w} {a b : List Bool}
    (h : Burst w (a ++ bitsOf (crc poly r a)) (b ++ bitsOf c)) : crc poly r b ≠ c := by
  rintro rfl
  apply crc_ne_of_burst hpoly (r := r) h
  rw [crc_append_self, crc_append_self]

end Lib.Crc
