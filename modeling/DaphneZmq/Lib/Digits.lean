import Mathlib.Data.List.Induction
import Mathlib.Data.Nat.Digits.Defs

/-! # The same digits in two bases

Digits are listed from the lowest one on, as `Nat.ofDigits` has them. Read in two bases they are one number only if nothing
stands before the last digit but zeros. -/

namespace Lib.Digits
open Nat (ofDigits)

theorem ofDigits_eq_zero_iff {b : Nat} (hb : 0 < b) {L : List Nat} : ofDigits b L = 0 ↔ ∀ d ∈ L, d = 0 := by
  induction L with
  | nil => simp [ofDigits]
  | cons d L ih =>
    rw [Nat.ofDigits_cons, List.forall_mem_cons, ← ih]
    constructor
    · intro h
      have hrest : b * ofDigits b L = 0 := by
        have : (d : Nat) + b * ofDigits b L = 0 := h
        omega
      exact ⟨Nat.eq_zero_of_add_eq_zero_right h, (Nat.mul_eq_zero.mp hrest).resolve_left (Nat.ne_of_gt hb)⟩
    · rintro ⟨rfl, hrest⟩
      rw [hrest]
      rfl

/-- Two bases read the same number exactly when all digits but the last are zeros. -/
theorem ofDigits_eq_iff {b c : Nat} (hbc : b < c) (d : Nat) (L : List Nat) :
    ofDigits b (d :: L) = ofDigits c (d :: L) ↔ ∀ x ∈ L, x = 0 := by
  have hc : 0 < c := Nat.lt_of_le_of_lt (Nat.zero_le b) hbc
  rw [← ofDigits_eq_zero_iff hc, Nat.ofDigits_cons, Nat.ofDigits_cons]
  constructor
  · intro h
    have heq : b * ofDigits b L = c * ofDigits c L := Nat.add_left_cancel h
    have hle : b * ofDigits b L ≤ b * ofDigits c L := Nat.mul_le_mul_left b (Nat.ofDigits_monotone L (Nat.le_of_lt hbc))
    by_contra hne
    have hlt := Nat.mul_lt_mul_of_pos_right hbc (Nat.pos_of_ne_zero hne)
    omega
  · intro h
    have hle := Nat.ofDigits_monotone L (Nat.le_of_lt hbc)
    rw [h] at hle ⊢
    rw [Nat.le_zero.mp hle]
    rfl

theorem foldl_eq_ofDigits (b : Nat) (digits : List Nat) :
    digits.foldl (fun n d => n * b + d) 0 = ofDigits b digits.reverse := by
  induction digits using List.reverseRecOn with
  | nil => rfl
  | append_singleton digits d ih =>
    rw [List.foldl_append, List.reverse_append, List.reverse_singleton, List.singleton_append, Nat.ofDigits_cons, ← ih,
      Nat.mul_comm, Nat.add_comm]
    rfl

end Lib.Digits
