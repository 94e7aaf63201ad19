import Mathlib.Algebra.BigOperators.Group.List.Basic
import Mathlib.Tactic.Ring

/-! # Running sums over a ring of slots

The last `n` of a growing list of terms are kept in a ring of `n` slots, term `j` in slot `j % n`, and their sum beside it.
A new term takes the slot of the one that it pushes out, whose value is first taken from the sum. -/

namespace Lib.MovingSum

variable {P : Type} {n : Nat}

/-- The last `n` terms, all of them if there are fewer. -/
def recent (n : Nat) (ps : List P) : List P := ps.drop (ps.length - n)

@[simp] theorem length_recent (ps : List P) : (recent n ps).length = min ps.length n := by
  rw [recent, List.length_drop]
  omega

theorem recent_of_le {ps : List P} (h : ps.length ≤ n) : recent n ps = ps := by
  rw [recent, Nat.sub_eq_zero_of_le h, List.drop_zero]

/-- A term that pushes out none. -/
theorem recent_append_of_lt {ps : List P} {p : P} (h : ps.length < n) : recent n (ps ++ [p]) = ps ++ [p] := by
  refine recent_of_le ?_
  rw [List.length_append, List.length_singleton]
  exact h

/-- A term that pushes out the oldest. -/
theorem recent_append_of_le {ps : List P} {p : P} (hn : 0 < n) (h : n ≤ ps.length) :
    ∃ q rest, ps[ps.length - n]? = some q ∧ recent n ps = q :: rest ∧ recent n (ps ++ [p]) = rest ++ [p] := by
  have hlt : ps.length - n < ps.length := by omega
  refine ⟨ps[ps.length - n], ps.drop (ps.length - n + 1), List.getElem?_eq_getElem hlt, List.drop_eq_getElem_cons hlt, ?_⟩
  have hlen : (ps ++ [p]).length - n = ps.length - n + 1 := by
    rw [List.length_append, List.length_singleton]
    omega
  rw [recent, hlen, List.drop_append_of_le_length hlt]

/-- The slot of term `j`. -/
def slot (hn : 0 < n) (j : Nat) : Fin n := ⟨j % n, Nat.mod_lt j hn⟩

theorem slot_sub {hn : 0 < n} {k : Nat} (h : n ≤ k) : slot hn (k - n) = slot hn k := by
  rw [slot, slot, Fin.mk.injEq]
  exact (Nat.mod_eq_sub_mod h).symm

/-- Terms that are less than `n` apart have different slots. -/
theorem slot_ne {hn : 0 < n} {j k : Nat} (hj : j < k) (hk : k < j + n) : slot hn j ≠ slot hn k := by
  rw [slot, slot, ne_eq, Fin.mk.injEq]
  intro h
  have hzero : (k - j) % n = 0 := Nat.sub_mod_eq_zero_of_mod_eq h.symm
  rw [Nat.mod_eq_of_lt (by omega)] at hzero
  omega

variable [AddCommGroup P]

/-- The ring and the sum hold the last `n` terms. -/
structure Tracks (hn : 0 < n) (ring : Fin n → P) (sum : P) (ps : List P) : Prop where
  sum : sum = (recent n ps).sum
  ring : ∀ j p, ps[j]? = some p → ps.length ≤ j + n → ring (slot hn j) = p

variable {hn : 0 < n} {ring : Fin n → P} {sum : P} {ps : List P}

theorem Tracks.empty : Tracks hn ring (0 : P) [] where
  sum := by rw [recent, List.drop_nil, List.sum_nil]
  ring _ _ h := nomatch h

/-- One new term. -/
theorem Tracks.push (h : Tracks hn ring sum ps) (p : P) : Tracks hn (Function.update ring (slot hn ps.length) p)
    ((if n ≤ ps.length then sum - ring (slot hn ps.length) else sum) + p) (ps ++ [p]) where
  sum := by
    by_cases hfull : n ≤ ps.length
    · obtain ⟨q, rest, hq, hold, hnew⟩ := recent_append_of_le (p := p) hn hfull
      have hring : ring (slot hn ps.length) = q := by
        rw [← slot_sub hfull]
        exact h.ring _ q hq (by omega)
      rw [if_pos hfull, hring, h.sum, hold, hnew, List.sum_cons, List.sum_append, List.sum_singleton, add_sub_cancel_left]
    · have hlt : ps.length < n := Nat.lt_of_not_le hfull
      rw [if_neg hfull, recent_append_of_lt hlt, h.sum, recent_of_le (Nat.le_of_lt hlt), List.sum_append, List.sum_singleton]
  ring := by
    intro j r hj hkept
    rw [List.length_append, List.length_singleton] at hkept
    rcases Nat.lt_or_ge j ps.length with hlt | hge
    · -- an older term is in another slot
      rw [Function.update_of_ne (slot_ne hlt (by omega))]
      rw [List.getElem?_append_left hlt] at hj
      exact h.ring j r hj (by omega)
    · rw [List.getElem?_append_right hge] at hj
      obtain ⟨hzero, rfl⟩ := List.getElem?_eq_some_iff.mp hj
      have hjk : j = ps.length := by
        rw [List.length_singleton] at hzero
        omega
      subst hjk
      rw [Function.update_self]
      simp

end Lib.MovingSum
