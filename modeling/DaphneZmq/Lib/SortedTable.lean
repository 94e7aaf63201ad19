import Mathlib.Data.List.Basic
import Mathlib.Order.Lattice

/-! # Searches in a table

The positions that `std::find` and `std::lower_bound` find in a sorted list: the one of a value, and the first one whose
value is not below. -/

namespace Lib.SortedTable

variable {α : Type} [LinearOrder α]

/-- The index of a value, -1 if it is not there. -/
def find (xs : List α) (v : α) : Int :=
  match xs.idxOf? v with
  | some i => i
  | none => -1

/-- The first index whose value is not below `v`, the length of the list if there is none. -/
def lowerBound (xs : List α) (v : α) : Nat := xs.findIdx fun x => !decide (x < v)

variable {xs : List α} {v x x' : α} {k : Nat}

theorem find_of_not_mem (h : v ∉ xs) : find xs v = -1 := by
  rw [find, List.idxOf?_eq_none_iff.mpr h]

theorem find_of_getElem? (hs : xs.Pairwise (· < ·)) (h : xs[k]? = some v) : find xs v = k := by
  obtain ⟨hk, rfl⟩ := List.getElem?_eq_some_iff.mp h
  have hidx : xs.idxOf? xs[k] = some k := List.idxOf?_eq_some_iff.mpr ⟨hk, rfl, fun j hj =>
    (List.pairwise_iff_getElem.mp hs j k (Nat.lt_trans hj hk) hk hj).ne⟩
  rw [find, hidx]

/-- The index behind the value below. -/
theorem lowerBound_between (hs : xs.Pairwise (· < ·)) (hx : xs[k]? = some x) (hlt : x < v) (hx' : xs[k + 1]? = some x')
    (hle : v ≤ x') : lowerBound xs v = k + 1 := by
  obtain ⟨hk, rfl⟩ := List.getElem?_eq_some_iff.mp hx
  obtain ⟨hk', rfl⟩ := List.getElem?_eq_some_iff.mp hx'
  rw [lowerBound, List.findIdx_eq hk']
  refine ⟨by simpa using hle, fun j hj => ?_⟩
  have hbelow : xs[j] ≤ xs[k] := by
    rcases Nat.eq_or_lt_of_le (Nat.le_of_lt_succ hj) with rfl | hjk
    · exact le_rfl
    · exact (List.pairwise_iff_getElem.mp hs j k _ hk hjk).le
  simpa using hbelow.trans_lt hlt

theorem lowerBound_below (hx : xs[0]? = some x) (hlt : v < x) : lowerBound xs v = 0 := by
  obtain ⟨hk, rfl⟩ := List.getElem?_eq_some_iff.mp hx
  rw [lowerBound, List.findIdx_eq hk]
  exact ⟨by simpa using hlt.le, fun j hj => absurd hj (Nat.not_lt_zero j)⟩

theorem lowerBound_above (h : ∀ x ∈ xs, x < v) : lowerBound xs v = xs.length :=
  List.findIdx_eq_length.mpr fun x hx => by simpa using h x hx

end Lib.SortedTable
