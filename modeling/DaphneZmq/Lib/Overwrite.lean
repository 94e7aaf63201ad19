import Mathlib.Data.List.Basic

/-! # Loops whose later rounds overwrite earlier ones

A slot that each round either sets or leaves holds, after the loop, what the last round that sets it has put there. -/

namespace Lib.Overwrite

variable {ε σ α β : Type} {f : σ → α → Except ε σ}

theorem foldlM_get (get : σ → Option β) (put : α → Option β) (hf : ∀ s a t, f s a = .ok t → get t = (put a).or (get s)) :
    ∀ {xs : List α} {s t : σ}, xs.foldlM f s = .ok t → get t = (xs.findSomeRev? put).or (get s) := by
  intro xs
  induction xs with
  | nil =>
    rintro s t ⟨⟩
    rfl
  | cons a xs ih =>
    intro s t h
    rw [List.foldlM_cons] at h
    rcases hround : f s a with e | s'
    · rw [hround] at h
      cases h
    · rw [hround] at h
      rw [ih h, hf s a s' hround]
      simp only [List.findSomeRev?_eq_findSome?_reverse, List.reverse_cons, List.findSome?_append, Option.or_assoc]
      congr 2
      simp

/-- A loop whose rounds all return returns. -/
theorem exists_foldlM {xs : List α} (h : ∀ a ∈ xs, ∀ s, ∃ t, f s a = .ok t) (s : σ) : ∃ t, xs.foldlM f s = .ok t := by
  induction xs generalizing s with
  | nil => exact ⟨s, rfl⟩
  | cons a xs ih =>
    obtain ⟨s', hs'⟩ := h a (List.mem_cons_self ..) s
    rw [List.foldlM_cons, hs']
    exact ih (fun b hb => h b (List.mem_cons_of_mem a hb)) s'

/-! ### The last element that qualifies -/

variable {p : α → Bool} {xs : List α}

theorem findSomeRev?_ite (v : α → β) : xs.findSomeRev? (fun a => if p a then some (v a) else none) = (xs.findRev? p).map v := by
  induction xs with
  | nil => rfl
  | cons a xs ih =>
    simp only [List.findSomeRev?, List.findRev?, ih]
    cases xs.findRev? p with
    | some b => rfl
    | none => cases p a <;> rfl

theorem map_findSomeRev? {γ : Type} (g : β → γ) (put : α → Option β) :
    (xs.findSomeRev? put).map g = xs.findSomeRev? fun a => (put a).map g := by
  rw [List.findSomeRev?_eq_findSome?_reverse, List.findSomeRev?_eq_findSome?_reverse, List.map_findSome?]
  rfl

theorem isSome_findRev? : (xs.findRev? p).isSome = xs.any p := by
  rw [List.findRev?_eq_find?_reverse, Bool.eq_iff_iff, List.find?_isSome, List.any_eq_true]
  simp only [List.mem_reverse]

theorem of_findSomeRev? {put : α → Option β} {b : β} (h : xs.findSomeRev? put = some b) : ∃ a ∈ xs, put a = some b := by
  rw [List.findSomeRev?_eq_findSome?_reverse] at h
  obtain ⟨a, ha, hput⟩ := List.exists_of_findSome?_eq_some h
  exact ⟨a, List.mem_reverse.mp ha, hput⟩

theorem of_findRev? {a : α} (h : xs.findRev? p = some a) : a ∈ xs ∧ p a := by
  rw [List.findRev?_eq_find?_reverse] at h
  exact ⟨List.mem_reverse.mp (List.mem_of_find?_eq_some h), List.find?_some h⟩

/-! ### The last value of a key -/

section Pairs
variable {κ ν : Type} [DecidableEq κ] {l l' : List (κ × ν)} {k : κ} {v : ν}

def lastOf (l : List (κ × ν)) (k : κ) : Option ν := (l.findRev? fun a => a.1 = k).map Prod.snd

theorem lastOf_append : lastOf (l ++ l') k = (lastOf l' k).or (lastOf l k) := by
  rw [lastOf, lastOf, lastOf, List.findRev?_eq_find?_reverse, List.findRev?_eq_find?_reverse, List.findRev?_eq_find?_reverse,
    List.reverse_append, List.find?_append, Option.map_or]

theorem lastOf_singleton (a : κ × ν) : lastOf [a] k = if a.1 = k then some a.2 else none := by
  by_cases h : a.1 = k <;> simp [lastOf, List.findRev?, h]

theorem mem_of_lastOf (h : lastOf l k = some v) : (k, v) ∈ l := by
  obtain ⟨a, ha, rfl⟩ := Option.map_eq_some_iff.mp h
  obtain ⟨hmem, hk⟩ := of_findRev? ha
  exact of_decide_eq_true hk ▸ hmem

theorem lastOf_none (h : ∀ w, (k, w) ∉ l) : lastOf l k = none := by
  rcases hlast : lastOf l k with - | w
  · rfl
  · exact absurd (mem_of_lastOf hlast) (h w)

theorem exists_lastOf (hmem : (k, v) ∈ l) : ∃ w, lastOf l k = some w := by
  rcases hlast : lastOf l k with - | w
  · rw [lastOf, List.findRev?_eq_find?_reverse] at hlast
    have hnone := List.find?_eq_none.mp (Option.map_eq_none_iff.mp hlast) (k, v) (List.mem_reverse.mpr hmem)
    exact absurd (decide_eq_true rfl) hnone
  · exact ⟨w, rfl⟩

theorem lastOf_unique (hmem : (k, v) ∈ l) (hunique : ∀ w, (k, w) ∈ l → w = v) : lastOf l k = some v := by
  obtain ⟨w, hw⟩ := exists_lastOf hmem
  rw [hw, hunique w (mem_of_lastOf hw)]

end Pairs

end Lib.Overwrite
