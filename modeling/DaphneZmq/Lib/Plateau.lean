import Mathlib.Data.List.Basic

/-! # Plateaus

A plateau of a list is a range of positions with equal entries. A scan from the left that keeps the longest
plateau so far and the one that it is in finds the leftmost of the longest plateaus. -/

namespace Lib

variable {α : Type} {xs : List α} {a b c d : Nat}

/-- The entries from `a` to `b` are there and equal. -/
structure Plateau (xs : List α) (a b : Nat) : Prop where
  le : a ≤ b
  lt : b < xs.length
  eq : ∀ i, a ≤ i → i ≤ b → xs[i]? = xs[a]?

/-- The leftmost of the longest plateaus. -/
structure LongestPlateau (xs : List α) (a b : Nat) : Prop where
  plateau : Plateau xs a b
  longest : ∀ c d, Plateau xs c d → d - c < b - a ∨ d - c = b - a ∧ a ≤ c

namespace Plateau

theorem single (h : a < xs.length) : Plateau xs a a :=
  ⟨Nat.le_refl a, h, fun i h1 h2 => by rw [Nat.le_antisymm h2 h1]⟩

theorem extend (h : Plateau xs a b) (hlt : b + 1 < xs.length) (heq : xs[b + 1]? = xs[b]?) : Plateau xs a (b + 1) where
  le := Nat.le_succ_of_le h.le
  lt := hlt
  eq i h1 h2 := by
    rcases Nat.lt_or_ge b i with hi | hi
    · rw [show i = b + 1 by omega, heq]
      exact h.eq b h.le (Nat.le_refl b)
    · exact h.eq i h1 hi

/-- No plateau crosses a place where the entries differ. -/
theorem not_cross (h : Plateau xs c d) (hne : xs[a + 1]? ≠ xs[a]?) : d ≤ a ∨ a < c := by
  rcases Nat.lt_or_ge a c with hc | hc
  · exact Or.inr hc
  · refine Or.inl (Nat.le_of_not_lt fun hd => hne ?_)
    rw [h.eq (a + 1) (by omega) hd, h.eq a hc (by omega)]

end Plateau

namespace LongestPlateau

theorem ne_left (h : LongestPlateau xs a b) (ha : 0 < a) : xs[a - 1]? ≠ xs[a]? := fun heq => by
  have hle := h.plateau.le
  have hwider : Plateau xs (a - 1) b := by
    refine ⟨by omega, h.plateau.lt, fun i h1 h2 => ?_⟩
    rcases Nat.eq_or_lt_of_le h1 with rfl | hi
    · rfl
    · rw [heq, h.plateau.eq i (by omega) h2]
  rcases h.longest _ _ hwider with h' | h' <;> omega

theorem ne_right (h : LongestPlateau xs a b) : xs[b + 1]? ≠ xs[b]? := fun heq => by
  have hle := h.plateau.le
  have hlt : b + 1 < xs.length := by
    rw [List.getElem?_eq_getElem h.plateau.lt] at heq
    exact (List.getElem?_eq_some_iff.mp heq).1
  rcases h.longest _ _ (h.plateau.extend hlt heq) with h' | h' <;> omega

theorem unique (h : LongestPlateau xs a b) (h' : LongestPlateau xs c d) : a = c ∧ b = d := by
  have := h.plateau.le
  have := h'.plateau.le
  rcases h.longest _ _ h'.plateau with h1 | h1 <;> rcases h'.longest _ _ h.plateau with h2 | h2 <;> omega

end LongestPlateau

/-- What a scan knows before the position `n`: the plateau from `cur` on reaches `n` and cannot be extended to the
    left, and the plateau of length `len` at `start` is at least as good as any that ends before `cur`. -/
structure Scanned (xs : List α) (n cur start len : Nat) : Prop where
  here : Plateau xs cur (n - 1)
  pos : cur < n
  edge : ∀ c d, Plateau xs c d → d < cur ∨ cur ≤ c
  best : Plateau xs start (start + len - 1)
  len_pos : 0 < len
  start_le : start ≤ cur
  longest : ∀ c d, Plateau xs c d → d < cur → d - c + 1 < len ∨ d - c + 1 = len ∧ start ≤ c

namespace Scanned
variable {n cur start len : Nat}

theorem init (h : 0 < xs.length) : Scanned xs 1 0 0 1 where
  here := .single h
  pos := Nat.one_pos
  edge _ _ _ := Or.inr (Nat.zero_le _)
  best := .single h
  len_pos := Nat.one_pos
  start_le := Nat.le_refl 0
  longest _ _ _ h := absurd h (Nat.not_lt_zero _)

theorem extend (h : Scanned xs n cur start len) (hn : n < xs.length) (heq : xs[n]? = xs[n - 1]?) :
    Scanned xs (n + 1) cur start len := by
  obtain ⟨n, rfl⟩ : ∃ m, n = m + 1 := ⟨n - 1, by have := h.pos; omega⟩
  exact { h with here := h.here.extend hn heq, pos := Nat.lt_succ_of_lt h.pos }

/-- The longest plateau before `n`, once the one that reaches `n` is counted. -/
theorem close (h : Scanned xs n cur start len) {start' len' : Nat}
    (hclose : if len < n - cur then start' = cur ∧ len' = n - cur else start' = start ∧ len' = len) :
    Plateau xs start' (start' + len' - 1) ∧ 0 < len' ∧ start' ≤ cur ∧
      ∀ c d, Plateau xs c d → d < n → d - c + 1 < len' ∨ d - c + 1 = len' ∧ start' ≤ c := by
  have hpos := h.pos
  have hstart := h.start_le
  split at hclose <;> obtain ⟨rfl, rfl⟩ := hclose
  · rename_i hlt
    refine ⟨?_, by omega, Nat.le_refl _, fun c d hcd hd => ?_⟩
    · rw [show start' + (n - start') - 1 = n - 1 by omega]
      exact h.here
    · have hle := hcd.le
      rcases h.edge c d hcd with hedge | hedge
      · rcases h.longest c d hcd hedge with h' | h' <;> omega
      · omega
  · refine ⟨h.best, h.len_pos, hstart, fun c d hcd hd => ?_⟩
    have hle := hcd.le
    rcases h.edge c d hcd with hedge | hedge
    · exact h.longest c d hcd hedge
    · omega

theorem restart (h : Scanned xs n cur start len) (hn : n < xs.length) (hne : xs[n]? ≠ xs[n - 1]?) {start' len' : Nat}
    (hclose : if len < n - cur then start' = cur ∧ len' = n - cur else start' = start ∧ len' = len) :
    Scanned xs (n + 1) n start' len' := by
  obtain ⟨hbest, hlen, hstart, hlongest⟩ := h.close hclose
  have hpos := h.pos
  refine ⟨.single hn, Nat.lt_succ_self n, fun c d hcd => ?_, hbest, hlen, by omega, hlongest⟩
  obtain ⟨n, rfl⟩ : ∃ m, n = m + 1 := ⟨n - 1, by omega⟩
  rcases hcd.not_cross hne with h' | h' <;> omega

theorem finish (h : Scanned xs xs.length cur start len) {start' len' : Nat}
    (hclose : if len < xs.length - cur then start' = cur ∧ len' = xs.length - cur else start' = start ∧ len' = len) :
    LongestPlateau xs start' (start' + len' - 1) := by
  obtain ⟨hbest, hlen, -, hlongest⟩ := h.close hclose
  refine ⟨hbest, fun c d hcd => ?_⟩
  have hle := hcd.le
  rcases hlongest c d hcd hcd.lt with h' | h' <;> omega

end Scanned
end Lib
