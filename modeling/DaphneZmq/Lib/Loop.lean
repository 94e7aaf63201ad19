import Mathlib.Tactic.TypeStar

/-! # Loops

A `while` loop with a bound on its rounds. One that counts its rounds, with an invariant for each number of rounds, ends
within any bound that is large enough. -/

namespace Lib

variable {σ : Type*}

/-- The state after the loop, if it ends within `fuel` rounds. -/
def loop (cond : σ → Bool) (body : σ → σ) : Nat → σ → Option σ
  | 0, s => if cond s then none else some s
  | fuel + 1, s => if cond s then loop cond body fuel (body s) else some s

variable {cond : σ → Bool} {body : σ → σ}

theorem loop_of_not {s : σ} (h : cond s = false) : ∀ fuel, loop cond body fuel s = some s
  | 0 => by simp [loop, h]
  | _ + 1 => by simp [loop, h]

theorem loop_of_cond {s : σ} (h : cond s = true) (fuel : Nat) : loop cond body (fuel + 1) s = loop cond body fuel (body s) := by
  simp [loop, h]

/-- A loop of `rounds` rounds. -/
theorem loop_counted (Inv : Nat → σ → Prop) {rounds : Nat} (guard : ∀ k s, k ≤ rounds → Inv k s → (cond s = true ↔ k < rounds))
    (step : ∀ k s, k < rounds → Inv k s → Inv (k + 1) (body s)) :
    ∀ {fuel k : Nat} {s : σ}, Inv k s → k ≤ rounds → rounds ≤ k + fuel → ∃ t, loop cond body fuel s = some t ∧ Inv rounds t := by
  intro fuel
  induction fuel with
  | zero =>
    intro k s hs hle hfuel
    have hk : k = rounds := by omega
    subst hk
    refine ⟨s, loop_of_not ?_ 0, hs⟩
    exact Bool.eq_false_iff.mpr fun hc => Nat.lt_irrefl k ((guard k s hle hs).mp hc)
  | succ fuel ih =>
    intro k s hs hle hfuel
    by_cases hk : k < rounds
    · rw [loop_of_cond ((guard k s hle hs).mpr hk)]
      exact ih (step k s hk hs) hk (by omega)
    · have hk : k = rounds := by omega
      subst hk
      refine ⟨s, loop_of_not ?_ _, hs⟩
      exact Bool.eq_false_iff.mpr fun hc => Nat.lt_irrefl k ((guard k s hle hs).mp hc)

end Lib
