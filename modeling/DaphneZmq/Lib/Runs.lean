import Mathlib.Data.List.Basic
import Mathlib.Tactic.TypeStar

/-! # Runs of a labelled transition system

A run lists the labels of its steps. Some labels are *free* (a wake-up that changes nothing): they may
raise the measure by one, every other step lowers it. So a run without free steps is bounded by the
measure, and each free step pays for itself and for one step that undoes it. -/

namespace Lib

variable {σ ℓ : Type*} {step : σ → ℓ → σ → Prop}

/-- A finite run of `step`, with the labels of its steps in order. -/
inductive Run (step : σ → ℓ → σ → Prop) : σ → List ℓ → σ → Prop
  | nil (s : σ) : Run step s [] s
  | cons {s t u : σ} {l : ℓ} {ls : List ℓ} : step s l t → Run step t ls u → Run step s (l :: ls) u

namespace Run

theorem single {s t : σ} {l : ℓ} (h : step s l t) : Run step s [l] t := .cons h (.nil t)

/-- What holds at the start and is kept by every step holds at the end of a run. -/
theorem invariant {Inv : σ → Prop} (keep : ∀ {s l t}, Inv s → step s l t → Inv t) {s t : σ} {ls : List ℓ}
    (h : Run step s ls t) (hs : Inv s) : Inv t := by
  induction h with
  | nil => exact hs
  | cons hstep _ ih => exact ih (keep hs hstep)

/-- Where every step is a step of another system, every run is a run of it. -/
theorem exists_run {τ : Type*} {step' : τ → ℓ → τ → Prop} {R : σ → τ → Prop}
    (keep : ∀ {s l t a}, R s a → step s l t → ∃ b, step' a l b ∧ R t b) {s t : σ} {ls : List ℓ} (h : Run step s ls t) :
    ∀ {a : τ}, R s a → ∃ b, Run step' a ls b ∧ R t b := by
  induction h with
  | nil => exact fun hR => ⟨_, .nil _, hR⟩
  | cons hstep _ ih =>
    intro a hR
    obtain ⟨b, hb, hR'⟩ := keep hR hstep
    obtain ⟨c, hrun, hc⟩ := ih hR'
    exact ⟨c, .cons hb hrun, hc⟩

/-- The length of a run is bounded by the measure and the number of its free steps. -/
theorem length_le {Inv : σ → Prop} {μ : σ → Nat} {free : ℓ → Bool}
    (keep : ∀ {s l t}, Inv s → step s l t → Inv t)
    (work : ∀ {s l t}, Inv s → step s l t → free l = false → μ t < μ s)
    (idle : ∀ {s l t}, Inv s → step s l t → free l = true → μ t ≤ μ s + 1)
    {s t : σ} {ls : List ℓ} (h : Run step s ls t) (hs : Inv s) :
    ls.length ≤ μ s + 2 * ls.countP free := by
  induction h with
  | nil => simp
  | @cons s t u l ls hstep _ ih =>
    have := ih (keep hs hstep)
    cases hl : free l
    · have := work hs hstep hl
      rw [List.length_cons, List.countP_cons_of_neg (by simp [hl])]
      omega
    · have := idle hs hstep hl
      rw [List.length_cons, List.countP_cons_of_pos (by simp [hl])]
      omega

/-- Where every state takes some step that is not free, runs without free steps grow without bound. -/
theorem exists_length {Inv : σ → Prop} {free : ℓ → Bool} (keep : ∀ {s l t}, Inv s → step s l t → Inv t)
    (progress : ∀ {s}, Inv s → ∃ l t, free l = false ∧ step s l t) (n : Nat) :
    ∀ {s}, Inv s → ∃ ls t, Run step s ls t ∧ ls.length = n ∧ ls.countP free = 0 := by
  induction n with
  | zero => exact fun {s} _ => ⟨[], s, .nil s, rfl, rfl⟩
  | succ n ih =>
    intro s hs
    obtain ⟨l, t, hl, hstep⟩ := progress hs
    obtain ⟨ls, u, hrun, hlen, hfree⟩ := ih (keep hs hstep)
    refine ⟨l :: ls, u, .cons hstep hrun, by simp [hlen], ?_⟩
    rw [List.countP_cons_of_neg (by simp [hl]), hfree]

/-- Where the measure falls, every state runs to one that only free steps leave. -/
theorem exists_stuck {Inv : σ → Prop} {μ : σ → Nat} {free : ℓ → Bool}
    (keep : ∀ {s l t}, Inv s → step s l t → Inv t)
    (work : ∀ {s l t}, Inv s → step s l t → free l = false → μ t < μ s) {s : σ} (hs : Inv s) :
    ∃ ls t, Run step s ls t ∧ ∀ l u, step t l u → free l = true := by
  induction hn : μ s using Nat.strongRecOn generalizing s with
  | ind n ih =>
    subst hn
    by_cases hstuck : ∀ l u, step s l u → free l = true
    · exact ⟨[], s, .nil s, hstuck⟩
    · push Not at hstuck
      obtain ⟨l, t, hstep, hl⟩ := hstuck
      obtain ⟨ls, u, hrun, hu⟩ := ih _ (work hs hstep (by simpa using hl)) (keep hs hstep) rfl
      exact ⟨l :: ls, u, .cons hstep hrun, hu⟩

end Run
end Lib
