import Mathlib.Data.List.Basic

/-! # Programs with checked indices

A program reads arrays at indices that the language does not check. Here an index outside the array is a fault;
an exception that the program throws is none. `Safe` says that a program does not fault, and what it returns. -/

namespace Lib.Checked

inductive Fault
  | outOfRange
  | thrown (what : String)
  deriving DecidableEq

abbrev Prog (α : Type) := Except Fault α

variable {α β γ : Type} {R : α → Prop}

def read (xs : List α) (i : Int) : Prog α :=
  if 0 ≤ i then
    match xs[i.toNat]? with
    | some x => pure x
    | none => throw .outOfRange
  else
    throw .outOfRange

/-- `start`, …, `stop - 1` -/
def indices (start stop : Int) : List Int := (List.range (stop - start).toNat).map fun k : Nat => start + (k : Int)

/-- The program does not fault, and what it returns is as `R` says. -/
inductive Safe (R : α → Prop) : Prog α → Prop
  | ok {a : α} (h : R a) : Safe R (.ok a)
  | thrown (what : String) : Safe R (.error (.thrown what))

namespace Safe

theorem ne_outOfRange {m : Prog α} (h : Safe R m) : m ≠ .error .outOfRange := by
  rintro rfl
  cases h

theorem of_ok {m : Prog α} (h : Safe R m) {a : α} (hm : m = .ok a) : R a := by
  subst hm
  cases h with | ok h => exact h

theorem pure {a : α} (h : R a) : Safe R (Pure.pure a) := .ok h

theorem mono {m : Prog α} {R' : α → Prop} (h : Safe R m) (hR : ∀ a, R a → R' a) : Safe R' m := by
  cases h with
  | ok h => exact .ok (hR _ h)
  | thrown what => exact .thrown what

theorem bind {m : Prog α} {f : α → Prog β} {R' : β → Prop} (h : Safe R m) (hf : ∀ a, R a → Safe R' (f a)) : Safe R' (m >>= f) := by
  cases h with
  | ok h => exact hf _ h
  | thrown what => exact .thrown what

theorem read {xs : List α} {i : Int} (h0 : 0 ≤ i) (hlt : i < xs.length) : Safe (fun _ => True) (read xs i) := by
  rw [Checked.read, if_pos h0, List.getElem?_eq_getElem (by omega)]
  exact .ok trivial

theorem mapM {f : γ → Prog α} : ∀ {xs : List γ}, (∀ x ∈ xs, Safe R (f x)) →
    Safe (fun as : List α => as.length = xs.length ∧ ∀ a ∈ as, R a) (xs.mapM f)
  | [], _ => .ok ⟨rfl, by simp⟩
  | x :: xs, h => by
    rw [List.mapM_cons]
    refine (h x (List.mem_cons_self ..)).bind fun a ha => (mapM fun y hy => h y (List.mem_cons_of_mem x hy)).bind fun as has => ?_
    refine .ok ⟨by rw [List.length_cons, List.length_cons, has.1], fun b hb => ?_⟩
    rcases List.mem_cons.mp hb with rfl | hb
    · exact ha
    · exact has.2 b hb

end Safe

theorem read_cases (xs : List α) (i : Int) : (∃ x, read xs i = .ok x) ∨ read xs i = .error .outOfRange := by
  unfold read
  split
  · split
    · exact Or.inl ⟨_, rfl⟩
    · exact Or.inr rfl
  · exact Or.inr rfl

/-- A loop of reads faults if one of them does. -/
theorem mapM_eq_outOfRange {f : γ → Prog α} : ∀ {xs : List γ}, (∀ x ∈ xs, (∃ a, f x = .ok a) ∨ f x = .error .outOfRange) →
    (∃ x ∈ xs, f x = .error .outOfRange) → xs.mapM f = .error .outOfRange
  | [], _, ⟨x, hx, _⟩ => absurd hx List.not_mem_nil
  | x :: xs, hall, ⟨y, hy, hfault⟩ => by
    rw [List.mapM_cons]
    rcases hall x (List.mem_cons_self ..) with ⟨a, ha⟩ | hx
    · have hy' : y ∈ xs := by
        rcases List.mem_cons.mp hy with rfl | hy
        · rw [ha] at hfault
          cases hfault
        · exact hy
      rw [ha, mapM_eq_outOfRange (fun z hz => hall z (List.mem_cons_of_mem x hz)) ⟨y, hy', hfault⟩]
      rfl
    · rw [hx]
      rfl

theorem read_ok {xs : List α} {i : Nat} {x : α} (h : xs[i]? = some x) : read xs i = .ok x := by
  rw [read, if_pos (Int.natCast_nonneg i), Int.toNat_natCast, h]
  rfl

theorem read_past {xs : List α} {i : Nat} (h : xs.length ≤ i) : read xs i = .error .outOfRange := by
  rw [read, if_pos (Int.natCast_nonneg i), Int.toNat_natCast, List.getElem?_eq_none h]
  rfl

theorem mapM_ok {f : γ → Prog α} {g : γ → α} : ∀ {xs : List γ}, (∀ x ∈ xs, f x = .ok (g x)) → xs.mapM f = .ok (xs.map g)
  | [], _ => rfl
  | x :: xs, h => by
    rw [List.mapM_cons, h x List.mem_cons_self, mapM_ok fun y hy => h y (List.mem_cons_of_mem x hy)]
    rfl

end Lib.Checked
