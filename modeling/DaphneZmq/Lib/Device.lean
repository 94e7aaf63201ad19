import Mathlib.Tactic.Ring

/-! # Programs that access registers

A program reads and writes words at addresses and keeps a driver state of its own. Some registers are driven
by the hardware, and a read takes the next value of a trace; the others are cells. Each access may throw, and
the accesses are counted, so that a trace says of the `n`-th one whether it does.

`Takes` says of a program that it makes `n` accesses unless one of them throws, what it then returns, and what
it does to the state, also when it is cut off: an effect, that is a preorder on states. -/

namespace Lib.Device

/-! ### Preconditions -/

section Wp
variable {ε σ α β : Type}

/-- Run from `s`, the program returns as `Q` says or throws as `E` says. -/
def wp (m : EStateM ε σ α) (Q : α → σ → Prop) (E : ε → σ → Prop) (s : σ) : Prop :=
  match m s with
  | .ok a t => Q a t
  | .error e t => E e t

theorem wp_ok {m : EStateM ε σ α} {Q : α → σ → Prop} {E : ε → σ → Prop} {s t : σ} {a : α} (h : wp m Q E s) (hm : m s = .ok a t) :
    Q a t := by rwa [wp, hm] at h

theorem wp_error {m : EStateM ε σ α} {Q : α → σ → Prop} {E : ε → σ → Prop} {s t : σ} {e : ε} (h : wp m Q E s)
    (hm : m s = .error e t) : E e t := by rwa [wp, hm] at h

theorem wp_pure (a : α) {Q : α → σ → Prop} {E : ε → σ → Prop} {s : σ} : wp (pure a) Q E s ↔ Q a s := Iff.rfl

theorem wp_bind {m : EStateM ε σ α} {f : α → EStateM ε σ β} {Q : β → σ → Prop} {E : ε → σ → Prop} {s : σ} :
    wp (m >>= f) Q E s ↔ wp m (fun a t => wp (f a) Q E t) E s := by
  simp only [wp, bind, EStateM.bind]
  cases m s <;> rfl

/-- A program that returns goes on with the rest. -/
theorem bind_ok {m : EStateM ε σ α} {f : α → EStateM ε σ β} {a : α} {s t : σ} (h : m s = .ok a t) : (m >>= f) s = f a t := by
  simp only [bind, EStateM.bind, h]

/-- A program that throws leaves out the rest. -/
theorem bind_error {m : EStateM ε σ α} {f : α → EStateM ε σ β} {e : ε} {s t : σ} (h : m s = .error e t) :
    (m >>= f) s = .error e t := by
  simp only [bind, EStateM.bind, h]

theorem bind_eq_ok {m : EStateM ε σ α} {f : α → EStateM ε σ β} {b : β} {s u : σ} (h : (m >>= f) s = .ok b u) :
    ∃ a t, m s = .ok a t ∧ f a t = .ok b u := by
  simp only [bind, EStateM.bind] at h
  cases hm : m s with
  | error e t =>
    rw [hm] at h
    cases h
  | ok a t =>
    rw [hm] at h
    exact ⟨a, t, rfl, h⟩

theorem wp_mono {m : EStateM ε σ α} {Q Q' : α → σ → Prop} {E E' : ε → σ → Prop} {s : σ} (h : wp m Q E s)
    (hQ : ∀ a t, Q a t → Q' a t) (hE : ∀ e t, E e t → E' e t) : wp m Q' E' s := by
  unfold wp at h ⊢
  split at h
  · exact hQ _ _ h
  · exact hE _ _ h

theorem wp_and {m : EStateM ε σ α} {Q Q' : α → σ → Prop} {E E' : ε → σ → Prop} {s : σ} (h : wp m Q E s)
    (h' : wp m Q' E' s) : wp m (fun a t => Q a t ∧ Q' a t) (fun e t => E e t ∧ E' e t) s := by
  unfold wp at h h' ⊢
  cases hm : m s with
  | ok a t =>
    rw [hm] at h h'
    exact ⟨h, h'⟩
  | error e t =>
    rw [hm] at h h'
    exact ⟨h, h'⟩

end Wp

/-! ### Waits -/

/-- The first number that has a property: the poll at which a wait ends. -/
structure First (p : Nat → Prop) (k : Nat) : Prop where
  holds : p k
  not_before : ∀ j < k, ¬p j

namespace First
variable {p : Nat → Prop} {k j : Nat}

theorem unique (hk : First p k) (hj : First p j) : k = j := by
  rcases Nat.lt_trichotomy k j with h | h | h
  · exact absurd hk.holds (hj.not_before k h)
  · exact h
  · exact absurd hj.holds (hk.not_before j h)

theorem tail (h : First p (k + 1)) : First (fun j => p (j + 1)) k :=
  ⟨h.holds, fun j hj => h.not_before (j + 1) (Nat.succ_lt_succ hj)⟩

theorem exists_or (p : Nat → Prop) (n : Nat) : (∃ k ≤ n, First p k) ∨ ∀ j ≤ n, ¬p j := by
  induction n with
  | zero =>
    by_cases h : p 0
    · exact Or.inl ⟨0, Nat.le_refl 0, h, fun j hj => absurd hj (Nat.not_lt_zero j)⟩
    · exact Or.inr fun j hj => by rwa [Nat.le_zero.mp hj]
  | succ n ih =>
    rcases ih with ⟨k, hk, hfirst⟩ | hnot
    · exact Or.inl ⟨k, Nat.le_succ_of_le hk, hfirst⟩
    · by_cases h : p (n + 1)
      · exact Or.inl ⟨n + 1, Nat.le_refl _, h, fun j hj => hnot j (Nat.le_of_lt_succ hj)⟩
      · refine Or.inr fun j hj => ?_
        rcases Nat.le_succ_iff.mp hj with hj | rfl
        · exact hnot j hj
        · exact h

end First

/-! ### Accesses -/

/-- A write: the cells and the numbers of reads before it, the address and the word. -/
structure Write (A W : Type) where
  before : A → W
  reads : A → Nat
  address : A
  word : W

/-- What a program does not choose. -/
structure Env (A W : Type) where
  /-- The text of the exception that the `n`-th access throws, if it throws. -/
  faults : Nat → Option String
  /-- The values that the successive reads of a register give, if the hardware drives it. They can depend on the
      writes before. -/
  driven : A → Option (List (Write A W) → Nat → W)
  /-- How often a wait that begins at the `n`-th access polls before its deadline, the first time not counted. -/
  polls : Nat → Nat

structure State (A W D : Type) where
  cells : A → W
  /-- How often each register has been read, if the hardware drives it. -/
  reads : A → Nat
  accesses : Nat
  writes : List (Write A W)
  driver : D

abbrev Prog (A W D α : Type) := EStateM String (State A W D) α

section Attempt
variable {A W D α : Type} {m : Prog A W D α} {s t : State A W D}

/-- The program, with what it throws as a value. -/
def attempt (m : Prog A W D α) : Prog A W D (Except String α) := fun s =>
  match m s with
  | .ok a t => .ok (.ok a) t
  | .error e t => .ok (.error e) t

theorem attempt_ok {a : α} (h : m s = .ok a t) : attempt m s = .ok (.ok a) t := by rw [attempt, h]

theorem attempt_error {e : String} (h : m s = .error e t) : attempt m s = .ok (.error e) t := by rw [attempt, h]

end Attempt

section Access
variable {A W D : Type} [DecidableEq A]

def State.tick (s : State A W D) : State A W D := { s with accesses := s.accesses + 1 }

def State.afterWrite (s : State A W D) (a : A) (w : W) : State A W D :=
  { s with
    cells := Function.update s.cells a w
    accesses := s.accesses + 1
    writes := s.writes ++ [⟨s.cells, s.reads, a, w⟩] }

@[simp] theorem State.afterWrite_reads (s : State A W D) (a : A) (w : W) : (s.afterWrite a w).reads = s.reads := rfl

@[simp] theorem State.afterWrite_driver (s : State A W D) (a : A) (w : W) : (s.afterWrite a w).driver = s.driver := rfl

@[simp] theorem State.afterWrite_cells (s : State A W D) (a : A) (w : W) :
    (s.afterWrite a w).cells = Function.update s.cells a w := rfl

/-- The state after a read of a register that the hardware drives. -/
def State.afterRead (s : State A W D) (a : A) : State A W D :=
  { s with reads := Function.update s.reads a (s.reads a + 1), accesses := s.accesses + 1 }

@[simp] theorem State.afterRead_cells (s : State A W D) (a : A) : (s.afterRead a).cells = s.cells := rfl

@[simp] theorem State.afterRead_driver (s : State A W D) (a : A) : (s.afterRead a).driver = s.driver := rfl

@[simp] theorem State.afterRead_reads (s : State A W D) (a : A) :
    (s.afterRead a).reads = Function.update s.reads a (s.reads a + 1) := rfl

def getDriver : Prog A W D D := fun s => .ok s.driver s

/-- The program, with the text of what it throws changed. -/
def rethrow {α : Type} (f : String → String) (m : Prog A W D α) : Prog A W D α := fun s =>
  match m s with
  | .ok a t => .ok a t
  | .error e t => .error (f e) t

def modifyDriver (f : D → D) : Prog A W D Unit := fun s => .ok () { s with driver := f s.driver }

variable (env : Env A W)

def read (a : A) : Prog A W D W := fun s =>
  match env.faults s.accesses with
  | some e => .error e s.tick
  | none =>
    match env.driven a with
    | none => .ok (s.cells a) s.tick
    | some values => .ok (values s.writes (s.reads a)) (s.afterRead a)

def write (a : A) (w : W) : Prog A W D Unit := fun s =>
  match env.faults s.accesses with
  | some e => .error e s.tick
  | none => .ok () (s.afterWrite a w)

variable {env}

theorem wp_read_cell {a : A} (hcell : env.driven a = none) {Q : W → State A W D → Prop} {E : String → State A W D → Prop}
    {s : State A W D} : wp (read env a) Q E s ↔
      match env.faults s.accesses with
      | some e => E e s.tick
      | none => Q (s.cells a) s.tick := by
  unfold wp read
  rw [hcell]
  cases env.faults s.accesses <;> rfl

theorem wp_write {a : A} {w : W} {Q : Unit → State A W D → Prop} {E : String → State A W D → Prop} {s : State A W D} :
    wp (write env a w) Q E s ↔
      match env.faults s.accesses with
      | some e => E e s.tick
      | none => Q () (s.afterWrite a w) := by
  unfold wp write
  cases env.faults s.accesses <;> rfl

/-! Accesses that do not throw. -/

section Quiet
variable (hfaults : ∀ n, env.faults n = none)
include hfaults

theorem read_cell_eq {a : A} (hcell : env.driven a = none) (s : State A W D) : read env a s = .ok (s.cells a) s.tick := by
  rw [read, hfaults, hcell]

theorem read_driven_eq {a : A} {values : List (Write A W) → Nat → W} (hdriven : env.driven a = some values)
    (s : State A W D) : read env a s = .ok (values s.writes (s.reads a)) (s.afterRead a) := by
  rw [read, hfaults, hdriven]

theorem write_eq (a : A) (w : W) (s : State A W D) : write env a w s = .ok () (s.afterWrite a w) := by
  rw [write, hfaults]

end Quiet
end Access

/-! ### Counted programs -/

section Takes
variable {A W D α β : Type}

/-- None of `n` accesses from the `a`-th on throws. -/
def Env.Clear (env : Env A W) (a n : Nat) : Prop := ∀ k < n, env.faults (a + k) = none

/-- A preorder on states: what a program may do to the state. -/
structure Effect (A W D : Type) where
  Rel : State A W D → State A W D → Prop
  refl : ∀ s, Rel s s
  trans : ∀ {s t u}, Rel s t → Rel t u → Rel s u
  tick : ∀ s, Rel s s.tick

variable {env : Env A W} {G : Effect A W D}

/-- The program was cut off within its first `n` accesses. -/
def Broke (env : Env A W) (s : State A W D) (n : Nat) (t : State A W D) : Prop :=
  ∃ k < n, env.Clear s.accesses k ∧ env.faults (s.accesses + k) ≠ none ∧ t.accesses = s.accesses + k + 1

/-- The program makes `n` accesses and returns as `R` says, or is cut off by one that throws; what it does to the
    state is in the effect `G`. -/
structure Takes (env : Env A W) (G : Effect A W D) (n : Nat) (m : Prog A W D α) (R : α → State A W D → Prop)
    (s : State A W D) : Prop where
  run : wp m (fun a t => t.accesses = s.accesses + n ∧ env.Clear s.accesses n ∧ G.Rel s t ∧ R a t)
    (fun _ t => Broke env s n t ∧ G.Rel s t) s

theorem Env.Clear.append {a n m : Nat} (h : env.Clear a n) (h' : env.Clear (a + n) m) : env.Clear a (n + m) := by
  intro k hk
  by_cases hn : k < n
  · exact h k hn
  · have := h' (k - n) (by omega)
    rwa [show a + n + (k - n) = a + k by omega] at this

theorem Env.Clear.mono {a n m : Nat} (h : env.Clear a n) (hle : m ≤ n) : env.Clear a m := fun k hk => h k (by omega)

theorem Env.Clear.drop {a n m : Nat} (h : env.Clear a (n + m)) : env.Clear (a + n) m := by
  intro k hk
  rw [Nat.add_assoc]
  exact h (n + k) (by omega)

theorem Broke.not_clear {s t : State A W D} {n : Nat} (h : Broke env s n t) : ¬env.Clear s.accesses n := by
  obtain ⟨k, hk, -, hf, -⟩ := h
  exact fun hc => hf (hc k hk)

theorem Broke.append {s t u : State A W D} {n m : Nat} (ht : t.accesses = s.accesses + n) (hc : env.Clear s.accesses n)
    (h : Broke env t m u) : Broke env s (n + m) u := by
  obtain ⟨k, hk, hck, hf, hu⟩ := h
  rw [ht] at hck hf hu
  exact ⟨n + k, by omega, hc.append hck, by rwa [← Nat.add_assoc], by omega⟩

theorem Broke.mono {s t : State A W D} {n m : Nat} (h : Broke env s n t) (hle : n ≤ m) : Broke env s m t := by
  obtain ⟨k, hk, h⟩ := h
  exact ⟨k, by omega, h⟩

theorem takes_pure (a : α) {s : State A W D} {R : α → State A W D → Prop} (h : R a s) : Takes env G 0 (pure a) R s :=
  ⟨⟨rfl, fun _ hk => absurd hk (Nat.not_lt_zero _), G.refl s, h⟩⟩

theorem Takes.mono {n : Nat} {m : Prog A W D α} {R R' : α → State A W D → Prop} {s : State A W D}
    (h : Takes env G n m R s) (hR : ∀ a t, R a t → R' a t) : Takes env G n m R' s :=
  ⟨wp_mono h.run (fun a t ⟨h1, h2, h3, h4⟩ => ⟨h1, h2, h3, hR a t h4⟩) fun _ _ h => h⟩

theorem Takes.bind {n k : Nat} {m : Prog A W D α} {f : α → Prog A W D β} {R : α → State A W D → Prop}
    {R' : β → State A W D → Prop} {s : State A W D} (h : Takes env G n m R s)
    (h' : ∀ a t, R a t → Takes env G k (f a) R' t) : Takes env G (n + k) (m >>= f) R' s := by
  refine ⟨wp_bind.mpr (wp_mono h.run ?_ ?_)⟩
  · rintro a t ⟨ht, hc, hG, hR⟩
    refine wp_mono (h' a t hR).run ?_ ?_
    · rintro b u ⟨hu, hc', hG', hR'⟩
      exact ⟨by omega, hc.append (ht ▸ hc'), G.trans hG hG', hR'⟩
    · rintro e u ⟨hbroke, hG'⟩
      exact ⟨hbroke.append ht hc, G.trans hG hG'⟩
  · rintro e t ⟨hbroke, hG⟩
    exact ⟨hbroke.mono (Nat.le_add_right _ _), hG⟩

/-- The rounds of a loop over `0`, …, `r - 1` that collects what they return; `J` is its invariant. -/
theorem takes_mapM_range {n : Nat} {f : Nat → Prog A W D α} (J : Nat → List α → State A W D → Prop) {s : State A W D}
    (hJ : J 0 [] s) : ∀ {r : Nat},
      (∀ i < r, ∀ as t, J i as t → Takes env G n (f i) (fun a u => J (i + 1) (as ++ [a]) u) t) →
      Takes env G (r * n) ((List.range r).mapM f) (J r) s
  | 0, _ => by
    rw [Nat.zero_mul]
    exact takes_pure [] hJ
  | r + 1, h => by
    rw [List.range_succ, List.mapM_append, Nat.succ_mul]
    refine (takes_mapM_range J hJ fun i hi => h i (by omega)).bind fun as t ht => ?_
    rw [List.mapM_cons, List.mapM_nil, bind_assoc, ← Nat.add_zero n]
    refine (h r (Nat.lt_succ_self r) as t ht).bind fun a u hu => ?_
    exact takes_pure _ hu

theorem Takes.coarsen {G' : Effect A W D} {n : Nat} {m : Prog A W D α} {R : α → State A W D → Prop} {s : State A W D}
    (h : Takes env G n m R s) (hG : ∀ t, G.Rel s t → G'.Rel s t) : Takes env G' n m R s :=
  ⟨wp_mono h.run (fun _ t ⟨h1, h2, h3, h4⟩ => ⟨h1, h2, hG t h3, h4⟩) fun _ t ⟨h1, h2⟩ => ⟨h1, hG t h2⟩⟩

/-- What a program returns may be said together with its effect and its accesses. -/
theorem Takes.keep {n : Nat} {m : Prog A W D α} {R : α → State A W D → Prop} {s : State A W D}
    (h : Takes env G n m R s) : Takes env G n m (fun a t => R a t ∧ G.Rel s t ∧ t.accesses = s.accesses + n) s :=
  ⟨wp_mono h.run (fun _ _ ⟨h1, h2, h3, h4⟩ => ⟨h1, h2, h3, h4, h3, h1⟩) fun _ _ h => h⟩

/-- What is said of a program that returns may name its run. -/
theorem Takes.returned {n : Nat} {m : Prog A W D α} {R : α → State A W D → Prop} {s : State A W D}
    (h : Takes env G n m R s) : Takes env G n m (fun a t => R a t ∧ m s = .ok a t) s := by
  have hrun := h.run
  refine ⟨?_⟩
  unfold wp at hrun ⊢
  cases hm : m s with
  | error e t =>
    rw [hm] at hrun
    exact hrun
  | ok a t =>
    rw [hm] at hrun
    obtain ⟨haccesses, hclear, hG, hR⟩ := hrun
    exact ⟨haccesses, hclear, hG, hR, rfl⟩

/-- A program whose accesses do not throw returns. -/
theorem Takes.exists_ok {n : Nat} {m : Prog A W D α} {R : α → State A W D → Prop} {s : State A W D}
    (h : Takes env G n m R s) (hclear : env.Clear s.accesses n) : ∃ a t, m s = .ok a t ∧ R a t := by
  have hrun := h.run
  unfold wp at hrun
  cases hm : m s with
  | error e t =>
    rw [hm] at hrun
    exact absurd hclear hrun.1.not_clear
  | ok a t =>
    rw [hm] at hrun
    exact ⟨a, t, rfl, hrun.2.2.2⟩

theorem takes_modifyDriver {f : D → D} {R : Unit → State A W D → Prop} {s : State A W D}
    (hG : G.Rel s { s with driver := f s.driver }) (h : R () { s with driver := f s.driver }) :
    Takes env G 0 (modifyDriver f) R s :=
  ⟨⟨rfl, fun _ hk => absurd hk (Nat.not_lt_zero _), hG, h⟩⟩

variable [DecidableEq A]

theorem takes_read_cell {a : A} (hcell : env.driven a = none) {R : W → State A W D → Prop} {s : State A W D}
    (h : R (s.cells a) s.tick) : Takes env G 1 (read env a) R s := by
  refine ⟨?_⟩
  unfold wp read
  cases hf : env.faults s.accesses with
  | some e => exact ⟨⟨0, Nat.one_pos, fun _ hk => absurd hk (Nat.not_lt_zero _), by simp [hf], rfl⟩, G.tick s⟩
  | none =>
    rw [hcell]
    exact ⟨rfl, fun k hk => by rwa [Nat.lt_one_iff.mp hk], G.tick s, h⟩

theorem takes_read_driven {a : A} {values : List (Write A W) → Nat → W} (hdriven : env.driven a = some values) {R : W → State A W D → Prop}
    {s : State A W D} (hG : G.Rel s (s.afterRead a)) (h : R (values s.writes (s.reads a)) (s.afterRead a)) :
    Takes env G 1 (read env a) R s := by
  refine ⟨?_⟩
  unfold wp read
  cases hf : env.faults s.accesses with
  | some e => exact ⟨⟨0, Nat.one_pos, fun _ hk => absurd hk (Nat.not_lt_zero _), by simp [hf], rfl⟩, G.tick s⟩
  | none =>
    rw [hdriven]
    exact ⟨rfl, fun k hk => by rwa [Nat.lt_one_iff.mp hk], hG, h⟩

theorem takes_write {a : A} {w : W} {R : Unit → State A W D → Prop} {s : State A W D} (hG : G.Rel s (s.afterWrite a w))
    (h : R () (s.afterWrite a w)) : Takes env G 1 (write env a w) R s := by
  refine ⟨?_⟩
  unfold wp write
  cases hf : env.faults s.accesses with
  | some e => exact ⟨⟨0, Nat.one_pos, fun _ hk => absurd hk (Nat.not_lt_zero _), by simp [hf], rfl⟩, G.tick s⟩
  | none => exact ⟨rfl, fun k hk => by rwa [Nat.lt_one_iff.mp hk], hG, h⟩

end Takes

/-! ### Effects -/

section Effects
variable {A W D α β : Type}

/-- Only cells in `written` are written and only registers in `sampled` are read, of those that the hardware
    drives. -/
structure Touched (written sampled : A → Prop) (s t : State A W D) : Prop where
  cells : ∀ a, ¬written a → t.cells a = s.cells a
  reads : ∀ a, ¬sampled a → t.reads a = s.reads a
  driver : t.driver = s.driver
  writes : ∃ ws, t.writes = s.writes ++ ws ∧ ∀ w ∈ ws, written w.address ∧ ∀ a, ¬written a → w.before a = s.cells a

variable {written sampled : A → Prop}

theorem Touched.trans {s t u : State A W D} (h : Touched written sampled s t) (h' : Touched written sampled t u) :
    Touched written sampled s u := by
  obtain ⟨ws, hws, hbefore⟩ := h.writes
  obtain ⟨ws', hws', hbefore'⟩ := h'.writes
  refine ⟨fun a ha => (h'.cells a ha).trans (h.cells a ha), fun a ha => (h'.reads a ha).trans (h.reads a ha),
    h'.driver.trans h.driver, ws ++ ws', by rw [hws', hws, List.append_assoc], ?_⟩
  intro w hw
  rcases List.mem_append.mp hw with hw | hw
  · exact hbefore w hw
  · exact ⟨(hbefore' w hw).1, fun a ha => ((hbefore' w hw).2 a ha).trans (h.cells a ha)⟩

def Effect.touches (written sampled : A → Prop) : Effect A W D where
  Rel := Touched written sampled
  refl _ := ⟨fun _ _ => rfl, fun _ _ => rfl, rfl, [], by simp, by simp⟩
  trans := Touched.trans
  tick _ := ⟨fun _ _ => rfl, fun _ _ => rfl, rfl, [], by simp [State.tick], by simp⟩

/-- Nothing is written. -/
structure Quiet (s t : State A W D) : Prop where
  cells : t.cells = s.cells
  writes : t.writes = s.writes
  driver : t.driver = s.driver

def Effect.quiet : Effect A W D where
  Rel := Quiet
  refl _ := ⟨rfl, rfl, rfl⟩
  trans h h' := ⟨h'.cells.trans h.cells, h'.writes.trans h.writes, h'.driver.trans h.driver⟩
  tick _ := ⟨rfl, rfl, rfl⟩

/-- The writes of `s` are a prefix of those of `t`. -/
def Effect.logs : Effect A W D where
  Rel s t := s.writes <+: t.writes
  refl _ := List.prefix_rfl
  trans := List.IsPrefix.trans
  tick _ := List.prefix_rfl

variable [DecidableEq A]

theorem touched_afterWrite {s : State A W D} {a : A} (ha : written a) (w : W) :
    Touched written sampled s (s.afterWrite a w) := by
  refine ⟨fun c hc => Function.update_of_ne ?_ _ _, fun _ _ => rfl, rfl, [_], rfl, ?_⟩
  · rintro rfl
    exact hc ha
  intro w hw
  rw [List.mem_singleton.mp hw]
  exact ⟨ha, fun _ _ => rfl⟩

theorem touched_afterRead {s : State A W D} {a : A} (ha : sampled a) : Touched written sampled s (s.afterRead a) := by
  refine ⟨fun _ _ => rfl, fun c hc => Function.update_of_ne ?_ _ _, rfl, [], by simp [State.afterRead], by simp⟩
  rintro rfl
  exact hc ha

end Effects

/-! ### Programs whose accesses do not throw -/

section Returns
variable {A W D α β : Type} {env : Env A W}

/-- No access between the states throws. -/
def Env.Clean (env : Env A W) (s t : State A W D) : Prop :=
  ∀ n, s.accesses ≤ n → n < t.accesses → env.faults n = none

/-- The program returns as `R` says, or one of its accesses throws. -/
structure Returns (env : Env A W) (m : Prog A W D α) (R : α → State A W D → Prop) (s : State A W D) : Prop where
  run : wp m (fun a t => s.accesses ≤ t.accesses ∧ R a t) (fun _ t => ¬env.Clean s t) s

theorem returns_pure (a : α) {s : State A W D} {R : α → State A W D → Prop} (h : R a s) : Returns env (pure a) R s :=
  ⟨Nat.le_refl _, h⟩

theorem Returns.mono {m : Prog A W D α} {R R' : α → State A W D → Prop} {s : State A W D} (h : Returns env m R s)
    (hR : ∀ a t, R a t → R' a t) : Returns env m R' s :=
  ⟨wp_mono h.run (fun a t ⟨h1, h2⟩ => ⟨h1, hR a t h2⟩) fun _ _ h => h⟩

theorem Returns.bind {m : Prog A W D α} {f : α → Prog A W D β} {R : α → State A W D → Prop}
    {R' : β → State A W D → Prop} {s : State A W D} (h : Returns env m R s)
    (h' : ∀ a t, R a t → Returns env (f a) R' t) : Returns env (m >>= f) R' s := by
  refine ⟨wp_bind.mpr (wp_mono h.run ?_ fun _ _ h => h)⟩
  rintro a t ⟨hle, hR⟩
  refine wp_mono (h' a t hR).run ?_ ?_
  · rintro b u ⟨hle', hR'⟩
    exact ⟨Nat.le_trans hle hle', hR'⟩
  · exact fun e u hthrew hclean => hthrew fun n hn hlt => hclean n (Nat.le_trans hle hn) hlt

theorem returns_mapM_range {f : Nat → Prog A W D α} (J : Nat → State A W D → Prop) {s : State A W D} (hJ : J 0 s) :
    ∀ {r : Nat}, (∀ i < r, ∀ t, J i t → Returns env (f i) (fun _ u => J (i + 1) u) t) →
      Returns env ((List.range r).mapM f) (fun _ t => J r t) s
  | 0, _ => returns_pure [] hJ
  | r + 1, h => by
    rw [List.range_succ, List.mapM_append]
    refine (returns_mapM_range J hJ fun i hi => h i (by omega)).bind fun as t ht => ?_
    rw [List.mapM_cons, List.mapM_nil, bind_assoc]
    refine (h r (Nat.lt_succ_self r) t ht).bind fun a u hu => ?_
    exact returns_pure _ hu

theorem returns_forM {ι : Type} {f : ι → Prog A W D Unit} : ∀ {xs : List ι},
    (∀ x ∈ xs, ∀ s, Returns env (f x) (fun _ _ => True) s) → ∀ s, Returns env (xs.forM f) (fun _ _ => True) s
  | [], _, _ => returns_pure () trivial
  | x :: _, h, s => (h x (List.mem_cons_self ..) s).bind fun _ t _ => returns_forM (fun y hy => h y (List.mem_cons_of_mem x hy)) t

/-- A program whose accesses do not throw returns. -/
theorem Returns.exists_ok {m : Prog A W D α} {R : α → State A W D → Prop} {s : State A W D} (h : Returns env m R s)
    (hfaults : ∀ n, env.faults n = none) : ∃ a t, m s = .ok a t ∧ R a t := by
  have hrun := h.run
  unfold wp at hrun
  cases hm : m s with
  | ok a t =>
    rw [hm] at hrun
    exact ⟨a, t, rfl, hrun.2⟩
  | error e t =>
    rw [hm] at hrun
    exact absurd (fun n _ _ => hfaults n) hrun

theorem returns_rethrow {f : String → String} {m : Prog A W D α} {R : α → State A W D → Prop} {s : State A W D}
    (h : Returns env m R s) : Returns env (rethrow f m) R s := by
  have hrun := h.run
  refine ⟨?_⟩
  unfold wp rethrow at *
  cases hm : m s <;> rw [hm] at hrun <;> exact hrun

theorem returns_getDriver {R : D → State A W D → Prop} {s : State A W D} (h : R s.driver s) :
    Returns env getDriver R s := ⟨Nat.le_refl _, h⟩

theorem returns_modifyDriver {f : D → D} {R : Unit → State A W D → Prop} {s : State A W D}
    (h : R () { s with driver := f s.driver }) : Returns env (modifyDriver f) R s := ⟨Nat.le_refl _, h⟩

theorem not_clean_tick {s : State A W D} {e : String} (hf : env.faults s.accesses = some e) : ¬env.Clean s s.tick :=
  fun hclean => by
    have := hclean s.accesses (Nat.le_refl _) (Nat.lt_succ_self _)
    rw [hf] at this
    cases this

variable [DecidableEq A]

theorem returns_read_cell {a : A} (hcell : env.driven a = none) {R : W → State A W D → Prop} {s : State A W D}
    (h : R (s.cells a) s.tick) : Returns env (read env a) R s := by
  refine ⟨?_⟩
  unfold wp read
  cases hf : env.faults s.accesses with
  | some e => exact not_clean_tick hf
  | none =>
    rw [hcell]
    exact ⟨Nat.le_succ _, h⟩

theorem returns_read_driven {a : A} {values : List (Write A W) → Nat → W} (hdriven : env.driven a = some values)
    {R : W → State A W D → Prop} {s : State A W D} (h : R (values s.writes (s.reads a)) (s.afterRead a)) :
    Returns env (read env a) R s := by
  refine ⟨?_⟩
  unfold wp read
  cases hf : env.faults s.accesses with
  | some e => exact not_clean_tick hf
  | none =>
    rw [hdriven]
    exact ⟨Nat.le_succ _, h⟩

theorem returns_write {a : A} {w : W} {R : Unit → State A W D → Prop} {s : State A W D} (h : R () (s.afterWrite a w)) :
    Returns env (write env a w) R s := by
  refine ⟨?_⟩
  unfold wp write
  cases hf : env.faults s.accesses with
  | some e => exact not_clean_tick hf
  | none => exact ⟨Nat.le_succ _, h⟩

end Returns

/-! ### Uncounted programs -/

section Does
variable {A W D α β : Type} {env : Env A W} {G : Effect A W D}

/-- Whether it returns or throws, what the program does to the state is in the effect. -/
structure Does (G : Effect A W D) (m : Prog A W D α) : Prop where
  run : ∀ s, wp m (fun _ t => G.Rel s t) (fun _ t => G.Rel s t) s

theorem does_pure (a : α) : Does G (pure a) := ⟨G.refl⟩

theorem does_throw (e : String) : Does G (throw e : Prog A W D α) := ⟨G.refl⟩

theorem Does.bind {m : Prog A W D α} {f : α → Prog A W D β} (h : Does G m) (h' : ∀ a, Does G (f a)) :
    Does G (m >>= f) := by
  refine ⟨fun s => wp_bind.mpr (wp_mono (h.run s) (fun a t ht => ?_) fun _ _ ht => ht)⟩
  exact wp_mono ((h' a).run t) (fun _ _ hu => G.trans ht hu) fun _ _ hu => G.trans ht hu

theorem does_mapM {ι : Type} {f : ι → Prog A W D α} (h : ∀ x, Does G (f x)) : ∀ xs : List ι, Does G (xs.mapM f)
  | [] => does_pure []
  | x :: xs => by
    rw [List.mapM_cons]
    exact (h x).bind fun a => (does_mapM h xs).bind fun as => does_pure _

theorem does_modifyDriver {f : D → D} (hG : ∀ s, G.Rel s { s with driver := f s.driver }) :
    Does G (modifyDriver f : Prog A W D Unit) := ⟨hG⟩

theorem does_quiet_read [DecidableEq A] (a : A) : Does .quiet (read env a : Prog A W D W) := by
  refine ⟨fun s => ?_⟩
  unfold wp read
  cases env.faults s.accesses with
  | some e => exact ⟨rfl, rfl, rfl⟩
  | none => cases env.driven a <;> exact ⟨rfl, rfl, rfl⟩

theorem does_logs_read [DecidableEq A] (a : A) : Does .logs (read env a : Prog A W D W) := by
  refine ⟨fun s => ?_⟩
  unfold wp read
  cases env.faults s.accesses with
  | some e => exact List.prefix_rfl
  | none => cases env.driven a <;> exact List.prefix_rfl

theorem does_logs_write [DecidableEq A] (a : A) (w : W) : Does .logs (write env a w : Prog A W D Unit) := by
  refine ⟨fun s => ?_⟩
  unfold wp write
  cases env.faults s.accesses with
  | some e => exact List.prefix_rfl
  | none => exact List.prefix_append _ _

end Does
end Lib.Device
