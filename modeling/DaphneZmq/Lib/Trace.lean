import DaphneZmq.Lib.Device

/-! # Traced programs

A program that reads and writes words at addresses, looks at a clock and sleeps, with the trace of its accesses. What a read
gives depends on the accesses before it. Before each look at the clock some time passes, so that the clock is any steady one on
which a sleep takes at least its duration.

`Adds` says what a program adds to the trace, whether it returns or throws. -/

namespace Lib.Trace
open Device

inductive Access (A W : Type) where
  | read (address : A) (word : W)
  | write (address : A) (word : W)
  deriving DecidableEq

/-- What a program does not choose. -/
structure Env (A W : Type) where
  /-- The word that a read gives after some accesses. -/
  answer : List (Access A W) → A → W
  /-- The time that passes before the `n`-th look at the clock, besides the time slept. -/
  passes : Nat → Nat

structure State (A W : Type) where
  trace : List (Access A W)
  time : Nat
  looks : Nat

abbrev Prog (A W α : Type) := EStateM String (State A W) α

section
variable {A W α β : Type}

def State.add (s : State A W) (l : List (Access A W)) : State A W := { s with trace := s.trace ++ l }

@[simp] theorem State.add_trace (s : State A W) (l : List (Access A W)) : (s.add l).trace = s.trace ++ l := rfl

@[simp] theorem State.add_time (s : State A W) (l : List (Access A W)) : (s.add l).time = s.time := rfl

@[simp] theorem State.add_looks (s : State A W) (l : List (Access A W)) : (s.add l).looks = s.looks := rfl

@[simp] theorem State.add_add (s : State A W) (l l' : List (Access A W)) : (s.add l).add l' = s.add (l ++ l') := by
  simp only [State.add, List.append_assoc]

/-- The state after a look at the clock. -/
def State.look (s : State A W) (time : Nat) : State A W := { s with time, looks := s.looks + 1 }

def State.sleep (s : State A W) (duration : Nat) : State A W := { s with time := s.time + duration }

variable (env : Env A W)

def read (a : A) : Prog A W W := fun s => .ok (env.answer s.trace a) (s.add [.read a (env.answer s.trace a)])

def write (a : A) (w : W) : Prog A W Unit := fun s => .ok () (s.add [.write a w])

def now : Prog A W Nat := fun s => .ok (s.time + env.passes s.looks) (s.look (s.time + env.passes s.looks))

def sleepFor (duration : Nat) : Prog A W Unit := fun s => .ok () (s.sleep duration)

variable {env}

/-! A program that begins with an access. -/

theorem read_bind (a : A) (f : W → Prog A W β) (s : State A W) :
    (read env a >>= f) s = f (env.answer s.trace a) (s.add [.read a (env.answer s.trace a)]) := rfl

theorem write_bind (a : A) (w : W) (f : Unit → Prog A W β) (s : State A W) : (write a w >>= f) s = f () (s.add [.write a w]) := rfl

theorem now_bind (f : Nat → Prog A W β) (s : State A W) :
    (now env >>= f) s = f (s.time + env.passes s.looks) (s.look (s.time + env.passes s.looks)) := rfl

theorem sleepFor_bind (duration : Nat) (f : Unit → Prog A W β) (s : State A W) :
    (sleepFor duration >>= f) s = f () (s.sleep duration) := rfl

/-! ### What a program adds -/

/-- The program adds accesses to the trace, and returns as `R` says of them or throws as `E` says. -/
structure Adds (m : Prog A W α) (R : α → List (Access A W) → State A W → Prop) (E : String → List (Access A W) → State A W → Prop)
    (s : State A W) : Prop where
  run : wp m (fun a t => ∃ l, t.trace = s.trace ++ l ∧ R a l t) (fun e t => ∃ l, t.trace = s.trace ++ l ∧ E e l t) s

variable {R : α → List (Access A W) → State A W → Prop} {E : String → List (Access A W) → State A W → Prop} {s : State A W}

theorem adds_pure {a : α} (h : R a [] s) : Adds (pure a) R E s := ⟨[], (List.append_nil _).symm, h⟩

/-- What a run that returns has added. -/
theorem Adds.ok {m : Prog A W α} (h : Adds m R E s) {a : α} {t : State A W} (hm : m s = .ok a t) :
    ∃ l, t.trace = s.trace ++ l ∧ R a l t := wp_ok h.run hm

/-- What a run that throws has added. -/
theorem Adds.error {m : Prog A W α} (h : Adds m R E s) {e : String} {t : State A W} (hm : m s = .error e t) :
    ∃ l, t.trace = s.trace ++ l ∧ E e l t := wp_error h.run hm

theorem adds_of_ok {m : Prog A W α} {a : α} {t : State A W} {l : List (Access A W)} (hm : m s = .ok a t)
    (ht : t.trace = s.trace ++ l) (h : R a l t) : Adds m R E s := by
  refine ⟨?_⟩
  rw [wp, hm]
  exact ⟨l, ht, h⟩

theorem adds_of_error {m : Prog A W α} {e : String} {t : State A W} {l : List (Access A W)} (hm : m s = .error e t)
    (ht : t.trace = s.trace ++ l) (h : E e l t) : Adds m R E s := by
  refine ⟨?_⟩
  rw [wp, hm]
  exact ⟨l, ht, h⟩

theorem Adds.mono {m : Prog A W α} {R' : α → List (Access A W) → State A W → Prop}
    {E' : String → List (Access A W) → State A W → Prop} (h : Adds m R E s) (hR : ∀ a l t, R a l t → R' a l t)
    (hE : ∀ e l t, E e l t → E' e l t) : Adds m R' E' s :=
  ⟨wp_mono h.run (fun a t ⟨l, ht, h⟩ => ⟨l, ht, hR a l t h⟩) fun e t ⟨l, ht, h⟩ => ⟨l, ht, hE e l t h⟩⟩

theorem Adds.of_eq {m m' : Prog A W α} (heq : m s = m' s) (h : Adds m' R E s) : Adds m R E s := by
  have hrun := h.run
  refine ⟨?_⟩
  unfold wp at hrun ⊢
  rwa [heq]

theorem Adds.bind {m : Prog A W α} {f : α → Prog A W β} {R' : β → List (Access A W) → State A W → Prop}
    {E' : String → List (Access A W) → State A W → Prop} (h : Adds m R E s)
    (hok : ∀ a l t, R a l t → Adds (f a) (fun b l' => R' b (l ++ l')) (fun e l' => E' e (l ++ l')) t)
    (herror : ∀ e l t, E e l t → E' e l t) : Adds (m >>= f) R' E' s := by
  refine ⟨wp_bind.mpr (wp_mono h.run ?_ ?_)⟩
  · rintro a t ⟨l, ht, hR⟩
    have happend (l' : List (Access A W)) : t.trace ++ l' = s.trace ++ (l ++ l') := by rw [ht, List.append_assoc]
    refine wp_mono (hok a l t hR).run ?_ ?_
    · rintro b u ⟨l', hu, hR'⟩
      exact ⟨l ++ l', hu.trans (happend l'), hR'⟩
    · rintro e u ⟨l', hu, hE'⟩
      exact ⟨l ++ l', hu.trans (happend l'), hE'⟩
  · rintro e t ⟨l, ht, hE⟩
    exact ⟨l, ht, herror e l t hE⟩

/-- A program that returns goes first. -/
theorem Adds.of_ok {m : Prog A W α} {f : α → Prog A W β} {R' : β → List (Access A W) → State A W → Prop} {a : α} {t : State A W}
    {l : List (Access A W)} (hm : m s = .ok a t) (ht : t.trace = s.trace ++ l)
    (h : Adds (f a) (fun b l' => R' b (l ++ l')) (fun e l' => E e (l ++ l')) t) : Adds (m >>= f) R' E s := by
  have hfirst : Adds m (fun a' l' t' => a' = a ∧ l' = l ∧ t' = t) (fun _ _ _ => False) s := by
    refine ⟨?_⟩
    rw [wp, hm]
    exact ⟨l, ht, rfl, rfl, rfl⟩
  refine hfirst.bind ?_ fun _ _ _ h => h.elim
  rintro a' l' t' ⟨rfl, rfl, rfl⟩
  exact h

end

/-! ### Words written -/

section
variable {A W : Type} [DecidableEq A]

/-- The words that are written at an address, in order. -/
def words (a : A) : List (Access A W) → List W
  | [] => []
  | .read _ _ :: l => words a l
  | .write b w :: l => if b = a then w :: words a l else words a l

@[simp] theorem words_nil (a : A) : words a ([] : List (Access A W)) = [] := rfl

@[simp] theorem words_cons_read (a b : A) (w : W) (l : List (Access A W)) : words a (.read b w :: l) = words a l := rfl

@[simp] theorem words_cons_write (a b : A) (w : W) (l : List (Access A W)) :
    words a (.write b w :: l) = if b = a then w :: words a l else words a l := rfl

@[simp] theorem words_append (a : A) (l l' : List (Access A W)) : words a (l ++ l') = words a l ++ words a l' := by
  induction l with
  | nil => rfl
  | cons access l ih =>
    cases access with
    | read b w => exact ih
    | write b w =>
      simp only [List.cons_append, words_cons_write, ih]
      split <;> rfl

theorem words_of_reads {a : A} {l : List (Access A W)} (h : ∀ access ∈ l, ∃ b w, access = .read b w) : words a l = [] := by
  induction l with
  | nil => rfl
  | cons access l ih =>
    obtain ⟨b, w, rfl⟩ := h access (List.mem_cons_self ..)
    exact ih fun access' hmem => h access' (List.mem_cons_of_mem _ hmem)

end

end Lib.Trace
