import DaphneZmq.Lib.Device

/-! # Programs that issue commands

A program issues commands, each of which is answered or raises. An answer depends on the commands before it. A bench is what the
commands act on: a state that each of them moves on, with its answer.

`Leads` says of a program what the bench is like after it, whether it returns or raises. -/

namespace Lib.Commands
open Device

/-- A command, and what came of it. -/
structure Event {C : Type} (Res : C → Type) where
  command : C
  answer : Except String (Res command)

section
variable {C : Type} {Res : C → Type} {α β ι : Type}

/-- A program over the commands that have been issued. -/
abbrev Prog (Res : C → Type) (α : Type) := EStateM String (List (Event Res)) α

/-- What a program does not choose. -/
abbrev Env (Res : C → Type) := List (Event Res) → (c : C) → Except String (Res c)

def issue (env : Env Res) (c : C) : Prog Res (Res c) := fun l =>
  match env l c with
  | .ok a => .ok a (l ++ [⟨c, .ok a⟩])
  | .error e => .error e (l ++ [⟨c, .error e⟩])

/-- An exception that no command raises. -/
def ofExcept {ε : Type} (text : ε → String) : Except ε α → Prog Res α
  | .ok a => return a
  | .error e => throw (text e)

/-! `try` with `finally`: the last part runs after either end of the first. -/

theorem tryFinally_of_ok {body : Prog Res α} {final : Prog Res β} {a : α} {l l' : List (Event Res)} (h : body l = .ok a l') :
    tryFinally body final l = (final >>= fun _ => return a) l' := by
  simp only [tryFinally, tryFinally', Functor.map, EStateM.map, h, bind, EStateM.bind]
  cases final l' <;> rfl

theorem tryFinally_of_error {body : Prog Res α} {final : Prog Res β} {e : String} {l l' : List (Event Res)} (h : body l = .error e l') :
    tryFinally body final l = (final >>= fun _ => throw e) l' := by
  simp only [tryFinally, tryFinally', Functor.map, EStateM.map, h, bind, EStateM.bind]
  cases final l' <;> rfl

/-! ### Benches -/

variable {B : Type} (step : B → Event Res → B)

/-- From a bench with `P` the program returns with `Q` or raises with `E`. -/
def Leads (P : B → Prop) (m : Prog Res α) (Q : α → B → Prop) (E : B → Prop) : Prop :=
  ∀ start l, P (l.foldl step start) → wp m (fun a l' => Q a (l'.foldl step start)) (fun _ l' => E (l'.foldl step start)) l

variable {step} {P P' : B → Prop} {E E' : B → Prop}

theorem Leads.mono {m : Prog Res α} {Q Q' : α → B → Prop} (h : Leads step P m Q E) (hP : ∀ b, P' b → P b)
    (hQ : ∀ a b, Q a b → Q' a b) (hE : ∀ b, E b → E' b) : Leads step P' m Q' E' :=
  fun start l hb => wp_mono (h start l (hP _ hb)) (fun a _ => hQ a _) fun _ _ => hE _

/-- What does not depend on the bench. -/
theorem leads_of_and {p : Prop} {m : Prog Res α} {Q : α → B → Prop} (h : p → Leads step P m Q E) :
    Leads step (fun b => P b ∧ p) m Q E := fun start l hb => h hb.2 start l hb.1

theorem leads_pure {a : α} {Q : α → B → Prop} (h : ∀ b, P b → Q a b) : Leads step P (pure a : Prog Res α) Q E :=
  fun _ _ hb => h _ hb

theorem leads_throw {e : String} {Q : α → B → Prop} (h : ∀ b, P b → E b) : Leads step P (throw e : Prog Res α) Q E :=
  fun _ _ hb => h _ hb

theorem leads_issue {env : Env Res} {c : C} {Q : Res c → B → Prop} (hok : ∀ a b, P b → Q a (step b ⟨c, .ok a⟩))
    (herror : ∀ e b, P b → E (step b ⟨c, .error e⟩)) : Leads step P (issue env c) Q E := by
  intro start l hb
  unfold wp issue
  split
  · rename_i a l' hrun
    split at hrun
    · cases hrun
      rw [List.foldl_append]
      exact hok _ _ hb
    · cases hrun
  · rename_i e l' hrun
    split at hrun
    · cases hrun
    · cases hrun
      rw [List.foldl_append]
      exact herror _ _ hb

theorem Leads.bind {m : Prog Res α} {f : α → Prog Res β} {R : α → B → Prop} {Q : β → B → Prop} (h : Leads step P m R E)
    (hf : ∀ a, Leads step (R a) (f a) Q E) : Leads step P (m >>= f) Q E :=
  fun start l hb => wp_bind.mpr (wp_mono (h start l hb) (fun a l' => hf a start l') fun _ _ => id)

theorem leads_ofExcept_bind {ε : Type} {text : ε → String} {x : Except ε α} {f : α → Prog Res β} {Q : β → B → Prop}
    (hok : ∀ a, x = .ok a → Leads step P (f a) Q E) (herror : ∀ b, P b → E b) : Leads step P (ofExcept text x >>= f) Q E := by
  cases x with
  | ok a => exact hok a rfl
  | error e => exact fun _ _ hb => herror _ hb

theorem leads_tryFinally {body : Prog Res α} {final : Prog Res Unit} {R Q : α → B → Prop} {F : B → Prop} (h : Leads step P body R F)
    (hok : ∀ a, Leads step (R a) final (fun _ => Q a) E) (herror : Leads step F final (fun _ => E) E) :
    Leads step P (tryFinally body final) Q E := by
  intro start l hb
  have hbody := h start l hb
  unfold wp at hbody ⊢
  cases hrun : body l with
  | ok a l' =>
    rw [hrun] at hbody
    rw [tryFinally_of_ok hrun]
    exact wp_bind.mpr (hok a start l' hbody)
  | error e l' =>
    rw [hrun] at hbody
    rw [tryFinally_of_error hrun]
    exact wp_bind.mpr (herror start l' hbody)

/-- A loop, with what holds after the rounds so far. -/
theorem leads_mapM {f : ι → Prog Res α} (I : List ι → List α → B → Prop) {xs done rest : List ι} (hxs : xs = done ++ rest)
    (hround : ∀ done as x rest, xs = done ++ x :: rest → Leads step (I done as) (f x) (fun a => I (done ++ [x]) (as ++ [a])) E)
    (as : List α) : Leads step (I done as) (rest.mapM f) (fun as' => I xs (as ++ as')) E := by
  induction rest generalizing done as with
  | nil =>
    rw [List.mapM_nil]
    refine leads_pure fun b hb => ?_
    rwa [hxs, List.append_nil, List.append_nil]
  | cons x rest ih =>
    rw [List.mapM_cons]
    have hxs' : xs = (done ++ [x]) ++ rest := by rw [hxs, List.append_assoc, List.singleton_append]
    refine (hround done as x rest hxs).bind fun a => (ih hxs' (as ++ [a])).bind fun as' => leads_pure fun b hb => ?_
    rwa [List.append_assoc] at hb

theorem leads_forM {f : ι → Prog Res Unit} (hround : ∀ x, Leads step P (f x) (fun _ => P) E) : ∀ xs : List ι,
    Leads step P (xs.forM f) (fun _ => P) E
  | [] => leads_pure fun _ => id
  | x :: xs => (hround x).bind fun _ => leads_forM hround xs

end
end Lib.Commands
