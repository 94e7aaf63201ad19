/-! # Programs that run alike

Two programs with states of their own, that return the same value or throw the same exception from related
states, in states that are related again. One of them can get `lost`, for good; then nothing is said any more. -/

namespace Lib.Simulation

variable {ε σ τ α β ι : Type}

/-- The state in which a run ends. -/
def last : EStateM.Result ε σ α → σ
  | .ok _ s => s
  | .error _ s => s

inductive Alike (R : σ → τ → Prop) : EStateM.Result ε σ α → EStateM.Result ε τ α → Prop
  | ok {a : α} {s : σ} {t : τ} (h : R s t) : Alike R (.ok a s) (.ok a t)
  | error {e : ε} {s : σ} {t : τ} (h : R s t) : Alike R (.error e s) (.error e t)

structure Simulates (R : σ → τ → Prop) (lost : σ → Prop) (m : EStateM ε σ α) (m' : EStateM ε τ α) : Prop where
  stays : ∀ {s : σ}, lost s → lost (last (m s))
  alike : ∀ {s : σ} {t : τ}, R s t → lost (last (m s)) ∨ Alike R (m s) (m' t)

/-- The program, with what it throws as a value. -/
def attempt (m : EStateM ε σ α) : EStateM ε σ (Except ε α) := fun s =>
  match m s with
  | .ok a t => .ok (.ok a) t
  | .error e t => .ok (.error e) t

/-- Programs whose exceptions are values all return. -/
theorem exists_mapM_attempt (f : ι → EStateM ε σ α) : ∀ (xs : List ι) (s : σ), ∃ as t, xs.mapM (fun x => attempt (f x)) s = .ok as t
  | [], s => ⟨[], s, rfl⟩
  | x :: xs, s => by
    obtain ⟨a, t, ha⟩ : ∃ a t, attempt (f x) s = .ok a t := by
      unfold attempt
      cases f x s <;> exact ⟨_, _, rfl⟩
    obtain ⟨as, u, has⟩ := exists_mapM_attempt f xs t
    refine ⟨a :: as, u, ?_⟩
    rw [List.mapM_cons]
    simp only [bind, EStateM.bind, ha, has]
    rfl

namespace Simulates
variable {R : σ → τ → Prop} {lost : σ → Prop} {m : EStateM ε σ α} {m' : EStateM ε τ α}

theorem pure (a : α) : Simulates R lost (Pure.pure a : EStateM ε σ α) (Pure.pure a) :=
  ⟨fun h => h, fun h => Or.inr (.ok h)⟩

theorem throw (e : ε) : Simulates R lost (MonadExcept.throw e : EStateM ε σ α) (MonadExcept.throw e) :=
  ⟨fun h => h, fun h => Or.inr (.error h)⟩

theorem bind {f : α → EStateM ε σ β} {f' : α → EStateM ε τ β} (h : Simulates R lost m m')
    (hf : ∀ a, Simulates R lost (f a) (f' a)) : Simulates R lost (m >>= f) (m' >>= f') := by
  have stays {s : σ} (hlost : lost (last (m s))) : lost (last ((m >>= f) s)) := by
    simp only [Bind.bind, EStateM.bind]
    cases hm : m s with
    | ok a s' =>
      rw [hm] at hlost
      exact (hf a).stays hlost
    | error e s' =>
      rw [hm] at hlost
      exact hlost
  refine ⟨fun hlost => stays (h.stays hlost), ?_⟩
  intro s t hR
  rcases h.alike hR with hlost | halike
  · exact Or.inl (stays hlost)
  · simp only [Bind.bind, EStateM.bind]
    generalize m s = r, m' t = r' at halike
    cases halike with
    | ok hR' => exact (hf _).alike hR'
    | error hR' => exact Or.inr (.error hR')

theorem attempt (h : Simulates R lost m m') : Simulates R lost (attempt m) (Simulation.attempt m') := by
  refine ⟨fun hlost => ?_, fun {s t} hR => ?_⟩
  · have := h.stays hlost
    unfold Simulation.attempt
    split <;> simp_all [last]
  · have := h.alike hR
    unfold Simulation.attempt
    generalize m s = r, m' t = r' at this
    rcases this with hlost | halike
    · left
      cases r <;> exact hlost
    · right
      cases halike with
      | ok hR' => exact .ok hR'
      | error hR' => exact .ok hR'

theorem mapM {f : ι → EStateM ε σ α} {f' : ι → EStateM ε τ α} (h : ∀ x, Simulates R lost (f x) (f' x)) :
    ∀ xs : List ι, Simulates R lost (xs.mapM f) (xs.mapM f')
  | [] => pure []
  | x :: xs => by
    rw [List.mapM_cons, List.mapM_cons]
    exact (h x).bind fun a => (mapM h xs).bind fun as => pure _

theorem forM {f : ι → EStateM ε σ Unit} {f' : ι → EStateM ε τ Unit} (h : ∀ x, Simulates R lost (f x) (f' x)) :
    ∀ xs : List ι, Simulates R lost (xs.forM f) (xs.forM f')
  | [] => pure ()
  | x :: xs => (h x).bind fun _ => forM h xs

end Simulates
end Lib.Simulation
