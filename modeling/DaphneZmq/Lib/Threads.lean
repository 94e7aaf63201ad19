import Mathlib.Logic.Function.Basic

/-! # Threads that share a lock

A thread runs scripts. An act of a script takes or frees the lock or operates on a shared state, and what it gives decides
how the script goes on. The threads take their acts in any order, and one that is at the end of its script starts another
of its jobs.

A discipline says what a script may do without the lock and what it may do in the lock, where it knows something about the
shared state. If all jobs keep to it, what a thread in the lock knows is true, whatever the other threads do; and if what is
done without the lock changes nothing, the jobs do what they would do one after the other. -/

namespace Lib.Threads

/-! ### Scripts -/

/-- An operation `o` gives a value of `Res o`. -/
inductive Script (Op : Type) (Res : Op → Type) (α : Type) where
  | ret (a : α)
  | lock (k : Script Op Res α)
  | tryLock (k : Bool → Script Op Res α)
  | unlock (k : Script Op Res α)
  | op (o : Op) (k : Res o → Script Op Res α)

namespace Script
variable {Op : Type} {Res : Op → Type} {α β : Type}

def bind : Script Op Res α → (α → Script Op Res β) → Script Op Res β
  | ret a, f => f a
  | lock k, f => lock (k.bind f)
  | tryLock k, f => tryLock fun taken => (k taken).bind f
  | unlock k, f => unlock (k.bind f)
  | op o k, f => op o fun r => (k r).bind f

instance : Monad (Script Op Res) where
  pure := ret
  bind := bind

end Script

/-! ### Runs -/

/-- Who holds the lock, the shared state, and what the threads still have to do. -/
structure Config (T Op : Type) (Res : Op → Type) (S : Type) where
  owner : Option T
  shared : S
  scripts : T → Script Op Res Unit

section Runs
variable {T Op S : Type} {Res : Op → Type} [DecidableEq T]

def Config.goesOn (c : Config T Op Res S) (t : T) (script : Script Op Res Unit) : Config T Op Res S :=
  { c with scripts := Function.update c.scripts t script }

/-- A thread takes an act. `exec` says what an operation of a thread can give and make of the shared state; an attempt to
take the lock can also fail when it is free. -/
inductive Step (exec : T → S → (o : Op) → Res o → S → Prop) (jobs : T → Script Op Res Unit → Prop) :
    Config T Op Res S → Config T Op Res S → Prop where
  | start {c : Config T Op Res S} {t : T} {script : Script Op Res Unit} (hdone : c.scripts t = .ret ()) (hjob : jobs t script) :
      Step exec jobs c (c.goesOn t script)
  | lock {c : Config T Op Res S} {t : T} {k : Script Op Res Unit} (hscript : c.scripts t = .lock k) (hfree : c.owner = none) :
      Step exec jobs c ({ c with owner := some t }.goesOn t k)
  | tryLock_taken {c : Config T Op Res S} {t : T} {k : Bool → Script Op Res Unit} (hscript : c.scripts t = .tryLock k)
      (hfree : c.owner = none) : Step exec jobs c ({ c with owner := some t }.goesOn t (k true))
  | tryLock_failed {c : Config T Op Res S} {t : T} {k : Bool → Script Op Res Unit} (hscript : c.scripts t = .tryLock k) :
      Step exec jobs c (c.goesOn t (k false))
  | unlock {c : Config T Op Res S} {t : T} {k : Script Op Res Unit} (hscript : c.scripts t = .unlock k) :
      Step exec jobs c ({ c with owner := none }.goesOn t k)
  | op {c : Config T Op Res S} {t : T} {o : Op} {k : Res o → Script Op Res Unit} {r : Res o} {s : S}
      (hscript : c.scripts t = .op o k) (hexec : exec t c.shared o r s) :
      Step exec jobs c ({ c with shared := s }.goesOn t (k r))

/-- The configurations of the runs that begin with a shared state as `init` says, with no thread in the lock. -/
inductive Reachable (exec : T → S → (o : Op) → Res o → S → Prop) (jobs : T → Script Op Res Unit → Prop) (init : S → Prop) :
    Config T Op Res S → Prop where
  | start {s : S} (hs : init s) : Reachable exec jobs init ⟨none, s, fun _ => .ret ()⟩
  | step {c c' : Config T Op Res S} (hc : Reachable exec jobs init c) (hstep : Step exec jobs c c') :
      Reachable exec jobs init c'

end Runs

/-! ### Disciplines -/

/-- What scripts may do, and what a thread in the lock knows after what it has done. -/
structure Discipline (Op : Type) (Res : Op → Type) (K : Type) where
  free : Op → Prop
  taken : K
  allows : K → Op → Prop
  next : K → (o : Op) → Res o → K

/-- Where a thread is in its job: it has done nothing yet, it has the lock, or it does not take the lock any more. -/
inductive Phase (K : Type) where
  | waiting
  | inside (known : K)
  | done

def Phase.Outside {K : Type} : Phase K → Prop
  | .inside _ => False
  | _ => True

section Safe
variable {Op K α β : Type} {Res : Op → Type} (D : Discipline Op Res K)

/-- The script keeps to the discipline and ends as `Q` says. It takes the lock at most once, before all else. -/
def Script.Safe (Q : Phase K → α → Prop) : Script Op Res α → Phase K → Prop
  | .ret a, phase => Q phase a
  | .lock k, phase => phase = .waiting ∧ k.Safe Q (.inside D.taken)
  | .tryLock k, phase => phase = .waiting ∧ (k true).Safe Q (.inside D.taken) ∧ (k false).Safe Q .done
  | .unlock k, phase => ¬phase.Outside ∧ k.Safe Q .done
  | .op o k, .inside known => D.allows known o ∧ ∀ r, (k r).Safe Q (.inside (D.next known o r))
  | .op o k, _ => D.free o ∧ ∀ r, (k r).Safe Q .done

variable {D} {Q Q' : Phase K → α → Prop}

theorem Script.Safe.mono {script : Script Op Res α} {phase : Phase K} (h : script.Safe D Q phase)
    (hQ : ∀ phase a, Q phase a → Q' phase a) : script.Safe D Q' phase := by
  induction script generalizing phase with
  | ret a => exact hQ phase a h
  | lock k ih => exact ⟨h.1, ih h.2⟩
  | tryLock k ih => exact ⟨h.1, ih true h.2.1, ih false h.2.2⟩
  | unlock k ih => exact ⟨h.1, ih h.2⟩
  | op o k ih => cases phase <;> exact ⟨h.1, fun r => ih r (h.2 r)⟩

theorem Script.Safe.bind {script : Script Op Res α} {f : α → Script Op Res β} {R : Phase K → β → Prop} {phase : Phase K}
    (h : script.Safe D Q phase) (hf : ∀ phase a, Q phase a → (f a).Safe D R phase) : (script.bind f).Safe D R phase := by
  induction script generalizing phase with
  | ret a => exact hf phase a h
  | lock k ih => exact ⟨h.1, ih h.2⟩
  | tryLock k ih => exact ⟨h.1, ih true h.2.1, ih false h.2.2⟩
  | unlock k ih => exact ⟨h.1, ih h.2⟩
  | op o k ih => cases phase <;> exact ⟨h.1, fun r => ih r (h.2 r)⟩

/-- A job: it begins without the lock and ends without it. -/
abbrev Script.Job (D : Discipline Op Res K) (script : Script Op Res Unit) : Prop := script.Safe D (fun phase _ => phase.Outside) .waiting

end Safe

/-! ### Knowledge in the lock -/

section Sound
variable {T Op S K : Type} {Res : Op → Type} [DecidableEq T] {D : Discipline Op Res K}
  {exec : T → S → (o : Op) → Res o → S → Prop} {jobs : T → Script Op Res Unit → Prop} {init : S → Prop}
  {knows : T → K → S → Prop} {inv : S → Prop}

/-- The discipline is right about the operations: what is known in the lock becomes true, and stays true of operations
that are free. -/
structure Discipline.Sound (D : Discipline Op Res K) (exec : T → S → (o : Op) → Res o → S → Prop)
    (knows : T → K → S → Prop) (inv : S → Prop) : Prop where
  taken : ∀ t s, inv s → knows t D.taken s
  held : ∀ t known s o r s', inv s → knows t known s → D.allows known o → exec t s o r s' →
    inv s' ∧ knows t (D.next known o r) s'
  free : ∀ t s o r s', inv s → D.free o → exec t s o r s' → inv s' ∧ ∀ t' known, knows t' known s → knows t' known s'

/-- The threads keep to the discipline in their phases, the owner of the lock alone is inside, and what it knows is true. -/
structure Config.Ordered (D : Discipline Op Res K) (knows : T → K → S → Prop) (inv : S → Prop) (c : Config T Op Res S)
    (phases : T → Phase K) : Prop where
  safe : ∀ t, (c.scripts t).Safe D (fun phase _ => phase.Outside) (phases t)
  owner : ∀ t, ¬(phases t).Outside ↔ c.owner = some t
  knows : ∀ t known, phases t = .inside known → knows t known c.shared
  inv : inv c.shared

namespace Config.Ordered
variable {c : Config T Op Res S} {phases : T → Phase K} {t : T}

/-- A thread goes on in a phase; the owner, the shared state and the other threads are as is said. -/
theorem goesOn (h : c.Ordered D knows inv phases) {script : Script Op Res Unit} {phase : Phase K} {owner : Option T} {s : S}
    (hscript : script.Safe D (fun phase _ => phase.Outside) phase) (hmine : ¬phase.Outside ↔ owner = some t)
    (hothers : ∀ t', t' ≠ t → (c.owner = some t' ↔ owner = some t')) (hinv : inv s)
    (hknown : ∀ known, phase = .inside known → knows t known s)
    (hkept : ∀ t' known, t' ≠ t → phases t' = .inside known → knows t' known s) :
    ({ c with owner := owner, shared := s }.goesOn t script).Ordered D knows inv (Function.update phases t phase) := by
  refine ⟨fun t' => ?_, fun t' => ?_, fun t' known hphase => ?_, hinv⟩
  · by_cases ht : t' = t
    · subst ht
      simp only [Config.goesOn, Function.update_self]
      exact hscript
    · simp only [Config.goesOn, Function.update_of_ne ht]
      exact h.safe t'
  · by_cases ht : t' = t
    · subst ht
      rw [Function.update_self]
      exact hmine
    · rw [Function.update_of_ne ht, h.owner t']
      exact hothers t' ht
  · by_cases ht : t' = t
    · subst ht
      rw [Function.update_self] at hphase
      exact hknown known hphase
    · rw [Function.update_of_ne ht] at hphase
      exact hkept t' known ht hphase

/-- A thread outside goes on outside, and the shared state is as before. -/
theorem outside (h : c.Ordered D knows inv phases) {script : Script Op Res Unit} {phase : Phase K} {s : S}
    (hscript : script.Safe D (fun phase _ => phase.Outside) phase) (hphase : phase.Outside) (hout : (phases t).Outside) (hinv : inv s)
    (hkept : ∀ t' known, knows t' known c.shared → knows t' known s) :
    ({ c with shared := s }.goesOn t script).Ordered D knows inv (Function.update phases t phase) := by
  have howner : c.owner ≠ some t := fun howner => (h.owner t).mpr howner hout
  refine h.goesOn hscript (by simp [hphase, howner]) (fun _ _ => Iff.rfl) hinv ?_ fun t' known _ hinside => ?_
  · rintro known rfl
    exact hphase.elim
  · exact hkept t' known (h.knows t' known hinside)

/-- A thread takes the lock when it is free. -/
theorem take (h : c.Ordered D knows inv phases) (hsound : D.Sound exec knows inv) {k : Script Op Res Unit} (hfree : c.owner = none)
    (hk : k.Safe D (fun phase _ => phase.Outside) (.inside D.taken)) :
    ({ c with owner := some t }.goesOn t k).Ordered D knows inv (Function.update phases t (.inside D.taken)) := by
  refine h.goesOn hk (by simp [Phase.Outside]) (fun t' ht => ?_) h.inv (fun known hknown => ?_) fun t' known _ => h.knows t' known
  · rw [hfree]
    simp [Ne.symm ht]
  · cases hknown
    exact hsound.taken t c.shared h.inv

/-- What a step of any thread leaves. -/
theorem step (h : c.Ordered D knows inv phases) (hsound : D.Sound exec knows inv) (hjobs : ∀ t script, jobs t script → script.Job D)
    {c' : Config T Op Res S} (hstep : Step exec jobs c c') : ∃ phases, c'.Ordered D knows inv phases := by
  cases hstep with
  | @start t script hdone hjob =>
    have hphase := h.safe t
    rw [hdone] at hphase
    exact ⟨_, h.outside (hjobs t script hjob) trivial hphase h.inv fun _ _ => id⟩
  | @lock t k hscript hfree =>
    have hsafe := h.safe t
    rw [hscript] at hsafe
    exact ⟨_, h.take hsound hfree hsafe.2⟩
  | @tryLock_taken t k hscript hfree =>
    have hsafe := h.safe t
    rw [hscript] at hsafe
    exact ⟨_, h.take hsound hfree hsafe.2.1⟩
  | @tryLock_failed t k hscript =>
    have hsafe := h.safe t
    rw [hscript] at hsafe
    exact ⟨_, h.outside hsafe.2.2 trivial (by rw [hsafe.1]; trivial) h.inv fun _ _ => id⟩
  | @unlock t k hscript =>
    have hsafe := h.safe t
    rw [hscript] at hsafe
    have howner : c.owner = some t := (h.owner t).mp hsafe.1
    refine ⟨_, h.goesOn hsafe.2 (by simp [Phase.Outside]) (fun t' ht => ?_) h.inv nofun fun t' known _ => h.knows t' known⟩
    rw [howner]
    simp [Ne.symm ht]
  | @op t o k r s hscript hexec =>
    have hsafe := h.safe t
    rw [hscript] at hsafe
    cases hphase : phases t with
    | waiting | done =>
      rw [hphase] at hsafe
      obtain ⟨hinv, hstays⟩ := hsound.free t c.shared o r s h.inv hsafe.1 hexec
      exact ⟨_, h.outside (hsafe.2 r) trivial (by rw [hphase]; trivial) hinv hstays⟩
    | inside known =>
      rw [hphase] at hsafe
      have howner : c.owner = some t := (h.owner t).mp (by rw [hphase]; exact id)
      obtain ⟨hinv, hnext⟩ := hsound.held t known c.shared o r s h.inv (h.knows t known hphase) hsafe.1 hexec
      refine ⟨_, h.goesOn (hsafe.2 r) (by simp [howner, Phase.Outside]) (fun _ _ => Iff.rfl) hinv (fun known' hknown' => ?_)
        fun t' known' ht hphase' => ?_⟩
      · cases hknown'
        exact hnext
      · -- No other thread is in the lock.
        have hother : c.owner = some t' := (h.owner t').mp (by rw [hphase']; exact id)
        rw [howner] at hother
        exact absurd (Option.some.inj hother).symm ht

end Config.Ordered

/-- If all jobs keep to a discipline that is right about the operations, all runs are ordered. -/
theorem ordered_of_reachable (hsound : D.Sound exec knows inv) (hjobs : ∀ t script, jobs t script → script.Job D)
    (hinit : ∀ s, init s → inv s) {c : Config T Op Res S} (h : Reachable exec jobs init c) :
    ∃ phases, c.Ordered D knows inv phases := by
  induction h with
  | @start s hs => exact ⟨fun _ => .waiting, fun _ => trivial, fun _ => by simp [Phase.Outside], nofun, hinit s hs⟩
  | step _ hstep ih =>
    obtain ⟨phases, hordered⟩ := ih
    exact hordered.step hsound hjobs hstep

end Sound

/-! ### Turns -/

section Turns
variable {T Op S K α : Type} {Res : Op → Type} [DecidableEq T] {D : Discipline Op Res K} {act : (o : Op) → S → Res o × S}
  {jobs : T → Script Op Res Unit → Prop} {s s₀ : S}

/-- The script on its own, where it gets the lock. -/
def Script.alone (act : (o : Op) → S → Res o × S) : Script Op Res α → S → α × S
  | .ret a, s => (a, s)
  | .lock k, s => k.alone act s
  | .tryLock k, s => (k true).alone act s
  | .unlock k, s => k.alone act s
  | .op o k, s => (k (act o s).1).alone act (act o s).2

theorem Script.alone_bind {β : Type} (script : Script Op Res α) (f : α → Script Op Res β) (s : S) :
    (script.bind f).alone act s = (f (script.alone act s).1).alone act (script.alone act s).2 := by
  induction script generalizing s with
  | ret a => rfl
  | lock k ih => exact ih s
  | tryLock k ih => exact ih true s
  | unlock k ih => exact ih s
  | op o k ih => exact ih (act o s).1 (act o s).2

/-- Jobs one after the other. -/
def serial (act : (o : Op) → S → Res o × S) (done : List (Script Op Res Unit)) (s₀ : S) : S :=
  done.foldl (fun s job => (job.alone act s).2) s₀

theorem serial_concat (done : List (Script Op Res Unit)) (job : Script Op Res Unit) :
    serial act (done ++ [job]) s₀ = (job.alone act (serial act done s₀)).2 := by
  unfold serial
  rw [List.foldl_append, List.foldl_cons, List.foldl_nil]

/-- After its turn a script changes nothing. -/
theorem Script.Safe.alone_done (hfree : ∀ o s, D.free o → (act o s).2 = s) {Q : Phase K → α → Prop} {script : Script Op Res α}
    (h : script.Safe D Q .done) : (script.alone act s).2 = s := by
  induction script generalizing s with
  | ret a => rfl
  | lock k ih => cases h.1
  | tryLock k ih => cases h.1
  | unlock k ih => exact absurd trivial h.1
  | op o k ih =>
    rw [alone, ih _ (h.2 _)]
    exact hfree o s h.1

/-- The script takes the lock next. -/
def Script.Takes : Script Op Res α → Prop
  | .lock _ | .tryLock _ => True
  | _ => False

theorem Script.Safe.waiting {Q : Phase K → α → Prop} {script : Script Op Res α} {phase : Phase K} (h : script.Safe D Q phase)
    (htakes : script.Takes) : phase = .waiting := by
  cases script with
  | lock k => exact h.1
  | tryLock k => exact h.1
  | ret | unlock | op => exact htakes.elim

/-- The jobs in `done` have had their turns; the last of them is in it if the lock is taken. -/
structure Config.InTurn (act : (o : Op) → S → Res o × S) (jobs : T → Script Op Res Unit → Prop) (s₀ : S) (c : Config T Op Res S)
    (done : List (Script Op Res Unit)) : Prop where
  made : ∀ job ∈ done, ∃ t, jobs t job
  takes : ∀ t, (c.scripts t).Takes → jobs t (c.scripts t)
  free : c.owner = none → c.shared = serial act done s₀
  held : ∀ t, c.owner = some t → ((c.scripts t).alone act c.shared).2 = serial act done s₀

namespace Config.InTurn
variable {c : Config T Op Res S} {t : T} {done : List (Script Op Res Unit)}

/-- The scripts of the other threads are what they were. -/
theorem takes_goesOn (h : c.InTurn act jobs s₀ done) {script : Script Op Res Unit} (hscript : script.Takes → jobs t script) (t' : T) :
    ((c.goesOn t script).scripts t').Takes → jobs t' ((c.goesOn t script).scripts t') := by
  by_cases ht : t' = t
  · subst ht
    simp only [Config.goesOn, Function.update_self]
    exact hscript
  · simp only [Config.goesOn, Function.update_of_ne ht]
    exact h.takes t'

/-- A thread that is not the owner goes on, and the shared state is as before. -/
theorem goesOn (h : c.InTurn act jobs s₀ done) {script : Script Op Res Unit} (hscript : script.Takes → jobs t script)
    (hout : c.owner ≠ some t) : (c.goesOn t script).InTurn act jobs s₀ done := by
  refine ⟨h.made, h.takes_goesOn hscript, h.free, fun t' howner => ?_⟩
  have ht : t' ≠ t := fun ht => hout (ht ▸ howner)
  simp only [Config.goesOn, Function.update_of_ne ht]
  exact h.held t' howner

/-- A thread begins its turn. -/
theorem take (h : c.InTurn act jobs s₀ done) {job k : Script Op Res Unit} (hjob : jobs t job)
    (hk : ∀ s, k.alone act s = job.alone act s) (hnot : ¬k.Takes) (hfree : c.owner = none) :
    ({ c with owner := some t }.goesOn t k).InTurn act jobs s₀ (done ++ [job]) := by
  refine ⟨fun job' hmem => ?_, h.takes_goesOn fun htakes => absurd htakes hnot, nofun, fun t' howner => ?_⟩
  · rcases List.mem_append.mp hmem with hmem | hmem
    · exact h.made job' hmem
    · cases List.mem_singleton.mp hmem
      exact ⟨t, hjob⟩
  · cases howner
    simp only [Config.goesOn, Function.update_self]
    rw [hk, serial_concat, ← h.free hfree]

theorem step {phases : T → Phase K} (h : c.InTurn act jobs s₀ done) (hordered : c.Ordered D (fun _ _ _ => True) (fun _ => True) phases)
    (hfree : ∀ o s, D.free o → (act o s).2 = s) {c' : Config T Op Res S}
    (hstep : Step (fun _ s o r s' => act o s = (r, s')) jobs c c') : ∃ done, c'.InTurn act jobs s₀ done := by
  have hout : ∀ t, (phases t).Outside → c.owner ≠ some t := fun t houtside howner => (hordered.owner t).mpr howner houtside
  cases hstep with
  | @start t script hdone hjob =>
    have hphase := hordered.safe t
    rw [hdone] at hphase
    exact ⟨done, h.goesOn (fun _ => hjob) (hout t hphase)⟩
  | @lock t k hscript howner =>
    have hsafe := hordered.safe t
    rw [hscript] at hsafe
    have hjob := h.takes t (by rw [hscript]; trivial)
    rw [hscript] at hjob
    exact ⟨_, h.take hjob (fun _ => rfl) (fun htakes => nomatch hsafe.2.waiting htakes) howner⟩
  | @tryLock_taken t k hscript howner =>
    have hsafe := hordered.safe t
    rw [hscript] at hsafe
    have hjob := h.takes t (by rw [hscript]; trivial)
    rw [hscript] at hjob
    exact ⟨_, h.take hjob (fun _ => rfl) (fun htakes => nomatch hsafe.2.1.waiting htakes) howner⟩
  | @tryLock_failed t k hscript =>
    have hsafe := hordered.safe t
    rw [hscript] at hsafe
    refine ⟨done, h.goesOn (fun htakes => nomatch hsafe.2.2.waiting htakes) (hout t ?_)⟩
    rw [hsafe.1]
    trivial
  | @unlock t k hscript =>
    have hsafe := hordered.safe t
    rw [hscript] at hsafe
    have hheld := h.held t ((hordered.owner t).mp hsafe.1)
    rw [hscript, Script.alone, hsafe.2.alone_done hfree] at hheld
    exact ⟨done, h.made, h.takes_goesOn (fun htakes => nomatch hsafe.2.waiting htakes), fun _ => hheld, nofun⟩
  | @op t o k r s hscript hexec =>
    have hsafe := hordered.safe t
    rw [hscript] at hsafe
    cases hphase : phases t with
    | waiting | done =>
      rw [hphase] at hsafe
      have hshared : s = c.shared := by
        rw [← hfree o c.shared hsafe.1, hexec]
      subst hshared
      refine ⟨done, h.goesOn (fun htakes => nomatch (hsafe.2 r).waiting htakes) (hout t ?_)⟩
      rw [hphase]
      trivial
    | inside known =>
      rw [hphase] at hsafe
      have howner : c.owner = some t := (hordered.owner t).mp (by rw [hphase]; exact id)
      have hheld := h.held t howner
      rw [hscript, Script.alone, hexec] at hheld
      refine ⟨done, h.made, h.takes_goesOn (fun htakes => nomatch (hsafe.2 r).waiting htakes), fun hnone => ?_, fun t' howner' => ?_⟩
      · exact nomatch howner.symm.trans hnone
      · cases howner.symm.trans howner'
        simp only [Config.goesOn, Function.update_self]
        exact hheld

end Config.InTurn

/-- If what is free changes nothing, jobs that keep to a discipline have their turns one after the other. -/
theorem inTurn_of_reachable (hfree : ∀ o s, D.free o → (act o s).2 = s) (hjobs : ∀ t script, jobs t script → script.Job D)
    {c : Config T Op Res S} (h : Reachable (fun _ s o r s' => act o s = (r, s')) jobs (· = s₀) c) :
    ∃ done, c.InTurn act jobs s₀ done := by
  have hsound : D.Sound (fun (_ : T) s o r s' => act o s = (r, s')) (fun _ _ _ => True) fun _ => True :=
    ⟨fun _ _ _ => trivial, fun _ _ _ _ _ _ _ _ _ _ => ⟨trivial, trivial⟩, fun _ _ _ _ _ _ _ _ => ⟨trivial, fun _ _ _ => trivial⟩⟩
  induction h with
  | @start s hs =>
    subst hs
    exact ⟨[], by simp, fun _ => False.elim, fun _ => rfl, nofun⟩
  | step hreach hstep ih =>
    obtain ⟨done, hturn⟩ := ih
    obtain ⟨phases, hordered⟩ := ordered_of_reachable hsound hjobs (fun _ _ => trivial) hreach
    exact hturn.step hordered hfree hstep

end Turns

/-! ### Logs -/

section Since
variable {ε : Type} {p q : ε → Prop} {e : ε} {log : List ε}

/-- An entry of the log is as `p` says and all after it are as `q` says. The last entry comes first. -/
def Since (q p : ε → Prop) (log : List ε) : Prop := ∃ after e before, log = after ++ e :: before ∧ p e ∧ ∀ x ∈ after, q x

theorem Since.now (h : p e) : Since q p (e :: log) := ⟨[], e, log, rfl, h, by simp⟩

theorem Since.later (h : Since q p log) (he : q e) : Since q p (e :: log) := by
  obtain ⟨after, e', before, rfl, hp, hq⟩ := h
  exact ⟨e :: after, e', before, rfl, hp, List.forall_mem_cons.mpr ⟨he, hq⟩⟩

end Since
end Lib.Threads
