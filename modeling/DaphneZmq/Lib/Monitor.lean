import DaphneZmq.Lib.Runs
import Mathlib.Data.Set.Card
import Mathlib.Logic.Function.Basic

/-! # Monitors

Data under a mutex, with condition variables. An operation takes the mutex, looks at the data and either sleeps on a
condition variable, which frees the mutex, or changes the data, sends its notifications and frees the mutex. A sleeping
thread is woken by a notification or by itself, takes the mutex again and looks at the data again. The threads take their
steps in any order, and nothing bounds their number.

The operations that finish take effect one after the other (`Run.serial`). No wake-up is lost where the data can serve no
more of the threads on a variable than there are wake-ups of it under way (`Inv`). -/

namespace Lib.Monitor

/-- A notification of a condition variable, to one of its threads or to all of them. -/
inductive Note (κ : Type) where
  | one (c : κ)
  | all (c : κ)

/-- What an operation that looks at the data comes to. -/
inductive Turn (σ κ ρ : Type) where
  | wait (c : κ)
  | done (data : σ) (notes : List (Note κ)) (result : ρ)

/-- Where a thread is. `inside` and `leaving` have the mutex; `inside` says on which variable the thread slept before. -/
inductive Phase (κ Op ρ : Type) where
  | outside
  | entering (op : Op)
  | asleep (op : Op) (c : κ)
  | woken (op : Op) (c : κ)
  | inside (op : Op) (was : Option κ)
  | leaving (notes : List (Note κ)) (result : ρ)

inductive Label (Tid Op ρ : Type) where
  | call (t : Tid) (op : Op)
  | enter (t : Tid)
  | resume (t : Tid)
  | sleep (t : Tid) (op : Op)
  | finish (t : Tid) (op : Op) (result : ρ)
  | notify (t : Tid)
  | spurious (t : Tid)
  | unlock (t : Tid) (result : ρ)

structure Config (Tid σ κ Op ρ : Type) where
  data : σ
  mutex : Option Tid
  phase : Tid → Phase κ Op ρ

section Steps
variable {Tid σ κ Op ρ : Type}

/-- No thread has called anything yet. -/
def Config.start (d : σ) : Config Tid σ κ Op ρ := ⟨d, none, fun _ => .outside⟩

def Config.set [DecidableEq Tid] (s : Config Tid σ κ Op ρ) (t : Tid) (ph : Phase κ Op ρ) : Config Tid σ κ Op ρ :=
  { s with phase := Function.update s.phase t ph }

/-- A thread that sleeps on `c` is woken, any other stays where it is. -/
def Phase.wake [DecidableEq κ] (c : κ) : Phase κ Op ρ → Phase κ Op ρ
  | .asleep op c' => if c' = c then .woken op c' else .asleep op c'
  | ph => ph

def Config.wakeAll [DecidableEq κ] (s : Config Tid σ κ Op ρ) (c : κ) : Config Tid σ κ Op ρ :=
  { s with phase := fun t => (s.phase t).wake c }

variable [DecidableEq Tid] [DecidableEq κ]

/-- A thread takes a step. A notification of one thread is lost when none sleeps, and wakes any one of them otherwise. -/
inductive Step (turn : Op → σ → Turn σ κ ρ) :
    Config Tid σ κ Op ρ → Label Tid Op ρ → Config Tid σ κ Op ρ → Prop where
  | call {s : Config Tid σ κ Op ρ} {t : Tid} (op : Op) (hph : s.phase t = .outside) :
      Step turn s (.call t op) (s.set t (.entering op))
  | enter {s : Config Tid σ κ Op ρ} {t : Tid} {op : Op} (hph : s.phase t = .entering op) (hfree : s.mutex = none) :
      Step turn s (.enter t) { s.set t (.inside op none) with mutex := some t }
  | resume {s : Config Tid σ κ Op ρ} {t : Tid} {op : Op} {c : κ} (hph : s.phase t = .woken op c)
      (hfree : s.mutex = none) :
      Step turn s (.resume t) { s.set t (.inside op (some c)) with mutex := some t }
  | sleep {s : Config Tid σ κ Op ρ} {t : Tid} {op : Op} {was : Option κ} {c : κ} (hph : s.phase t = .inside op was)
      (hturn : turn op s.data = .wait c) :
      Step turn s (.sleep t op) { s.set t (.asleep op c) with mutex := none }
  | finish {s : Config Tid σ κ Op ρ} {t : Tid} {op : Op} {was : Option κ} {d : σ} {notes : List (Note κ)} {result : ρ}
      (hph : s.phase t = .inside op was) (hturn : turn op s.data = .done d notes result) :
      Step turn s (.finish t op result) { s.set t (.leaving notes result) with data := d }
  | notifyNone {s : Config Tid σ κ Op ρ} {t : Tid} {c : κ} {notes : List (Note κ)} {result : ρ}
      (hph : s.phase t = .leaving (.one c :: notes) result) (hnone : ∀ u op, s.phase u ≠ .asleep op c) :
      Step turn s (.notify t) (s.set t (.leaving notes result))
  | notifyOne {s : Config Tid σ κ Op ρ} {t u : Tid} {op : Op} {c : κ} {notes : List (Note κ)} {result : ρ}
      (hph : s.phase t = .leaving (.one c :: notes) result) (hu : s.phase u = .asleep op c) :
      Step turn s (.notify t) ((s.set u (.woken op c)).set t (.leaving notes result))
  | notifyAll {s : Config Tid σ κ Op ρ} {t : Tid} {c : κ} {notes : List (Note κ)} {result : ρ}
      (hph : s.phase t = .leaving (.all c :: notes) result) :
      Step turn s (.notify t) ((s.wakeAll c).set t (.leaving notes result))
  | spurious {s : Config Tid σ κ Op ρ} {t : Tid} {op : Op} {c : κ} (hph : s.phase t = .asleep op c) :
      Step turn s (.spurious t) (s.set t (.woken op c))
  | unlock {s : Config Tid σ κ Op ρ} {t : Tid} {result : ρ} (hph : s.phase t = .leaving [] result) :
      Step turn s (.unlock t result) { s.set t .outside with mutex := none }

end Steps

/-! ### The order in which the operations take effect -/

section Serial
variable {Tid σ κ Op ρ : Type}

def Label.finished : Label Tid Op ρ → Option (Op × ρ)
  | .finish _ op result => some (op, result)
  | _ => none

/-- The operations of a run that finish, in order, with what they return. -/
def finished (ls : List (Label Tid Op ρ)) : List (Op × ρ) := ls.filterMap Label.finished

/-- From `d`, the operations done one after the other return these results and leave `d'`. -/
inductive Serial (turn : Op → σ → Turn σ κ ρ) : σ → List (Op × ρ) → σ → Prop where
  | nil (d : σ) : Serial turn d [] d
  | cons {d d' d'' : σ} {op : Op} {notes : List (Note κ)} {result : ρ} {ops : List (Op × ρ)} :
      turn op d = .done d' notes result → Serial turn d' ops d'' → Serial turn d ((op, result) :: ops) d''

variable [DecidableEq Tid] [DecidableEq κ] {turn : Op → σ → Turn σ κ ρ} {s t : Config Tid σ κ Op ρ}

/-- What the operations do does not depend on how the threads' steps interleave. -/
theorem serial {ls : List (Label Tid Op ρ)} (h : Run (Step turn) s ls t) :
    Serial turn s.data (finished ls) t.data := by
  induction h with
  | nil s => exact .nil s.data
  | cons hstep _ ih =>
    cases hstep with
    | finish hph hturn => exact .cons hturn ih
    | call | enter | resume | sleep | notifyNone | notifyOne | notifyAll | spurious | unlock => exact ih

end Serial

/-! ### Sleeping and woken threads -/

section Sleeping
variable {Tid σ κ Op ρ : Type}

def Phase.Holds : Phase κ Op ρ → Prop
  | .inside _ _ => True
  | .leaving _ _ => True
  | _ => False

/-- The variable that a thread sleeps on, or slept on before it looks at the data again. -/
def Phase.var : Phase κ Op ρ → Option (Op × κ)
  | .asleep op c => some (op, c)
  | .woken op c => some (op, c)
  | .inside op (some c) => some (op, c)
  | _ => none

def sleepers (s : Config Tid σ κ Op ρ) (c : κ) : Set Tid := {u | ∃ op, s.phase u = .asleep op c}

/-- The threads on `c` that were woken and have not taken the mutex yet. -/
def awake (s : Config Tid σ κ Op ρ) (c : κ) : Set Tid := {u | ∃ op, s.phase u = .woken op c}

section Set
variable [DecidableEq Tid] {s : Config Tid σ κ Op ρ} {t : Tid} {ph : Phase κ Op ρ} {c : κ}

theorem set_phase_self : (s.set t ph).phase t = ph := Function.update_self ..

theorem set_phase_of_ne {u : Tid} (h : u ≠ t) : (s.set t ph).phase u = s.phase u := Function.update_of_ne h ..

/-- A thread that does not go to sleep leaves no new sleeper. -/
theorem sleepers_of_set (hph : ∀ op, ph ≠ .asleep op c) (h : (sleepers (s.set t ph) c).Nonempty) :
    (sleepers s c).Nonempty := by
  obtain ⟨u, op, hu⟩ := h
  by_cases hut : u = t
  · subst hut
    exact absurd (set_phase_self.symm.trans hu) (hph op)
  · exact ⟨u, op, (set_phase_of_ne hut).symm.trans hu⟩

theorem awake_le_set (ht : ∀ op, s.phase t ≠ .woken op c) : (awake s c).encard ≤ (awake (s.set t ph) c).encard := by
  refine Set.encard_le_encard fun u hu => ?_
  obtain ⟨op, hu⟩ := hu
  have hut : u ≠ t := fun h => ht op (h ▸ hu)
  exact ⟨op, (set_phase_of_ne hut).trans hu⟩

theorem awake_le_set_add_one : (awake s c).encard ≤ (awake (s.set t ph) c).encard + 1 := by
  refine le_trans (Set.encard_le_encard fun u hu => ?_) (Set.encard_insert_le _ t)
  obtain ⟨op, hu⟩ := hu
  by_cases hut : u = t
  · exact Or.inl hut
  · exact Or.inr ⟨op, (set_phase_of_ne hut).trans hu⟩

theorem awake_set_woken {op : Op} (ht : ∀ op, s.phase t ≠ .woken op c) :
    (awake (s.set t (.woken op c)) c).encard = (awake s c).encard + 1 := by
  have hnot : t ∉ awake s c := fun ⟨op, h⟩ => ht op h
  rw [← Set.encard_insert_of_notMem hnot]
  congr 1
  ext u
  by_cases hut : u = t
  · subst hut
    exact ⟨fun _ => Or.inl rfl, fun _ => ⟨op, set_phase_self⟩⟩
  · constructor
    · rintro ⟨op', hu⟩
      exact Or.inr ⟨op', (set_phase_of_ne hut).symm.trans hu⟩
    · rintro (hu | ⟨op', hu⟩)
      · exact absurd hu hut
      · exact ⟨op', (set_phase_of_ne hut).trans hu⟩

end Set

section WakeAll
variable [DecidableEq κ]

theorem wakeAll_of_ne {c c' : κ} (h : c' ≠ c) (s : Config Tid σ κ Op ρ) :
    sleepers (s.wakeAll c') c = sleepers s c ∧ awake (s.wakeAll c') c = awake s c := by
  have hne : c ≠ c' := fun hc => h hc.symm
  constructor
  · ext u
    simp only [sleepers, Config.wakeAll, Set.mem_ofPred_eq]
    cases hu : s.phase u with
    | asleep op c'' =>
      simp only [Phase.wake]
      split <;> simp_all
    | outside | entering | woken | inside | leaving => simp [Phase.wake]
  · ext u
    simp only [awake, Config.wakeAll, Set.mem_ofPred_eq]
    cases hu : s.phase u with
    | asleep op c'' =>
      simp only [Phase.wake]
      split <;> simp_all
    | outside | entering | woken | inside | leaving => simp [Phase.wake]

theorem sleepers_wakeAll (s : Config Tid σ κ Op ρ) (c : κ) : sleepers (s.wakeAll c) c = ∅ := by
  ext u
  simp only [sleepers, Config.wakeAll, Set.mem_ofPred_eq, Set.mem_empty_iff_false, iff_false, not_exists]
  intro op
  cases hu : s.phase u with
  | asleep op' c' =>
    simp only [Phase.wake]
    split <;> simp_all
  | outside | entering | woken | inside | leaving => simp [Phase.wake]

@[simp] theorem wake_holds (c : κ) (ph : Phase κ Op ρ) : (ph.wake c).Holds ↔ ph.Holds := by
  cases ph with
  | asleep op c' =>
    simp only [Phase.wake]
    split <;> simp [Phase.Holds]
  | outside | entering | woken | inside | leaving => rfl

@[simp] theorem wake_var (c : κ) (ph : Phase κ Op ρ) : (ph.wake c).var = ph.var := by
  cases ph with
  | asleep op c' =>
    simp only [Phase.wake]
    split <;> rfl
  | outside | entering | woken | inside | leaving => rfl

end WakeAll

end Sleeping

/-! ### Wake-ups under way -/

section Wakeups
variable {Tid σ κ Op ρ : Type} [DecidableEq κ]

/-- How many threads on `c` the notifications wake. -/
def wakes (c : κ) : List (Note κ) → ℕ∞
  | [] => 0
  | .one c' :: notes => (if c' = c then 1 else 0) + wakes c notes
  | .all c' :: notes => if c' = c then ⊤ else wakes c notes

/-- The wake-ups on `c` that the thread with the mutex stands for: itself, or those it is about to send. -/
def Phase.owes (c : κ) : Phase κ Op ρ → ℕ∞
  | .inside _ (some c') => if c' = c then 1 else 0
  | .leaving notes _ => wakes c notes
  | _ => 0

/-- The wake-ups on `c` that are under way. -/
noncomputable def pending (s : Config Tid σ κ Op ρ) (c : κ) : ℕ∞ :=
  (awake s c).encard + s.mutex.elim 0 fun t => (s.phase t).owes c

/-- `want c d` is how many threads on `c` the data `d` can serve: none of those that go to sleep, and an operation makes
it larger only by what it notifies; one that slept on `c` before also uses up its own wake-up. -/
structure Serves (turn : Op → σ → Turn σ κ ρ) (want : κ → σ → ℕ∞) : Prop where
  wait {op : Op} {d : σ} {c : κ} : turn op d = .wait c → want c d = 0
  one_var {op : Op} {d d' : σ} {c c' : κ} : turn op d = .wait c → turn op d' = .wait c' → c' = c
  done {op : Op} {d d' : σ} {notes : List (Note κ)} {result : ρ} (c : κ) :
    turn op d = .done d' notes result → want c d' ≤ want c d + wakes c notes
  served {op : Op} {d₀ d d' : σ} {notes : List (Note κ)} {result : ρ} {c : κ} : turn op d₀ = .wait c →
    turn op d = .done d' notes result → want c d' + 1 ≤ want c d + wakes c notes

/-- What holds of a configuration after any run. -/
structure Inv (turn : Op → σ → Turn σ κ ρ) (want : κ → σ → ℕ∞) (s : Config Tid σ κ Op ρ) : Prop where
  mutex (t : Tid) : s.mutex = some t ↔ (s.phase t).Holds
  var {t : Tid} {op : Op} {c : κ} : (s.phase t).var = some (op, c) → ∃ d, turn op d = .wait c
  wakeups (c : κ) : (sleepers s c).Nonempty → want c s.data ≤ pending s c

namespace Inv
variable {s : Config Tid σ κ Op ρ} {t : Tid} {turn : Op → σ → Turn σ κ ρ} {want : κ → σ → ℕ∞} {c : κ}

theorem start (d : σ) : Inv turn want (Config.start d : Config Tid σ κ Op ρ) where
  mutex t := by simp [Config.start, Phase.Holds]
  var h := by simp [Config.start, Phase.var] at h
  wakeups c := by
    rintro ⟨u, op, hu⟩
    cases hu

theorem holder_unique (h : Inv turn want s) {u : Tid} (ht : (s.phase t).Holds) (hu : (s.phase u).Holds) : u = t := by
  have := (h.mutex u).mpr hu
  rw [(h.mutex t).mpr ht] at this
  exact (Option.some.inj this).symm

theorem free (h : Inv turn want s) (hfree : s.mutex = none) (u : Tid) : ¬(s.phase u).Holds := fun hu => by
  have := (h.mutex u).mpr hu
  rw [hfree] at this
  cases this

theorem pending_of_holds (h : Inv turn want s) (ht : (s.phase t).Holds) :
    pending s c = (awake s c).encard + (s.phase t).owes c := by
  rw [pending, (h.mutex t).mpr ht, Option.elim_some]

theorem pending_of_free (hfree : s.mutex = none) : pending s c = (awake s c).encard := by
  rw [pending, hfree, Option.elim_none, add_zero]

/-- Where the data can serve a sleeping thread, a wake-up is under way: another thread on the variable is woken, or the
thread with the mutex slept on it too, or it still has to notify it. -/
theorem exists_wakeup (h : Inv turn want s) {op : Op} (hsleep : s.phase t = .asleep op c) (hwant : want c s.data ≠ 0) :
    (∃ u op', s.phase u = .woken op' c) ∨ ∃ u, s.mutex = some u ∧ (s.phase u).owes c ≠ 0 := by
  have hle := h.wakeups c ⟨t, op, hsleep⟩
  by_cases hawake : (awake s c).Nonempty
  · exact Or.inl hawake
  · rw [Set.not_nonempty_iff_eq_empty] at hawake
    rw [pending, hawake, Set.encard_empty, zero_add] at hle
    cases hm : s.mutex with
    | none =>
      rw [hm, Option.elim_none] at hle
      exact absurd (le_zero_iff.mp hle) hwant
    | some u =>
      rw [hm, Option.elim_some] at hle
      exact Or.inr ⟨u, rfl, fun hz => hwant (le_zero_iff.mp (hz ▸ hle))⟩

variable [DecidableEq Tid] {ph : Phase κ Op ρ}

/-- A thread that neither takes nor frees the mutex. -/
theorem mutex_set (h : Inv turn want s) (hh : ph.Holds ↔ (s.phase t).Holds) (u : Tid) :
    s.mutex = some u ↔ ((s.set t ph).phase u).Holds := by
  by_cases hut : u = t
  · subst hut
    rw [set_phase_self, hh]
    exact h.mutex u
  · rw [set_phase_of_ne hut]
    exact h.mutex u

theorem mutex_take (h : Inv turn want s) (hfree : s.mutex = none) (hh : ph.Holds) (u : Tid) :
    some t = some u ↔ ((s.set t ph).phase u).Holds := by
  by_cases hut : u = t
  · subst hut
    simp [set_phase_self, hh]
  · rw [set_phase_of_ne hut]
    exact ⟨fun he => absurd (Option.some.inj he).symm hut, fun hu => absurd hu (h.free hfree u)⟩

theorem mutex_free (h : Inv turn want s) (ht : (s.phase t).Holds) (hh : ¬ph.Holds) (u : Tid) :
    none = some u ↔ ((s.set t ph).phase u).Holds := by
  by_cases hut : u = t
  · subst hut
    simp [set_phase_self, hh]
  · rw [set_phase_of_ne hut]
    exact ⟨(fun he => nomatch he), fun hu => absurd (h.holder_unique ht hu) hut⟩

theorem var_set (h : Inv turn want s)
    (hv : ∀ {op c}, ph.var = some (op, c) → ∃ d, turn op d = .wait c) {u : Tid} {op : Op} {c : κ}
    (hu : ((s.set t ph).phase u).var = some (op, c)) : ∃ d, turn op d = .wait c := by
  by_cases hut : u = t
  · subst hut
    rw [set_phase_self] at hu
    exact hv hu
  · rw [set_phase_of_ne hut] at hu
    exact h.var hu

/-- What the thread with the mutex owes does not depend on a thread without it. -/
theorem owes_set (h : Inv turn want s) (ht : ¬(s.phase t).Holds) :
    (s.mutex.elim 0 fun u => ((s.set t ph).phase u).owes c) = s.mutex.elim 0 fun u => (s.phase u).owes c := by
  cases hm : s.mutex with
  | none => rfl
  | some u =>
    have hut : u ≠ t := fun he => ht (he ▸ (h.mutex u).mp hm)
    simp only [Option.elim_some, set_phase_of_ne hut]

/-- A step of a thread without the mutex that wakes nobody but itself and does not go to sleep. -/
theorem set_of_not_holds (h : Inv turn want s) (ht : ¬(s.phase t).Holds) (hh : ¬ph.Holds)
    (hsleep : ∀ op c, ph ≠ .asleep op c) (hwoken : ∀ op c, s.phase t ≠ .woken op c)
    (hv : ∀ {op c}, ph.var = some (op, c) → ∃ d, turn op d = .wait c) : Inv turn want (s.set t ph) where
  mutex := h.mutex_set (iff_of_false hh ht)
  var := h.var_set hv
  wakeups c hne := by
    have hle := h.wakeups c (sleepers_of_set (fun op => hsleep op c) hne)
    refine le_trans hle ?_
    simp only [pending]
    rw [show (s.set t ph).mutex = s.mutex from rfl, h.owes_set ht]
    exact add_le_add_left (awake_le_set fun op => hwoken op c) _

theorem enter (h : Inv turn want s) {op : Op} (hph : s.phase t = .entering op) (hfree : s.mutex = none) :
    Inv turn want { s.set t (.inside op none) with mutex := some t } where
  mutex := h.mutex_take hfree trivial
  var := h.var_set (by simp [Phase.var])
  wakeups c hne := by
    have hle := h.wakeups c (sleepers_of_set (s := s) (t := t) (fun _ hc => by cases hc) hne)
    rw [pending_of_free hfree] at hle
    have hwoken : (awake s c).encard ≤ (awake (s.set t (.inside op none)) c).encard := awake_le_set (by simp [hph])
    exact le_trans hle (le_trans hwoken le_self_add)

theorem resume (h : Inv turn want s) {op : Op} {c : κ} (hph : s.phase t = .woken op c) (hfree : s.mutex = none) :
    Inv turn want { s.set t (.inside op (some c)) with mutex := some t } where
  mutex := h.mutex_take hfree trivial
  var := h.var_set fun {op' c'} hv => by
    obtain ⟨rfl, rfl⟩ : op = op' ∧ c = c' := by simpa [Phase.var] using hv
    exact h.var (t := t) (by simp [hph, Phase.var])
  wakeups c' hne := by
    have hle := h.wakeups c' (sleepers_of_set (s := s) (t := t) (fun _ hc => by cases hc) hne)
    rw [pending_of_free hfree] at hle
    refine le_trans hle ?_
    simp only [pending, Option.elim_some, set_phase_self, Phase.owes]
    -- The wake-up of the thread is its own from here on.
    by_cases hc : c = c'
    · rw [if_pos hc]
      exact awake_le_set_add_one
    · rw [if_neg hc, add_zero]
      exact awake_le_set (t := t) (by simp [hph, hc])

theorem sleep (serves : Serves turn want) (h : Inv turn want s) {op : Op} {was : Option κ} {c : κ}
    (hph : s.phase t = .inside op was) (hturn : turn op s.data = .wait c) :
    Inv turn want { s.set t (.asleep op c) with mutex := none } where
  mutex := h.mutex_free (hph ▸ trivial) (fun hf => hf)
  var := h.var_set fun {op' c'} hv => by
    obtain ⟨rfl, rfl⟩ : op = op' ∧ c = c' := by simpa [Phase.var] using hv
    exact ⟨s.data, hturn⟩
  wakeups c' hne := by
    by_cases hc : c = c'
    · subst hc
      exact (serves.wait hturn).trans_le bot_le
    · have hle := h.wakeups c' (sleepers_of_set (s := s) (t := t) (by simp [hc]) hne)
      refine le_trans hle ?_
      have howes : (s.phase t).owes c' = 0 := by
        rw [hph]
        cases was with
        | none => rfl
        | some c₀ =>
          have hvar : (s.phase t).var = some (op, c₀) := by simp [hph, Phase.var]
          obtain ⟨d, hd⟩ := h.var hvar
          rw [serves.one_var hturn hd]
          exact if_neg hc
      rw [h.pending_of_holds (t := t) (by rw [hph]; trivial), howes, add_zero]
      exact le_trans (awake_le_set (by simp [hph])) le_self_add

theorem finish (serves : Serves turn want) (h : Inv turn want s) {op : Op} {was : Option κ} {d : σ}
    {notes : List (Note κ)} {result : ρ} (hph : s.phase t = .inside op was)
    (hturn : turn op s.data = .done d notes result) :
    Inv turn want { s.set t (.leaving notes result) with data := d } where
  mutex := h.mutex_set (by simp [hph, Phase.Holds])
  var := h.var_set (by simp [Phase.var])
  wakeups c hne := by
    have hle := h.wakeups c (sleepers_of_set (s := s) (t := t) (fun _ hc => by cases hc) hne)
    have hold : (s.phase t).Holds := by rw [hph]; trivial
    rw [h.pending_of_holds hold, hph] at hle
    simp only [pending, show (s.set t (.leaving notes result)).mutex = some t from (h.mutex t).mpr hold,
      Option.elim_some, set_phase_self]
    have hawake : (awake s c).encard ≤ (awake (s.set t (.leaving notes result)) c).encard :=
      awake_le_set (by simp [hph])
    refine le_trans ?_ (add_le_add_left hawake _)
    -- What the thread's own wake-up stood for is served now, or was never counted.
    have hdone := serves.done c hturn
    cases was with
    | none => exact hdone.trans (add_le_add_left (by simpa [Phase.owes] using hle) _)
    | some c₀ =>
      by_cases hc : c₀ = c
      · subst hc
        have hvar : (s.phase t).var = some (op, c₀) := by simp [hph, Phase.var]
        obtain ⟨d₀, hd₀⟩ := h.var hvar
        rw [Phase.owes, if_pos rfl] at hle
        refine (ENat.add_le_add_iff_right ENat.one_ne_top).mp ?_
        calc want c₀ d + 1 ≤ want c₀ s.data + wakes c₀ notes := serves.served hd₀ hturn
          _ ≤ (awake s c₀).encard + 1 + wakes c₀ notes := add_le_add_left hle _
          _ = (awake s c₀).encard + wakes c₀ notes + 1 := add_right_comm _ _ _
      · exact hdone.trans (add_le_add_left (by simpa [Phase.owes, hc] using hle) _)

/-- A thread with the mutex sends a notification: the wake-ups that it owes less are awake in `s'`. -/
theorem notify_of {s' : Config Tid σ κ Op ρ} (h : Inv turn want s) {note : Note κ} {notes : List (Note κ)} {result : ρ}
    (hph : s.phase t = .leaving (note :: notes) result) (hdata : s'.data = s.data) (hmutex : s'.mutex = s.mutex)
    (hholds : ∀ u, u ≠ t → ((s'.phase u).Holds ↔ (s.phase u).Holds))
    (hvar : ∀ u, u ≠ t → (s'.phase u).var = (s.phase u).var) (ht : s'.phase t = .leaving notes result)
    (hcount : ∀ c, (sleepers s' c).Nonempty → (sleepers s c).Nonempty ∧
      (awake s c).encard + wakes c (note :: notes) ≤ (awake s' c).encard + wakes c notes) : Inv turn want s' where
  mutex u := by
    rw [hmutex, h.mutex u]
    by_cases hut : u = t
    · subst hut
      simp [hph, ht, Phase.Holds]
    · exact (hholds u hut).symm
  var {u op c} hu := by
    by_cases hut : u = t
    · subst hut
      simp [ht, Phase.var] at hu
    · exact h.var (hvar u hut ▸ hu)
  wakeups c hne := by
    obtain ⟨hne, hle⟩ := hcount c hne
    have hhold : (s.phase t).Holds := by rw [hph]; trivial
    have hpending := h.wakeups c hne
    rw [h.pending_of_holds hhold, hph] at hpending
    rw [hdata, pending, hmutex, (h.mutex t).mpr hhold, Option.elim_some, ht]
    exact hpending.trans hle

theorem notifyNone (h : Inv turn want s) {c : κ} {notes : List (Note κ)} {result : ρ}
    (hph : s.phase t = .leaving (.one c :: notes) result) (hnone : ∀ u op, s.phase u ≠ .asleep op c) :
    Inv turn want (s.set t (.leaving notes result)) := by
  refine h.notify_of hph rfl rfl (fun u hu => by rw [set_phase_of_ne hu]) (fun u hu => by rw [set_phase_of_ne hu])
    set_phase_self fun c' hne => ?_
  have hne := sleepers_of_set (fun _ hc => by cases hc) hne
  have hc : c ≠ c' := by
    rintro rfl
    obtain ⟨u, op, hu⟩ := hne
    exact hnone u op hu
  refine ⟨hne, ?_⟩
  rw [wakes, if_neg hc, zero_add]
  exact add_le_add_left (awake_le_set (by simp [hph])) _

theorem notifyOne (h : Inv turn want s) {u : Tid} {op : Op} {c : κ} {notes : List (Note κ)} {result : ρ}
    (hph : s.phase t = .leaving (.one c :: notes) result) (hu : s.phase u = .asleep op c) :
    Inv turn want ((s.set u (.woken op c)).set t (.leaving notes result)) := by
  have htu : t ≠ u := fun he => by
    rw [← he, hph] at hu
    cases hu
  have ht : (s.set u (.woken op c)).phase t = .leaving (.one c :: notes) result := (set_phase_of_ne htu).trans hph
  refine h.notify_of hph rfl rfl (fun v hv => ?_) (fun v hv => ?_) set_phase_self fun c' hne => ?_
  · rw [set_phase_of_ne hv]
    by_cases hvu : v = u
    · subst hvu
      simp [set_phase_self, hu, Phase.Holds]
    · rw [set_phase_of_ne hvu]
  · rw [set_phase_of_ne hv]
    by_cases hvu : v = u
    · subst hvu
      simp [set_phase_self, hu, Phase.var]
    · rw [set_phase_of_ne hvu]
  · have hne' := sleepers_of_set (fun _ hc => by cases hc) (sleepers_of_set (fun _ hc => by cases hc) hne)
    refine ⟨hne', le_trans ?_ (add_le_add_left (awake_le_set (by simp [ht])) _)⟩
    by_cases hc : c = c'
    · subst hc
      rw [wakes, if_pos rfl, awake_set_woken (by simp [hu]), add_assoc]
    · rw [wakes, if_neg hc, zero_add]
      exact add_le_add_left (awake_le_set (by simp [hu])) _

theorem notifyAll (h : Inv turn want s) {c : κ} {notes : List (Note κ)} {result : ρ}
    (hph : s.phase t = .leaving (.all c :: notes) result) :
    Inv turn want ((s.wakeAll c).set t (.leaving notes result)) := by
  have ht : (s.wakeAll c).phase t = .leaving (.all c :: notes) result := by
    simp only [Config.wakeAll, hph, Phase.wake]
  refine h.notify_of hph rfl rfl (fun u hu => ?_) (fun u hu => ?_) set_phase_self fun c' hne => ?_
  · rw [set_phase_of_ne hu]
    exact wake_holds c (s.phase u)
  · rw [set_phase_of_ne hu]
    exact wake_var c (s.phase u)
  · have hne := sleepers_of_set (fun _ hc => by cases hc) hne
    by_cases hc : c = c'
    · subst hc
      rw [sleepers_wakeAll] at hne
      exact absurd hne Set.not_nonempty_empty
    · obtain ⟨hsleep, hawake⟩ := wakeAll_of_ne hc s
      refine ⟨hsleep ▸ hne, ?_⟩
      rw [wakes, if_neg hc, ← hawake]
      exact add_le_add_left (awake_le_set (by simp [ht])) _

theorem unlock (h : Inv turn want s) {result : ρ} (hph : s.phase t = .leaving [] result) :
    Inv turn want { s.set t .outside with mutex := none } where
  mutex := h.mutex_free (by rw [hph]; trivial) (fun hf => hf)
  var := h.var_set (by simp [Phase.var])
  wakeups c hne := by
    have hle := h.wakeups c (sleepers_of_set (s := s) (t := t) (fun _ hc => by cases hc) hne)
    rw [h.pending_of_holds (t := t) (by rw [hph]; trivial), hph, Phase.owes, wakes, add_zero] at hle
    rw [pending_of_free rfl]
    exact hle.trans (awake_le_set (by simp [hph]))

/-- Every step keeps the invariant. -/
theorem step (serves : Serves turn want) {s s' : Config Tid σ κ Op ρ} {l : Label Tid Op ρ} (h : Inv turn want s)
    (hstep : Step turn s l s') : Inv turn want s' := by
  cases hstep with
  | call op hph =>
    exact h.set_of_not_holds (by simp [hph, Phase.Holds]) (fun hf => hf) (by simp) (by simp [hph]) (by simp [Phase.var])
  | enter hph hfree => exact h.enter hph hfree
  | resume hph hfree => exact h.resume hph hfree
  | sleep hph hturn => exact h.sleep serves hph hturn
  | finish hph hturn => exact h.finish serves hph hturn
  | notifyNone hph hnone => exact h.notifyNone hph hnone
  | notifyOne hph hu => exact h.notifyOne hph hu
  | notifyAll hph => exact h.notifyAll hph
  | unlock hph => exact h.unlock hph
  | @spurious t op c hph =>
    refine h.set_of_not_holds (by simp [hph, Phase.Holds]) (fun hf => hf) (by simp) (by simp [hph]) fun hv => ?_
    exact h.var (t := t) (by rwa [hph])

theorem run (serves : Serves turn want) {d : σ} {ls : List (Label Tid Op ρ)}
    (h : Run (Step turn) (Config.start d) ls s) : Inv turn want s :=
  h.invariant (fun hs => hs.step serves) (Inv.start d)

end Inv

end Wakeups

end Lib.Monitor
