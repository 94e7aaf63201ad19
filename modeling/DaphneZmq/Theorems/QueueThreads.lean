import DaphneZmq.QueueThreads
import Mathlib.Tactic.Ring

/-! # What the threads around a `BoundedQueue` can rely on

The operations take effect one after the other (`Monitor.serial`), so FIFO delivery is a fact about lists of finished
operations. Lost wake-ups need the monitor's invariant: `servable` says how many sleepers the queue could serve. -/

namespace DaphneZmq.BoundedQueue
open Lib Lib.Monitor

variable {T : Type} {capacity : Nat}

/-! ### The operations one after the other -/

section Serial

theorem accepted_cons (op : Op T) (result : Res T) (ops : List (Op T × Res T)) :
    accepted ((op, result) :: ops) = accepted [(op, result)] ++ accepted ops := by
  simp only [accepted, List.filterMap_cons, List.filterMap_nil]
  split <;> rfl

theorem pops_cons (op : Op T) (result : Res T) (ops : List (Op T × Res T)) :
    pops ((op, result) :: ops) = pops [(op, result)] ++ pops ops := by
  simp only [pops, List.filterMap_cons, List.filterMap_nil]
  split <;> rfl

theorem popped_cons (op : Op T) (result : Res T) (ops : List (Op T × Res T)) :
    popped ((op, result) :: ops) = popped [(op, result)] ++ popped ops := by
  rw [popped, pops_cons, List.filterMap_append, popped, popped]

/-- One operation keeps what was held and accepted equal to what is delivered and held. -/
theorem popped_append_queue_of_turn {op : Op T} {q q' : BoundedQueue T capacity} {notes : List (Note Var)}
    {result : Res T} (h : turn op q = .done q' notes result) :
    popped [(op, result)] ++ q'.queue = q.queue ++ accepted [(op, result)] := by
  obtain ⟨item, rfl, hp, -, rfl⟩ | ⟨item, rfl, -, rfl, -, rfl⟩ | ⟨item, rfl, hp, -, rfl⟩ | ⟨rfl, -, rfl, -, rfl⟩ |
    ⟨rfl, rfl, -, rfl⟩ := turn_done h
  · obtain ⟨-, -, hq, -⟩ := push_eq_pushed.mp hp
    simp [popped, pops, accepted, hq]
  · simp [popped, pops, accepted]
  · obtain ⟨hq, -⟩ := pop_eq_popped.mp hp
    simp [popped, pops, accepted, hq]
  · simp [popped, pops, accepted]
  · simp [popped, pops, accepted]

theorem popped_append_queue {q q' : BoundedQueue T capacity} {ops : List (Op T × Res T)} (h : Serial turn q ops q') :
    popped ops ++ q'.queue = q.queue ++ accepted ops := by
  induction h with
  | nil q => simp [popped, pops, accepted]
  | @cons q q₁ q' op notes result ops hturn _ ih =>
    rw [popped_cons, accepted_cons, List.append_assoc, ih, ← List.append_assoc, popped_append_queue_of_turn hturn,
      List.append_assoc]

theorem closed_of_turn {op : Op T} {q q' : BoundedQueue T capacity} {notes : List (Note Var)} {result : Res T}
    (h : turn op q = .done q' notes result) : q'.closed = true ↔ q.closed = true ∨ (op, result) = (.close, .closed) := by
  obtain ⟨item, rfl, hp, -, rfl⟩ | ⟨item, rfl, -, rfl, -, rfl⟩ | ⟨item, rfl, hp, -, rfl⟩ | ⟨rfl, -, rfl, -, rfl⟩ |
    ⟨rfl, rfl, -, rfl⟩ := turn_done h
  · obtain ⟨hc, -, -, hc'⟩ := push_eq_pushed.mp hp
    simp [hc, hc']
  · simp
  · obtain ⟨-, hc⟩ := pop_eq_popped.mp hp
    simp [hc]
  · simp
  · simp

/-- A queue is closed when, and only when, some `close` has been done. -/
theorem closed_iff {q q' : BoundedQueue T capacity} {ops : List (Op T × Res T)} (h : Serial turn q ops q') :
    q'.closed = true ↔ q.closed = true ∨ (Op.close, Res.closed) ∈ ops := by
  induction h with
  | nil q => simp
  | cons hturn _ ih => rw [ih, closed_of_turn hturn, List.mem_cons, or_assoc, eq_comm (a := (Op.close, Res.closed))]

/-- Once closed, a `push` is dropped and the queue only gives out what it holds. -/
theorem turn_of_closed {op : Op T} {q q' : BoundedQueue T capacity} {notes : List (Note Var)} {result : Res T}
    (hclosed : q.closed = true) (h : turn op q = .done q' notes result) :
    accepted [(op, result)] = [] ∧ (∀ item, op = .push item → result = .dropped) ∧
      ((op = .pop ∧ pops [(op, result)] = [q.queue[0]?] ∧ q'.queue = q.queue.drop 1) ∨
        (pops [(op, result)] = [] ∧ q'.queue = q.queue)) := by
  obtain ⟨item, rfl, hp, -, rfl⟩ | ⟨item, rfl, -, rfl, -, rfl⟩ | ⟨item, rfl, hp, -, rfl⟩ | ⟨rfl, hp, rfl, -, rfl⟩ |
    ⟨rfl, rfl, -, rfl⟩ := turn_done h
  · obtain ⟨hc, -⟩ := push_eq_pushed.mp hp
    rw [hclosed] at hc
    cases hc
  · exact ⟨rfl, fun _ _ => rfl, .inr ⟨rfl, rfl⟩⟩
  · obtain ⟨hq, -⟩ := pop_eq_popped.mp hp
    exact ⟨rfl, (fun _ hop => nomatch hop), .inl ⟨rfl, by simp [pops, hq], by simp [hq]⟩⟩
  · obtain ⟨hq, -⟩ := pop_eq_ended.mp hp
    exact ⟨rfl, (fun _ hop => nomatch hop), .inl ⟨rfl, by simp [pops, hq], by simp [hq]⟩⟩
  · exact ⟨rfl, (fun _ hop => nomatch hop), .inr ⟨rfl, rfl⟩⟩

/-- The pops of a closed queue give what it held, in order, and false after that. -/
theorem serial_of_closed {q q' : BoundedQueue T capacity} {ops : List (Op T × Res T)} (h : Serial turn q ops q') :
    q.closed = true → accepted ops = [] ∧ (∀ item result, (.push item, result) ∈ ops → result = .dropped) ∧
      ∀ i < (pops ops).length, (pops ops)[i]? = some q.queue[i]? := by
  induction h with
  | nil q => exact fun _ => ⟨rfl, by simp, by simp [pops]⟩
  | @cons q q₁ q' op notes result ops hturn _ ih =>
    intro hclosed
    obtain ⟨hacc, hdrop, hpops⟩ := turn_of_closed hclosed hturn
    obtain ⟨ihacc, ihdrop, ihpops⟩ := ih ((closed_of_turn hturn).mpr (.inl hclosed))
    refine ⟨by rw [accepted_cons, hacc, ihacc, List.append_nil], fun item result' hmem => ?_, ?_⟩
    · rcases List.mem_cons.mp hmem with heq | hmem
      · obtain ⟨rfl, rfl⟩ := Prod.mk.inj heq
        exact hdrop item rfl
      · exact ihdrop item result' hmem
    · rw [pops_cons]
      obtain ⟨-, hp, hq⟩ | ⟨hp, hq⟩ := hpops
      · rw [hp, List.singleton_append]
        intro i hi
        cases i with
        | zero => rfl
        | succ i =>
          rw [List.getElem?_cons_succ, ihpops i (by simpa using hi), hq, List.getElem?_drop, Nat.add_comm 1 i]
      · rw [hp, List.nil_append, ← hq]
        exact ihpops

end Serial

/-! ### Sleeping -/

section Wakeups
variable {Tid : Type} [DecidableEq Tid] {s : Threads Tid T capacity} {t : Tid}

/-- How many of the threads that sleep on a condition variable the queue could let go on. -/
def servable (c : Var) (q : BoundedQueue T capacity) : ℕ∞ :=
  match c with
  | .not_empty => if q.closed then ⊤ else (q.queue.length : ℕ)
  | .not_full => if q.closed then ⊤ else (capacity - q.queue.length : ℕ)

theorem servable_of_closed {q : BoundedQueue T capacity} (h : q.closed = true) (c : Var) : servable c q = ⊤ := by
  cases c <;> simp [servable, h]

theorem servable_not_empty {q : BoundedQueue T capacity} (h : q.closed = false) :
    servable .not_empty q = (q.queue.length : ℕ) := by
  simp [servable, h]

theorem servable_not_full {q : BoundedQueue T capacity} (h : q.closed = false) :
    servable .not_full q = (capacity - q.queue.length : ℕ) := by
  simp [servable, h]

/-- The variable on which an operation sleeps is the one for which its predicate is looked at. -/
theorem servable_ne_zero {op : Op T} {q₀ q : BoundedQueue T capacity} {c : Var} (hwait : turn op q₀ = .wait c) :
    servable c q ≠ 0 ↔ q.Ready op := by
  obtain ⟨item, rfl, rfl, -, -⟩ | ⟨rfl, rfl, -, -⟩ := turn_wait hwait
  · cases hc : q.closed
    · rw [servable_not_full hc]
      simp only [Ready, hc, Bool.false_eq_true, false_or, ne_eq, Nat.cast_eq_zero]
      omega
    · simp [servable_of_closed hc, Ready, hc]
  · cases hc : q.closed
    · rw [servable_not_empty hc]
      simp [Ready, hc]
    · simp [servable_of_closed hc, Ready, hc]

/-- A `push` makes place for one thread on `not_empty_` and notifies one, a `pop` the same for `not_full_`, and `close`
notifies all. -/
theorem serves : Serves turn (servable : Var → BoundedQueue T capacity → ℕ∞) where
  wait {op q c} h := by
    obtain ⟨item, rfl, rfl, hc, hfull⟩ | ⟨rfl, rfl, hc, hq⟩ := turn_wait h
    · rw [servable_not_full hc, Nat.sub_eq_zero_of_le hfull, Nat.cast_zero]
    · rw [servable_not_empty hc, hq, List.length_nil, Nat.cast_zero]
  one_var {op q q' c c'} h h' := by
    obtain ⟨item, rfl, rfl, -, -⟩ | ⟨rfl, rfl, -, -⟩ := turn_wait h <;>
      obtain ⟨item', hop, rfl, -, -⟩ | ⟨hop, rfl, -, -⟩ := turn_wait h' <;> first | rfl | cases hop
  done {op q q' notes result} c h := by
    obtain ⟨item, rfl, hp, rfl, -⟩ | ⟨item, -, -, rfl, rfl, -⟩ | ⟨item, rfl, hp, rfl, -⟩ | ⟨-, -, rfl, rfl, -⟩ |
      ⟨-, rfl, rfl, -⟩ := turn_done h
    · obtain ⟨hc, -, hq, hc'⟩ := push_eq_pushed.mp hp
      cases c with
      | not_empty => simp [servable_not_empty hc, servable_not_empty hc', hq, wakes]
      | not_full =>
        rw [servable_not_full hc, servable_not_full hc', hq, List.length_append]
        exact le_add_right (Nat.cast_le.mpr (by omega))
    · exact le_self_add
    · obtain ⟨hq, hc'⟩ := pop_eq_popped.mp hp
      cases hc : q.closed
      · rw [hc] at hc'
        cases c with
        | not_empty =>
          rw [servable_not_empty hc, servable_not_empty hc', hq, List.length_cons]
          exact le_add_right (Nat.cast_le.mpr (by omega))
        | not_full =>
          rw [servable_not_full hc, servable_not_full hc', hq, List.length_cons]
          simp only [wakes, ↓reduceIte, add_zero]
          exact_mod_cast (by omega : capacity - q'.queue.length ≤ capacity - (q'.queue.length + 1) + 1)
      · rw [servable_of_closed hc, top_add]
        exact le_top
    · exact le_self_add
    · cases c <;> simp [wakes]
  served {op q₀ q q' notes result c} h₀ h := by
    obtain ⟨item, rfl, rfl, -, -⟩ | ⟨rfl, rfl, -, -⟩ := turn_wait h₀
    · cases hc : q.closed
      · obtain ⟨item', hop, hp, -, -⟩ | ⟨item', hop, hp, -, -, -⟩ | ⟨_, hop, -⟩ | ⟨hop, -⟩ | ⟨hop, -⟩ := turn_done h <;>
          cases hop
        · obtain ⟨-, hlt, hq, hc'⟩ := push_eq_pushed.mp hp
          rw [servable_not_full hc, servable_not_full hc', hq, List.length_append, List.length_singleton]
          refine le_add_right ?_
          exact_mod_cast (by omega : capacity - (q.queue.length + 1) + 1 ≤ capacity - q.queue.length)
        · rw [push_eq_dropped, hc] at hp
          cases hp
      · rw [servable_of_closed hc, top_add]
        exact le_top
    · cases hc : q.closed
      · obtain ⟨_, hop, -⟩ | ⟨_, hop, -⟩ | ⟨item, -, hp, -, -⟩ | ⟨-, hp, -, -, -⟩ | ⟨hop, -⟩ := turn_done h
        · cases hop
        · cases hop
        · obtain ⟨hq, hc'⟩ := pop_eq_popped.mp hp
          rw [servable_not_empty hc, servable_not_empty (hc'.trans hc), hq, List.length_cons]
          exact le_add_right (by exact_mod_cast le_refl (q'.queue.length + 1))
        · rw [(pop_eq_ended.mp hp).2] at hc
          cases hc
        · cases hop
      · rw [servable_of_closed hc, top_add]
        exact le_top

theorem owes_ne_zero {ph : Phase Var (Op T) (Res T)} {c : Var} (h : ph.owes c ≠ 0) :
    (∃ op, ph = .inside op (some c)) ∨ ∃ notes result, ph = .leaving notes result ∧ (.one c ∈ notes ∨ .all c ∈ notes) := by
  cases ph with
  | inside op was =>
    cases was with
    | none => exact absurd rfl h
    | some c' =>
      by_cases hc : c' = c
      · exact .inl ⟨op, by rw [hc]⟩
      · exact absurd (if_neg hc) h
  | leaving notes result =>
    refine .inr ⟨notes, result, rfl, ?_⟩
    simp only [Phase.owes] at h
    induction notes with
    | nil => exact absurd rfl h
    | cons note notes ih =>
      cases note with
      | one c' =>
        by_cases hc : c' = c
        · exact .inl (by simp [hc])
        · rw [wakes, if_neg hc, zero_add] at h
          exact (ih h).imp (List.mem_cons_of_mem _) (List.mem_cons_of_mem _)
      | all c' =>
        by_cases hc : c' = c
        · exact .inr (by simp [hc])
        · rw [wakes, if_neg hc] at h
          exact (ih h).imp (List.mem_cons_of_mem _) (List.mem_cons_of_mem _)
  | outside | entering | asleep | woken => exact absurd rfl h

/-- A step of a thread on a closed queue: it stays closed and nobody goes to sleep. -/
theorem step_of_closed {s s' : Threads Tid T capacity} {l : Label Tid (Op T) (Res T)} (hstep : Step turn s l s')
    (hclosed : s.data.closed = true) : s'.data.closed = true ∧ ∀ t op, l ≠ .sleep t op := by
  cases hstep with
  | sleep hph hturn =>
    obtain ⟨_, -, -, hc, -⟩ | ⟨-, -, hc, -⟩ := turn_wait hturn <;>
    · rw [hclosed] at hc
      cases hc
  | finish hph hturn => exact ⟨(closed_of_turn hturn).mpr (.inl hclosed), by simp⟩
  | call | enter | resume | notifyNone | notifyOne | notifyAll | spurious | unlock => exact ⟨hclosed, by simp⟩

theorem run_of_closed {s s' : Threads Tid T capacity} {ls : List (Label Tid (Op T) (Res T))}
    (h : Run (Step turn) s ls s') : s.data.closed = true → s'.data.closed = true ∧ ∀ t op, .sleep t op ∉ ls := by
  induction h with
  | nil s => exact fun hc => ⟨hc, by simp⟩
  | cons hstep _ ih =>
    intro hc
    obtain ⟨hc', hl⟩ := step_of_closed hstep hc
    obtain ⟨hclosed, hls⟩ := ih hc'
    refine ⟨hclosed, fun t op hmem => ?_⟩
    rcases List.mem_cons.mp hmem with heq | hmem
    · exact hl t op heq.symm
    · exact hls t op hmem

end Wakeups

/-! ### Every run -/

section Runs
variable {Tid : Type}

/-- A wake-up on `c` is on its way with `u`: `u` was woken and finds what it waits for once it has the mutex, or it has
the mutex and looks at the queue again, or is about to notify `c`. -/
def WakeUp (s : Threads Tid T capacity) (c : Var) (u : Tid) : Prop :=
  (∃ op, s.phase u = .woken op c ∧ s.data.Ready op) ∨
    (s.mutex = some u ∧ ((∃ op, s.phase u = .inside op (some c)) ∨
      ∃ notes result, s.phase u = .leaving notes result ∧ (.one c ∈ notes ∨ .all c ∈ notes)))

/-- Where a thread sleeps although its predicate holds, a wake-up is under way for every thread the queue could serve. -/
theorem wakeUp_of_ready {s : Threads Tid T capacity} (h : Inv turn servable s) {t : Tid} {op : Op T} {c : Var}
    (hsleep : s.phase t = .asleep op c) (hready : s.data.Ready op) :
    servable c s.data ≤ pending s c ∧ ∃ u, WakeUp s c u := by
  refine ⟨h.wakeups c ⟨t, op, hsleep⟩, ?_⟩
  obtain ⟨q₀, hwait⟩ := h.var (t := t) (by rw [hsleep, Phase.var])
  have hwant : servable c s.data ≠ 0 := (servable_ne_zero hwait).mpr hready
  obtain ⟨u, op', hu⟩ | ⟨u, hm, howes⟩ := h.exists_wakeup hsleep hwant
  · obtain ⟨q₁, hwait'⟩ := h.var (t := u) (by rw [hu, Phase.var])
    exact ⟨u, .inl ⟨op', hu, (servable_ne_zero hwait').mp hwant⟩⟩
  · exact ⟨u, .inr ⟨hm, owes_ne_zero howes⟩⟩

/-- The queue under any number of threads, after every run: it is within its capacity and FIFO, a closed queue drops every
`push` and gives out what it holds and then false without a thread going to sleep, and no wake-up is lost. -/
theorem threads_spec [DecidableEq Tid] {ls : List (Label Tid (Op T) (Res T))} {s : Threads Tid T capacity}
    (h : Run (Step turn) (Config.start empty) ls s) :
    s.data.queue.length ≤ capacity ∧
    popped (finished ls) ++ s.data.queue = accepted (finished ls) ∧
    (s.data.closed = true ↔ (.close, .closed) ∈ finished ls) ∧
    (∀ ls' s', s.data.closed = true → Run (Step turn) s ls' s' →
      accepted (finished ls') = [] ∧
      (∀ item result, (.push item, result) ∈ finished ls' → result = .dropped) ∧
      (∀ i < (pops (finished ls')).length, (pops (finished ls'))[i]? = some s.data.queue[i]?) ∧
      ∀ t op, .sleep t op ∉ ls') ∧
    ∀ t op c, s.phase t = .asleep op c → s.data.Ready op →
      servable c s.data ≤ pending s c ∧ ∃ u, WakeUp s c u := by
  have hserial := serial h
  refine ⟨s.data.size_le, popped_append_queue hserial, ?_, fun ls' s' hclosed hrun => ?_, fun t op c => ?_⟩
  · rw [closed_iff hserial]
    exact or_iff_right (by simp [Config.start])
  · obtain ⟨hacc, hdrop, hpops⟩ := serial_of_closed (serial hrun) hclosed
    exact ⟨hacc, hdrop, hpops, (run_of_closed hrun hclosed).2⟩
  · exact wakeUp_of_ready (Inv.run serves h)

/-- A `pop` sleeps on an empty queue, and another thread has just pushed an item: the wake-up is on its way. -/
theorem threads_spec_push : ∃ ls, ∃ s : Threads Bool Nat 1, Run (Step turn) (Config.start empty) ls s ∧
    s.phase false = .asleep .pop .not_empty ∧ s.data.queue = [7] ∧ ∃ u, WakeUp s .not_empty u := by
  have hrun : ∃ ls, ∃ s : Threads Bool Nat 1, Run (Step turn) (Config.start empty) ls s ∧
      s.phase false = .asleep .pop .not_empty ∧ s.data.queue = [7] :=
    ⟨_, _, .cons (.call (t := false) .pop rfl) <| .cons (.enter (t := false) rfl rfl) <|
      .cons (.sleep (t := false) rfl rfl) <| .cons (.call (t := true) (.push 7) rfl) <|
      .cons (.enter (t := true) rfl rfl) <| .cons (.finish (t := true) rfl rfl) <| .nil _, rfl, rfl⟩
  obtain ⟨ls, s, hrun, hsleep, hq⟩ := hrun
  obtain ⟨-, -, -, -, hwake⟩ := threads_spec hrun
  exact ⟨ls, s, hrun, hsleep, hq, (hwake false .pop .not_empty hsleep (.inr (by simp [hq]))).2⟩

end Runs

end DaphneZmq.BoundedQueue
