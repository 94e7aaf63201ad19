import DaphneZmq.BoundedQueue
import DaphneZmq.Lib.Monitor

/-! # `BoundedQueue` under any number of threads (server_controller/bounded_queue.hpp)

`BoundedQueue` as a monitor with its two condition variables. `condition_variable::wait` with a predicate looks at the
predicate under the mutex, and again after each wake-up, before what follows it is done. -/

namespace DaphneZmq.BoundedQueue
open Lib.Monitor

inductive Var where
  | not_full
  | not_empty
  deriving DecidableEq

inductive Op (T : Type) where
  | push (item : T)
  | pop
  | close

/-- What a call comes to. `push` returns nothing, so `pushed` and `dropped` are not seen by its caller. -/
inductive Res (T : Type) where
  | pushed
  | dropped
  | popped (item : T)
  | ended
  | closed

variable {T : Type} {capacity : Nat}

/-- The operation with the mutex, up to its notifications. -/
def turn (op : Op T) (q : BoundedQueue T capacity) : Turn (BoundedQueue T capacity) Var (Res T) :=
  match op with
  | .push item =>
    match q.push item with
    | .wait => .wait .not_full
    | .dropped => .done q [] .dropped
    | .pushed q' => .done q' [.one .not_empty] .pushed
  | .pop =>
    match q.pop with
    | .wait => .wait .not_empty
    | .ended => .done q [] .ended
    | .popped item q' => .done q' [.one .not_full] (.popped item)
  | .close => .done q.close [.all .not_empty, .all .not_full] .closed

/-- The predicate that an operation waits for: `closed_ || queue_.size() < capacity_` and `closed_ || !queue_.empty()`. -/
def Ready (q : BoundedQueue T capacity) : Op T → Prop
  | .push _ => q.closed = true ∨ q.queue.length < capacity
  | .pop => q.closed = true ∨ q.queue ≠ []
  | .close => True

abbrev Threads (Tid T : Type) (capacity : Nat) := Config Tid (BoundedQueue T capacity) Var (Op T) (Res T)

/-! What a run has accepted and delivered. -/

section History
variable {Tid : Type}

/-- The items of the pushes that were not dropped. -/
def accepted (ops : List (Op T × Res T)) : List T :=
  ops.filterMap fun
    | (.push item, .pushed) => some item
    | _ => none

/-- What each `pop` gave: an item, or false. -/
def pops (ops : List (Op T × Res T)) : List (Option T) :=
  ops.filterMap fun
    | (.pop, .popped item) => some (some item)
    | (.pop, .ended) => some none
    | _ => none

def popped (ops : List (Op T × Res T)) : List T := (pops ops).filterMap id

end History

/-! The turns one by one. -/

theorem turn_push_pushed {q q' : BoundedQueue T capacity} {item : T} (h : q.push item = .pushed q') :
    turn (.push item) q = .done q' [.one .not_empty] .pushed := by
  simp only [turn, h]

theorem turn_push_dropped {q : BoundedQueue T capacity} {item : T} (h : q.push item = .dropped) :
    turn (.push item) q = .done q [] .dropped := by
  simp only [turn, h]

theorem turn_push_wait {q : BoundedQueue T capacity} {item : T} (h : q.push item = .wait) :
    turn (.push item) q = .wait .not_full := by
  simp only [turn, h]

theorem turn_pop_popped {q q' : BoundedQueue T capacity} {item : T} (h : q.pop = .popped item q') :
    turn .pop q = .done q' [.one .not_full] (.popped item) := by
  simp only [turn, h]

theorem turn_pop_ended {q : BoundedQueue T capacity} (h : q.pop = .ended) : turn .pop q = .done q [] .ended := by
  simp only [turn, h]

theorem turn_pop_wait {q : BoundedQueue T capacity} (h : q.pop = .wait) : turn .pop q = .wait .not_empty := by
  simp only [turn, h]

/-- Everything that an operation can do when it finishes. -/
theorem turn_done {op : Op T} {q q' : BoundedQueue T capacity} {notes : List (Note Var)} {result : Res T}
    (h : turn op q = .done q' notes result) :
    (∃ item, op = .push item ∧ q.push item = .pushed q' ∧ notes = [.one .not_empty] ∧ result = .pushed) ∨
    (∃ item, op = .push item ∧ q.push item = .dropped ∧ q' = q ∧ notes = [] ∧ result = .dropped) ∨
    (∃ item, op = .pop ∧ q.pop = .popped item q' ∧ notes = [.one .not_full] ∧ result = .popped item) ∨
    (op = .pop ∧ q.pop = .ended ∧ q' = q ∧ notes = [] ∧ result = .ended) ∨
    (op = .close ∧ q' = q.close ∧ notes = [.all .not_empty, .all .not_full] ∧ result = .closed) := by
  cases op with
  | push item =>
    cases hp : q.push item with
    | wait =>
      rw [turn_push_wait hp] at h
      cases h
    | dropped =>
      rw [turn_push_dropped hp] at h
      cases h
      exact .inr (.inl ⟨item, rfl, hp, rfl, rfl, rfl⟩)
    | pushed q₁ =>
      rw [turn_push_pushed hp] at h
      cases h
      exact .inl ⟨item, rfl, hp, rfl, rfl⟩
  | pop =>
    cases hp : q.pop with
    | wait =>
      rw [turn_pop_wait hp] at h
      cases h
    | ended =>
      rw [turn_pop_ended hp] at h
      cases h
      exact .inr (.inr (.inr (.inl ⟨rfl, rfl, rfl, rfl, rfl⟩)))
    | popped item q₁ =>
      rw [turn_pop_popped hp] at h
      cases h
      exact .inr (.inr (.inl ⟨item, rfl, rfl, rfl, rfl⟩))
  | close =>
    cases h
    exact .inr (.inr (.inr (.inr ⟨rfl, rfl, rfl, rfl⟩)))

/-- When an operation goes to sleep, and on what. -/
theorem turn_wait {op : Op T} {q : BoundedQueue T capacity} {c : Var} (h : turn op q = .wait c) :
    (∃ item, op = .push item ∧ c = .not_full ∧ q.closed = false ∧ capacity ≤ q.queue.length) ∨
    (op = .pop ∧ c = .not_empty ∧ q.closed = false ∧ q.queue = []) := by
  cases op with
  | push item =>
    cases hp : q.push item with
    | wait =>
      rw [turn_push_wait hp] at h
      cases h
      exact .inl ⟨item, rfl, rfl, push_eq_wait.mp hp⟩
    | dropped =>
      rw [turn_push_dropped hp] at h
      cases h
    | pushed q₁ =>
      rw [turn_push_pushed hp] at h
      cases h
  | pop =>
    cases hp : q.pop with
    | wait =>
      rw [turn_pop_wait hp] at h
      cases h
      obtain ⟨hq, hc⟩ := pop_eq_wait.mp hp
      exact .inr ⟨rfl, rfl, hc, hq⟩
    | ended =>
      rw [turn_pop_ended hp] at h
      cases h
    | popped item q₁ =>
      rw [turn_pop_popped hp] at h
      cases h
  | close => cases h

end DaphneZmq.BoundedQueue
