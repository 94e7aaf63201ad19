import Mathlib.Data.List.Basic

/-! # `BoundedQueue` (server_controller/bounded_queue.hpp)

The mutex is held from the entry of an operation to its return, and released only while the thread
sleeps on a condition variable. So one evaluation of an operation's wait predicate, with what follows it
when it holds, is one atomic step: it either returns or puts the thread to sleep. -/

namespace DaphneZmq

/-- The data that the mutex of a `BoundedQueue<T>` protects. -/
structure BoundedQueue (T : Type) (capacity : Nat) where
  queue : List T
  closed : Bool
  size_le : queue.length ≤ capacity

namespace BoundedQueue
variable {T : Type} {capacity : Nat}

/-- A queue as its constructor leaves it. -/
def empty : BoundedQueue T capacity := ⟨[], false, Nat.zero_le _⟩

/-- What one turn of `push` under the mutex comes to. -/
inductive Push (T : Type) (capacity : Nat) where
  /-- The wait predicate is false: sleep on `not_full_`. -/
  | wait
  /-- The queue is closed: the item is dropped. -/
  | dropped
  /-- The item is stored, and `not_empty_` is notified. -/
  | pushed (q : BoundedQueue T capacity)

/-- What one turn of `pop` under the mutex comes to. -/
inductive Pop (T : Type) (capacity : Nat) where
  /-- The wait predicate is false: sleep on `not_empty_`. -/
  | wait
  /-- `pop` returns false. -/
  | ended
  /-- `pop` returns true with the oldest item, and `not_full_` is notified. -/
  | popped (item : T) (q : BoundedQueue T capacity)

def push (q : BoundedQueue T capacity) (item : T) : Push T capacity :=
  if q.closed then .dropped
  else if h : q.queue.length < capacity then
    .pushed ⟨q.queue ++ [item], q.closed, by simpa using Nat.succ_le_of_lt h⟩
  else .wait

def pop (q : BoundedQueue T capacity) : Pop T capacity :=
  match h : q.queue with
  | [] => if q.closed then .ended else .wait
  | item :: rest => .popped item ⟨rest, q.closed, by have := q.size_le; simp [h] at this; omega⟩

def close (q : BoundedQueue T capacity) : BoundedQueue T capacity := { q with closed := true }

theorem ext {q q' : BoundedQueue T capacity} (hq : q.queue = q'.queue) (hc : q.closed = q'.closed) : q = q' := by
  cases q
  cases q'
  simp_all

@[simp] theorem empty_queue : (empty : BoundedQueue T capacity).queue = [] := rfl

@[simp] theorem empty_closed : (empty : BoundedQueue T capacity).closed = false := rfl

@[simp] theorem close_queue (q : BoundedQueue T capacity) : q.close.queue = q.queue := rfl

@[simp] theorem close_closed (q : BoundedQueue T capacity) : q.close.closed = true := rfl

theorem push_eq_pushed {q q' : BoundedQueue T capacity} {item : T} :
    q.push item = .pushed q' ↔
      q.closed = false ∧ q.queue.length < capacity ∧ q'.queue = q.queue ++ [item] ∧ q'.closed = false := by
  unfold push
  cases hc : q.closed
  · by_cases h : q.queue.length < capacity
    · simp only [Bool.false_eq_true, ↓reduceIte, h, ↓reduceDIte, Push.pushed.injEq, true_and]
      exact ⟨fun hq => hq ▸ ⟨rfl, rfl⟩, fun hq => ext hq.1.symm hq.2.symm⟩
    · simp [h]
  · simp

theorem push_eq_wait {q : BoundedQueue T capacity} {item : T} :
    q.push item = .wait ↔ q.closed = false ∧ capacity ≤ q.queue.length := by
  unfold push
  cases hc : q.closed
  · by_cases h : q.queue.length < capacity
    · simp only [Bool.false_eq_true, ↓reduceIte, h, ↓reduceDIte, reduceCtorEq, true_and, false_iff]
      omega
    · simp [h]
      omega
  · simp

theorem push_eq_dropped {q : BoundedQueue T capacity} {item : T} :
    q.push item = .dropped ↔ q.closed = true := by
  unfold push
  cases hc : q.closed
  · by_cases h : q.queue.length < capacity <;> simp [h]
  · simp

theorem pop_eq_popped {q q' : BoundedQueue T capacity} {item : T} :
    q.pop = .popped item q' ↔ q.queue = item :: q'.queue ∧ q'.closed = q.closed := by
  unfold pop
  split
  · rename_i h
    cases hc : q.closed <;> simp [h]
  · rename_i x rest h
    simp only [Pop.popped.injEq, h, List.cons.injEq]
    constructor
    · rintro ⟨rfl, rfl⟩
      exact ⟨⟨rfl, rfl⟩, rfl⟩
    · rintro ⟨⟨rfl, hq⟩, hc⟩
      exact ⟨rfl, ext hq hc.symm⟩

theorem pop_eq_wait {q : BoundedQueue T capacity} : q.pop = .wait ↔ q.queue = [] ∧ q.closed = false := by
  unfold pop
  split
  · rename_i h
    cases hc : q.closed <;> simp [h]
  · rename_i h
    simp [h]

theorem pop_eq_ended {q : BoundedQueue T capacity} : q.pop = .ended ↔ q.queue = [] ∧ q.closed = true := by
  unfold pop
  split
  · rename_i h
    cases hc : q.closed <;> simp [h]
  · rename_i h
    simp [h]

end BoundedQueue
end DaphneZmq
