import DaphneZmq.BoundedQueue
import DaphneZmq.Lib.Runs

/-! # A producer thread and a consumer loop over a `BoundedQueue`

The two threads of `for_each_spybuffer_chunk`, for any deterministic producer. The thread runs
`try { loop { item = next(); queue.push(item) } } catch (...) { had_error = true } queue.close()`, and
its creator `while (queue.pop(item)) on_item(!had_error, item)` and then joins it. A step is one turn of a
queue operation under the mutex, or a piece of code that touches only the state of its own thread and the
atomic flag. A thread asleep on a condition variable is woken by the notifications of the other one, or
spuriously, and tests its wait predicate again. -/

namespace DaphneZmq

/-- One round of the producer's loop: an item and the loop's next state, the end of the loop, or an
    exception. -/
inductive Next (T σ : Type) where
  | item (x : T) (s : σ)
  | done
  | throw

/-- A producer, the queue's capacity, and which call of the consumer's callback throws. -/
structure Pipeline (σ T : Type) where
  capacity : Nat
  start : σ
  next : σ → Next T σ
  callbackThrows : Nat → Bool

namespace Pipeline

/-- Where the producer thread is. -/
inductive Producer (σ T : Type) where
  | running (s : σ)
  /-- In `push`, about to test the wait predicate; `s` is the loop's state after it. -/
  | push (x : T) (s : σ)
  | waitNotFull (x : T) (s : σ)
  /-- Past the loop or its catch clause, about to close the queue. -/
  | closing
  | finished

/-- Where the thread that runs the consumer loop is. -/
inductive Consumer (T : Type) where
  | pop
  | waitNotEmpty
  /-- `pop` returned `x`, the callback has not been called yet. -/
  | got (x : T)
  | joining
  | returned
  /-- An exception of the callback has left the function. -/
  | threw
  /-- `std::terminate` ended the process. -/
  | terminated

/-- The thread that takes a step, or whose sleep ends spuriously. -/
inductive Label where
  | producer
  | consumer
  | producerWakes
  | consumerWakes

def Label.spurious : Label → Bool
  | .producer | .consumer => false
  | .producerWakes | .consumerWakes => true

variable {σ T : Type}

structure State (P : Pipeline σ T) where
  producer : Producer σ T
  consumer : Consumer T
  queue : BoundedQueue T P.capacity
  hadError : Bool
  /-- Whether the `std::thread` object still stands for a thread: from its construction to its join. -/
  joinable : Bool
  /-- The calls of the callback that returned: what `!had_error` was, and the item. -/
  delivered : List (Bool × T)

variable (P : Pipeline σ T)

/-- The state in which the thread has just been created. -/
def init : State P := ⟨.running P.start, .pop, .empty, false, true, []⟩

variable {P}

/-- `not_full_.notify_one()`: only the producer waits on it. -/
def Producer.notifyNotFull : Producer σ T → Producer σ T
  | .waitNotFull x s => .push x s
  | p => p

/-- `not_empty_.notify_one()` or `notify_all()`: only the consumer waits on it. -/
def Consumer.notifyNotEmpty : Consumer T → Consumer T
  | .waitNotEmpty => .pop
  | c => c

/-- An exception leaves the consumer loop. The thread object is destroyed on the way out, and destroying
    a joinable `std::thread` calls `std::terminate`. -/
def State.unwind (s : State P) : State P :=
  { s with consumer := if s.joinable then .terminated else .threw }

/-- One step of one of the two threads; none is left once the process has been terminated. -/
inductive Step : State P → Label → State P → Prop
  | produce {s : State P} {st st' : σ} {x : T} : s.consumer ≠ .terminated → s.producer = .running st →
      P.next st = .item x st' → Step s .producer { s with producer := .push x st' }
  | leave {s : State P} {st : σ} : s.consumer ≠ .terminated → s.producer = .running st → P.next st = .done →
      Step s .producer { s with producer := .closing }
  | fault {s : State P} {st : σ} : s.consumer ≠ .terminated → s.producer = .running st → P.next st = .throw →
      Step s .producer { s with producer := .closing, hadError := true }
  | pushed {s : State P} {st : σ} {x : T} {q : BoundedQueue T P.capacity} : s.consumer ≠ .terminated →
      s.producer = .push x st → s.queue.push x = .pushed q →
      Step s .producer { s with producer := .running st, queue := q, consumer := s.consumer.notifyNotEmpty }
  | dropped {s : State P} {st : σ} {x : T} : s.consumer ≠ .terminated → s.producer = .push x st →
      s.queue.push x = .dropped → Step s .producer { s with producer := .running st }
  | pushSleeps {s : State P} {st : σ} {x : T} : s.consumer ≠ .terminated → s.producer = .push x st →
      s.queue.push x = .wait → Step s .producer { s with producer := .waitNotFull x st }
  | pushWakes {s : State P} {st : σ} {x : T} : s.consumer ≠ .terminated → s.producer = .waitNotFull x st →
      Step s .producerWakes { s with producer := .push x st }
  | close {s : State P} : s.consumer ≠ .terminated → s.producer = .closing →
      Step s .producer
        { s with producer := .finished, queue := s.queue.close, consumer := s.consumer.notifyNotEmpty }
  | popped {s : State P} {x : T} {q : BoundedQueue T P.capacity} : s.consumer = .pop →
      s.queue.pop = .popped x q →
      Step s .consumer { s with consumer := .got x, queue := q, producer := s.producer.notifyNotFull }
  | popSleeps {s : State P} : s.consumer = .pop → s.queue.pop = .wait →
      Step s .consumer { s with consumer := .waitNotEmpty }
  | popWakes {s : State P} : s.consumer = .waitNotEmpty → Step s .consumerWakes { s with consumer := .pop }
  | ended {s : State P} : s.consumer = .pop → s.queue.pop = .ended →
      Step s .consumer { s with consumer := .joining }
  | deliver {s : State P} {x : T} : s.consumer = .got x → P.callbackThrows s.delivered.length = false →
      Step s .consumer { s with consumer := .pop, delivered := s.delivered ++ [(!s.hadError, x)] }
  | callbackThrows {s : State P} {x : T} : s.consumer = .got x → P.callbackThrows s.delivered.length = true →
      Step s .consumer s.unwind
  | join {s : State P} : s.consumer = .joining → s.producer = .finished →
      Step s .consumer { s with consumer := .returned, joinable := false }

/-- A run of the two threads from the creation of the thread. -/
def Reaches (P : Pipeline σ T) (ls : List Label) (s : State P) : Prop := Lib.Run Step (init P) ls s

/-- No thread can take a step, spurious wake-ups apart. -/
def State.Stuck (s : State P) : Prop := ∀ l t, Step s l t → l.spurious = true

end Pipeline
end DaphneZmq
