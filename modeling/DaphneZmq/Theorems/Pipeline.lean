import DaphneZmq.Pipeline

/-! # What every interleaving of a `Pipeline` delivers

The items that the callback has seen, the one in the consumer's hands, the queued ones and the one being
pushed are, in this order, exactly the items the producer has made (`Inv.emits`). The wait predicate of a
sleeping thread is false (`Inv.full`, `Inv.empty`), so no notification is ever lost. -/

namespace DaphneZmq.Pipeline
variable {σ T : Type} {P : Pipeline σ T} {s t : State P} {l : Label}

/-- The loop emits the items `xs` on its way from one of its states to another. -/
inductive Emits (P : Pipeline σ T) : List T → σ → Prop
  | nil : Emits P [] P.start
  | snoc {xs : List T} {st st' : σ} {x : T} : Emits P xs st → P.next st = .item x st' → Emits P (xs ++ [x]) st'

/-- The item in the consumer's hands. -/
def Consumer.taken : Consumer T → List T
  | .got x => [x]
  | _ => []

/-- The item being pushed. -/
def Producer.pending : Producer σ T → List T
  | .push x _ | .waitNotFull x _ => [x]
  | _ => []

/-- Every item made so far, oldest first. -/
def State.produced (s : State P) : List T :=
  s.delivered.map (·.2) ++ s.consumer.taken ++ s.queue.queue ++ s.producer.pending

/-- The producer thread stands at the loop state `st`, which it has left with `hadError` if it is past
    the loop. -/
def Producer.At (P : Pipeline σ T) (st : σ) (hadError : Bool) : Producer σ T → Prop
  | .running st' | .push _ st' | .waitNotFull _ st' => st' = st ∧ hadError = false
  | .closing | .finished => (P.next st = .done ∧ hadError = false) ∨ (P.next st = .throw ∧ hadError = true)

structure Inv (s : State P) : Prop where
  emits : s.consumer ≠ .terminated → ∃ st, Emits P s.produced st ∧ s.producer.At P st s.hadError
  closed : s.queue.closed = true ↔ s.producer = .finished
  full : ∀ x st, s.producer = .waitNotFull x st → P.capacity ≤ s.queue.queue.length
  empty : s.consumer = .waitNotEmpty → s.queue.queue = [] ∧ s.producer ≠ .finished
  ended : s.consumer = .joining ∨ s.consumer = .returned → s.queue.queue = [] ∧ s.producer = .finished
  joinable : s.joinable = true ↔ s.consumer ≠ .returned
  threw : s.consumer ≠ .threw
  returns : ∀ i < s.delivered.length, P.callbackThrows i = false
  terminated : s.consumer = .terminated → P.callbackThrows s.delivered.length = true
  flags : s.hadError = false → ∀ d ∈ s.delivered, d.1 = true

@[simp] theorem notifyNotEmpty_taken (c : Consumer T) : c.notifyNotEmpty.taken = c.taken := by
  cases c <;> rfl

@[simp] theorem notifyNotFull_pending (p : Producer σ T) : p.notifyNotFull.pending = p.pending := by
  cases p <;> rfl

theorem notifyNotFull_at {p : Producer σ T} {st : σ} {e : Bool} :
    p.notifyNotFull.At P st e ↔ p.At P st e := by
  cases p <;> rfl

@[simp] theorem notifyNotFull_eq_finished {p : Producer σ T} : p.notifyNotFull = .finished ↔ p = .finished := by
  cases p <;> simp [Producer.notifyNotFull]

theorem notifyNotFull_ne_wait {p : Producer σ T} {x : T} {st : σ} : p.notifyNotFull ≠ .waitNotFull x st := by
  cases p <;> simp [Producer.notifyNotFull]

theorem notifyNotEmpty_eq {c d : Consumer T} (hp : d ≠ .pop) (hw : d ≠ .waitNotEmpty) :
    c.notifyNotEmpty = d ↔ c = d := by
  cases c <;> simp [Consumer.notifyNotEmpty, hp.symm, hw.symm]

theorem notifyNotEmpty_ne_wait {c : Consumer T} : c.notifyNotEmpty ≠ .waitNotEmpty := by
  cases c <;> simp [Consumer.notifyNotEmpty]

theorem inv_init (P : Pipeline σ T) : Inv (init P) where
  emits _ := ⟨P.start, .nil, rfl, rfl⟩
  closed := by simp [init]
  full := by simp [init]
  empty := by simp [init]
  ended := by simp [init]
  joinable := by simp [init]
  threw := by simp [init]
  returns := by simp [init]
  terminated := by simp [init]
  flags := by simp [init]

theorem Inv.setProducer (h : Inv s) {p : Producer σ T} {e : Bool} (hs : s.producer ≠ .finished)
    (hp : p ≠ .finished) (hfull : ∀ x st, p = .waitNotFull x st → P.capacity ≤ s.queue.queue.length)
    (herr : e = false → s.hadError = false)
    (hemits : ∀ st, Emits P s.produced st → s.producer.At P st s.hadError →
      ∃ st', Emits P ({ s with producer := p } : State P).produced st' ∧ p.At P st' e) :
    Inv { s with producer := p, hadError := e } :=
  { h with
    emits := fun ht => by
      obtain ⟨st, he, hat⟩ := h.emits ht
      exact hemits st he hat
    closed := by simpa [hp, hs] using h.closed
    full := hfull
    empty := fun hw => ⟨(h.empty hw).1, hp⟩
    ended := fun hw => absurd (h.ended hw).2 hs
    flags := fun he => h.flags (herr he) }

/-- Every step keeps the invariant. A push is never dropped, for only the producer closes the queue. -/
theorem Inv.step (h : Inv s) (hs : Step s l t) : Inv t := by
  cases hs with
  | @produce st st' x ht hp hn =>
    refine h.setProducer (by simp [hp]) (by simp) (by simp) id fun st₀ he hat => ?_
    rw [hp] at hat
    obtain ⟨rfl, herr⟩ := hat
    have hx := he.snoc hn
    exact ⟨st', by simpa [State.produced, hp, Producer.pending] using hx, rfl, herr⟩
  | @leave st ht hp hn =>
    refine h.setProducer (by simp [hp]) (by simp) (by simp) id fun st₀ he hat => ?_
    rw [hp] at hat
    obtain ⟨rfl, herr⟩ := hat
    exact ⟨st, by simpa [State.produced, hp, Producer.pending] using he, Or.inl ⟨hn, herr⟩⟩
  | @fault st ht hp hn =>
    refine h.setProducer (by simp [hp]) (by simp) (by simp) (by simp) fun st₀ he hat => ?_
    rw [hp] at hat
    obtain ⟨rfl, herr⟩ := hat
    exact ⟨st, by simpa [State.produced, hp, Producer.pending] using he, Or.inr ⟨hn, rfl⟩⟩
  | @pushed st x q ht hp hq =>
    obtain ⟨hc, hlt, hqueue, hqc⟩ := BoundedQueue.push_eq_pushed.mp hq
    obtain ⟨st₀, he, hat⟩ := h.emits ht
    rw [hp] at hat
    refine { h with
      emits := fun _ => ⟨st₀, ?_, hat⟩, closed := by simp [hqc], full := by simp,
      empty := fun hw => absurd hw notifyNotEmpty_ne_wait, ended := fun hw => ?_, joinable := ?_, threw := ?_,
      terminated := ?_ }
    · simpa [State.produced, hp, hqueue, Producer.pending] using he
    · rw [notifyNotEmpty_eq (by simp) (by simp), notifyNotEmpty_eq (by simp) (by simp)] at hw
      have := (h.ended hw).2
      simp [hp] at this
    · rw [ne_eq, notifyNotEmpty_eq (by simp) (by simp)]
      exact h.joinable
    · rw [ne_eq, notifyNotEmpty_eq (by simp) (by simp)]
      exact h.threw
    · rw [notifyNotEmpty_eq (by simp) (by simp)]
      exact h.terminated
  | @dropped st x ht hp hq =>
    have := h.closed.mp (BoundedQueue.push_eq_dropped.mp hq)
    simp [hp] at this
  | @pushSleeps st x ht hp hq =>
    obtain ⟨hc, hfull⟩ := BoundedQueue.push_eq_wait.mp hq
    refine h.setProducer (by simp [hp]) (by simp) (fun _ _ _ => hfull) id fun st₀ he hat => ?_
    rw [hp] at hat
    exact ⟨st₀, by simpa [State.produced, hp, Producer.pending] using he, hat⟩
  | @pushWakes st x ht hp =>
    refine h.setProducer (by simp [hp]) (by simp) (by simp) id fun st₀ he hat => ?_
    rw [hp] at hat
    exact ⟨st₀, by simpa [State.produced, hp, Producer.pending] using he, hat⟩
  | close ht hp =>
    obtain ⟨st₀, he, hat⟩ := h.emits ht
    rw [hp] at hat
    refine { h with
      emits := fun _ => ⟨st₀, ?_, hat⟩, closed := by simp, full := by simp,
      empty := fun hw => absurd hw notifyNotEmpty_ne_wait, ended := fun hw => ?_, joinable := ?_, threw := ?_,
      terminated := ?_ }
    · simpa [State.produced, hp, Producer.pending] using he
    · rw [notifyNotEmpty_eq (by simp) (by simp), notifyNotEmpty_eq (by simp) (by simp)] at hw
      have := (h.ended hw).2
      simp [hp] at this
    · rw [ne_eq, notifyNotEmpty_eq (by simp) (by simp)]
      exact h.joinable
    · rw [ne_eq, notifyNotEmpty_eq (by simp) (by simp)]
      exact h.threw
    · rw [notifyNotEmpty_eq (by simp) (by simp)]
      exact h.terminated
  | @popped x q hc hq =>
    obtain ⟨hqueue, hqc⟩ := BoundedQueue.pop_eq_popped.mp hq
    obtain ⟨st₀, he, hat⟩ := h.emits (by simp [hc])
    refine { h with
      emits := fun _ => ⟨st₀, ?_, notifyNotFull_at.mpr hat⟩, closed := ?_,
      full := fun _ _ hw => absurd hw notifyNotFull_ne_wait, empty := by simp, ended := by simp,
      joinable := ?_, threw := by simp, terminated := by simp }
    · simpa [State.produced, hc, hqueue, Consumer.taken] using he
    · simpa [hqc] using h.closed
    · simpa [hc] using h.joinable
  | popSleeps hc hq =>
    obtain ⟨hqueue, hqc⟩ := BoundedQueue.pop_eq_wait.mp hq
    obtain ⟨st₀, he, hat⟩ := h.emits (by simp [hc])
    refine { h with
      emits := fun _ => ⟨st₀, by simpa [State.produced, hc, Consumer.taken] using he, hat⟩,
      empty := fun _ => ⟨hqueue, fun hf => ?_⟩, ended := by simp, joinable := by simpa [hc] using h.joinable,
      threw := by simp, terminated := by simp }
    simp [h.closed.mpr hf] at hqc
  | popWakes hc =>
    obtain ⟨st₀, he, hat⟩ := h.emits (by simp [hc])
    exact { h with
      emits := fun _ => ⟨st₀, by simpa [State.produced, hc, Consumer.taken] using he, hat⟩,
      empty := by simp, ended := by simp, joinable := by simpa [hc] using h.joinable, threw := by simp,
      terminated := by simp }
  | ended hc hq =>
    obtain ⟨hqueue, hqc⟩ := BoundedQueue.pop_eq_ended.mp hq
    obtain ⟨st₀, he, hat⟩ := h.emits (by simp [hc])
    exact { h with
      emits := fun _ => ⟨st₀, by simpa [State.produced, hc, Consumer.taken] using he, hat⟩,
      empty := by simp, ended := fun _ => ⟨hqueue, h.closed.mp hqc⟩, joinable := by simpa [hc] using h.joinable,
      threw := by simp, terminated := by simp }
  | @deliver x hc hret =>
    obtain ⟨st₀, he, hat⟩ := h.emits (by simp [hc])
    refine { h with
      emits := fun _ => ⟨st₀, by simpa [State.produced, hc, Consumer.taken] using he, hat⟩,
      empty := by simp, ended := by simp, joinable := by simpa [hc] using h.joinable, threw := by simp,
      returns := fun i hi => ?_, terminated := by simp, flags := fun herr d hd => ?_ }
    · rw [List.length_append, List.length_singleton, Nat.lt_succ_iff] at hi
      rcases Nat.lt_or_eq_of_le hi with hi | rfl
      · exact h.returns i hi
      · exact hret
    · rcases List.mem_append.mp hd with hd | hd
      · exact h.flags herr d hd
      · have hfalse : s.hadError = false := herr
        rw [List.mem_singleton.mp hd, hfalse]
        rfl
  | @callbackThrows x hc hthrow =>
    have hj : s.joinable = true := h.joinable.mpr (by simp [hc])
    refine { h with emits := ?_, empty := ?_, ended := ?_, joinable := ?_, threw := ?_, terminated := ?_ } <;>
      simp [State.unwind, hj, hthrow]
  | join hc hp =>
    obtain ⟨st₀, he, hat⟩ := h.emits (by simp [hc])
    exact { h with
      emits := fun _ => ⟨st₀, by simpa [State.produced, hc, Consumer.taken] using he, hat⟩,
      empty := by simp, ended := fun _ => h.ended (Or.inl hc), joinable := by simp, threw := by simp,
      terminated := by simp }

theorem Reaches.inv {ls : List Label} (h : Reaches P ls s) : Inv s :=
  Lib.Run.invariant (fun hi hs => hi.step hs) h (inv_init P)

/-! ### The items of a producer that comes to an end -/

/-- The loop makes the items `xs` and then ends, by an exception if `failed`. -/
def Makes (P : Pipeline σ T) (xs : List T) (failed : Bool) : Prop :=
  ∃ st, Emits P xs st ∧ ((P.next st = .done ∧ failed = false) ∨ (P.next st = .throw ∧ failed = true))

/-- The loop makes items for ever. -/
def Endless (P : Pipeline σ T) : Prop := ∀ xs st, Emits P xs st → ∃ x st', P.next st = .item x st'

theorem Emits.unique {xs ys : List T} {st st' : σ} (h : Emits P xs st) (h' : Emits P ys st')
    (hlen : xs.length = ys.length) : xs = ys ∧ st = st' := by
  induction h generalizing ys st' with
  | nil =>
    cases h' with
    | nil => exact ⟨rfl, rfl⟩
    | snoc => simp at hlen
  | snoc _ hn ih =>
    cases h' with
    | nil => simp at hlen
    | snoc h' hn' =>
      obtain ⟨rfl, rfl⟩ := ih h' (by simpa using hlen)
      rw [hn] at hn'
      cases hn'
      exact ⟨rfl, rfl⟩

theorem Makes.length_le {xs ys : List T} {failed : Bool} {st : σ} (h : Makes P xs failed) (h' : Emits P ys st) :
    ys.length ≤ xs.length := by
  obtain ⟨st₀, he, hend⟩ := h
  induction h' with
  | nil => exact Nat.zero_le _
  | snoc h' hn ih =>
    rw [List.length_append, List.length_singleton]
    refine Nat.succ_le_of_lt (Nat.lt_of_le_of_ne ih fun hlen => ?_)
    obtain ⟨-, rfl⟩ := h'.unique he hlen
    rcases hend with ⟨hd, -⟩ | ⟨ht, -⟩ <;> simp_all

/-- A loop that ends has made, before its end, all that it makes on the way. -/
theorem Emits.prefix {xs ys : List T} {st st' : σ} (h : Emits P xs st) (h' : Emits P ys st')
    (hlen : ys.length ≤ xs.length) : ys <+: xs := by
  induction h with
  | nil =>
    obtain rfl := List.eq_nil_of_length_eq_zero (Nat.le_zero.mp hlen)
    exact List.prefix_rfl
  | @snoc xs st st' x h hn ih =>
    by_cases heq : ys.length = (xs ++ [x]).length
    · obtain ⟨rfl, -⟩ := h'.unique (h.snoc hn) heq
      exact List.prefix_rfl
    · rw [List.length_append, List.length_singleton] at heq hlen
      exact (ih (by omega)).trans (List.prefix_append _ _)

theorem Makes.unique {xs ys : List T} {b c : Bool} (h : Makes P xs b) (h' : Makes P ys c) : xs = ys ∧ b = c := by
  obtain ⟨st, he, hend⟩ := id h
  obtain ⟨st', he', hend'⟩ := id h'
  obtain ⟨rfl, rfl⟩ := he.unique he' (Nat.le_antisymm (h'.length_le he) (h.length_le he'))
  refine ⟨rfl, ?_⟩
  rcases hend with ⟨h1, rfl⟩ | ⟨h1, rfl⟩ <;> rcases hend' with ⟨h2, rfl⟩ | ⟨h2, rfl⟩ <;> simp_all

theorem Endless.not_makes {xs : List T} {b : Bool} (h : Endless P) : ¬Makes P xs b := by
  rintro ⟨st, he, hend⟩
  obtain ⟨x, st', hn⟩ := h xs st he
  rcases hend with ⟨hd, -⟩ | ⟨ht, -⟩ <;> simp_all

/-- The consumer loop has returned only when the producer has ended, and has then seen all its items. -/
theorem Inv.makes_of_returned (h : Inv s) (hr : s.consumer = .returned) :
    Makes P (s.delivered.map (·.2)) s.hadError := by
  obtain ⟨hqueue, hp⟩ := h.ended (Or.inr hr)
  obtain ⟨st, he, hat⟩ := h.emits (by simp [hr])
  rw [hp] at hat
  exact ⟨st, by simpa [State.produced, hr, hp, hqueue, Consumer.taken, Producer.pending] using he, hat⟩

/-! ### Progress -/

/-- Until the consumer loop returns or the process is terminated, a thread can take a step: with room for
    one item, the two never sleep together. -/
theorem Inv.progress (h : Inv s) (hcap : 0 < P.capacity) (hr : s.consumer ≠ .returned)
    (ht : s.consumer ≠ .terminated) : ∃ l t, l.spurious = false ∧ Step s l t := by
  cases hc : s.consumer with
  | pop =>
    cases hq : s.queue.pop with
    | wait => exact ⟨.consumer, _, rfl, .popSleeps hc hq⟩
    | ended => exact ⟨.consumer, _, rfl, .ended hc hq⟩
    | popped x q => exact ⟨.consumer, _, rfl, .popped hc hq⟩
  | waitNotEmpty =>
    -- The queue is empty and not closed, so the step is the producer's.
    obtain ⟨hqueue, hopen⟩ := h.empty hc
    cases hp : s.producer with
    | running st =>
      cases hn : P.next st with
      | item x st' => exact ⟨.producer, _, rfl, .produce ht hp hn⟩
      | done => exact ⟨.producer, _, rfl, .leave ht hp hn⟩
      | throw => exact ⟨.producer, _, rfl, .fault ht hp hn⟩
    | push x st =>
      cases hq : s.queue.push x with
      | wait => exact ⟨.producer, _, rfl, .pushSleeps ht hp hq⟩
      | dropped => exact ⟨.producer, _, rfl, .dropped ht hp hq⟩
      | pushed q => exact ⟨.producer, _, rfl, .pushed ht hp hq⟩
    | waitNotFull x st =>
      have hfull := h.full x st hp
      rw [hqueue, List.length_nil] at hfull
      omega
    | closing => exact ⟨.producer, _, rfl, .close ht hp⟩
    | finished => exact absurd hp hopen
  | got x =>
    cases hx : P.callbackThrows s.delivered.length
    · exact ⟨.consumer, _, rfl, .deliver hc hx⟩
    · exact ⟨.consumer, _, rfl, .callbackThrows hc hx⟩
  | joining => exact ⟨.consumer, _, rfl, .join hc (h.ended (Or.inl hc)).2⟩
  | returned => exact absurd hc hr
  | threw => exact absurd hc h.threw
  | terminated => exact absurd hc ht

/-- The turns the producer still has to take, when its loop makes `m` items and has made `made`. -/
def Producer.weight (m made : Nat) : Producer σ T → Nat
  | .running _ => 8 * (m - made) + 4
  | .push _ _ => 8 * (m - made) + 11
  | .waitNotFull _ _ => 8 * (m - made) + 10
  | .closing => 3
  | .finished => 0

/-- The turns the consumer takes before it is back in `pop` or has returned. -/
def Consumer.weight : Consumer T → Nat
  | .pop => 2
  | .waitNotEmpty => 1
  | .got _ => 3
  | .joining => 1
  | .returned | .threw | .terminated => 0

/-- The turns left to the two threads, when the producer's loop makes `m` items. -/
def State.weight (m : Nat) (s : State P) : Nat :=
  match s.consumer with
  | .terminated => 0
  | c => s.producer.weight m s.produced.length + 4 * s.queue.queue.length + c.weight

theorem weight_eq {m : Nat} (ht : s.consumer ≠ .terminated) :
    s.weight m = s.producer.weight m s.produced.length + 4 * s.queue.queue.length + s.consumer.weight := by
  unfold State.weight
  split
  · rename_i h
    exact absurd h ht
  · rfl

theorem produced_length (s : State P) : s.produced.length =
    s.delivered.length + s.consumer.taken.length + s.queue.queue.length + s.producer.pending.length := by
  simp [State.produced, Nat.add_assoc]

theorem notifyNotEmpty_weight (c : Consumer T) : c.notifyNotEmpty.weight ≤ c.weight + 1 := by
  cases c <;> simp [Consumer.notifyNotEmpty, Consumer.weight]

theorem notifyNotFull_weight (p : Producer σ T) (m made : Nat) :
    p.notifyNotFull.weight m made ≤ p.weight m made + 1 := by
  cases p <;> simp [Producer.notifyNotFull, Producer.weight]

theorem Inv.weight_lt (h : Inv s) {xs : List T} {failed : Bool} (hm : Makes P xs failed) (hs : Step s l t)
    (hl : l.spurious = false) : t.weight xs.length < s.weight xs.length := by
  cases hs with
  | @produce st st' x ht hp hn =>
    obtain ⟨st₀, he, hat⟩ := h.emits ht
    rw [hp] at hat
    obtain ⟨rfl, -⟩ := hat
    have hle := hm.length_le (he.snoc hn)
    rw [List.length_append, List.length_singleton, produced_length] at hle
    rw [weight_eq (s := s) ht, weight_eq (by exact ht)]
    simp only [produced_length, hp, Producer.weight, Producer.pending, List.length_nil, List.length_singleton] at hle ⊢
    omega
  | leave ht hp hn | fault ht hp hn =>
    rw [weight_eq (s := s) ht, weight_eq (by exact ht)]
    simp only [hp, Producer.weight]
    omega
  | @pushed st x q ht hp hq =>
    obtain ⟨-, -, hqueue, -⟩ := BoundedQueue.push_eq_pushed.mp hq
    have hw := notifyNotEmpty_weight s.consumer
    rw [weight_eq (s := s) ht, weight_eq (by rwa [ne_eq, notifyNotEmpty_eq (by simp) (by simp)])]
    simp only [produced_length, hp, hqueue, Producer.weight, Producer.pending, notifyNotEmpty_taken,
      List.length_append, List.length_nil, List.length_singleton]
    omega
  | dropped ht hp hq =>
    have := h.closed.mp (BoundedQueue.push_eq_dropped.mp hq)
    simp [hp] at this
  | pushSleeps ht hp hq =>
    rw [weight_eq (s := s) ht, weight_eq (by exact ht)]
    simp only [produced_length, hp, Producer.weight, Producer.pending]
    omega
  | close ht hp =>
    have hw := notifyNotEmpty_weight s.consumer
    rw [weight_eq (s := s) ht, weight_eq (by rwa [ne_eq, notifyNotEmpty_eq (by simp) (by simp)])]
    simp only [hp, Producer.weight, BoundedQueue.close_queue]
    omega
  | @popped x q hc hq =>
    obtain ⟨hqueue, -⟩ := BoundedQueue.pop_eq_popped.mp hq
    rw [weight_eq (s := s) (by simp [hc]), weight_eq (by simp)]
    have hw := notifyNotFull_weight s.producer xs.length s.produced.length
    have hlen : ({ s with consumer := .got x, queue := q, producer := s.producer.notifyNotFull } : State P).produced.length =
        s.produced.length := by
      simp [produced_length, hc, hqueue, Consumer.taken]
      omega
    rw [hlen]
    simp only [hc, hqueue, Consumer.weight, List.length_cons]
    omega
  | popSleeps hc hq | ended hc hq =>
    rw [weight_eq (s := s) (by simp [hc]), weight_eq (by simp)]
    simp [produced_length, hc, Consumer.weight, Consumer.taken]
  | @deliver x hc hret =>
    rw [weight_eq (s := s) (by simp [hc]), weight_eq (by simp)]
    simp [produced_length, hc, Consumer.weight, Consumer.taken]
  | callbackThrows hc hthrow =>
    rw [weight_eq (s := s) (by simp [hc])]
    simp [State.unwind, State.weight, h.joinable.mpr, hc, Consumer.weight]
  | join hc hp =>
    rw [weight_eq (s := s) (by simp [hc]), weight_eq (by simp)]
    simp [produced_length, hc, Consumer.weight, Consumer.taken]
  | pushWakes | popWakes => simp [Label.spurious] at hl

theorem Inv.weight_le (hs : Step s l t) (hl : l.spurious = true) (m : Nat) : t.weight m ≤ s.weight m + 1 := by
  cases hs with
  | pushWakes ht hp =>
    rw [weight_eq (s := s) ht, weight_eq (by exact ht)]
    simp only [produced_length, hp, Producer.weight, Producer.pending]
    omega
  | popWakes hc =>
    rw [weight_eq (s := s) (by simp [hc]), weight_eq (by simp)]
    simp [produced_length, hc, Consumer.weight, Consumer.taken]
  | _ => simp [Label.spurious] at hl

/-! ### Whole runs -/

/-- The callback never throws. -/
def CallbackReturns (P : Pipeline σ T) : Prop := ∀ i, P.callbackThrows i = false

theorem Inv.not_terminated (h : Inv s) (hcb : CallbackReturns P) : s.consumer ≠ .terminated := fun ht => by
  have := h.terminated ht
  rw [hcb] at this
  cases this

/-- A run is bounded by the number of items and of its spurious wake-ups. -/
theorem Reaches.length_le {ls : List Label} (h : Reaches P ls s) {xs : List T} {failed : Bool}
    (hm : Makes P xs failed) : ls.length ≤ 8 * xs.length + 6 + 2 * ls.countP Label.spurious := by
  have := @Lib.Run.length_le _ _ Step Inv (State.weight xs.length) Label.spurious Inv.step
    (fun hi hs hl => hi.weight_lt hm hs hl) (fun _ hs hl => Inv.weight_le hs hl _) _ _ _ h (inv_init P)
  simpa [weight_eq, init, Producer.weight, Consumer.weight, State.produced, Consumer.taken, Producer.pending] using this

/-- A run that no thread can go on with has returned, unless the callback threw. -/
theorem Reaches.returned_of_stuck {ls : List Label} (h : Reaches P ls s) (hcap : 0 < P.capacity)
    (hcb : CallbackReturns P) (hstuck : s.Stuck) : s.consumer = .returned := by
  by_contra hr
  obtain ⟨l, t, hl, hs⟩ := h.inv.progress hcap hr (h.inv.not_terminated hcb)
  rw [hstuck l t hs] at hl
  cases hl

/-- A producer that comes to an end lets some run return. -/
theorem Makes.exists_returned {xs : List T} {failed : Bool} (hm : Makes P xs failed) (hcap : 0 < P.capacity)
    (hcb : CallbackReturns P) : ∃ ls s, Reaches P ls s ∧ s.Stuck ∧ s.consumer = .returned := by
  obtain ⟨ls, s, hrun, hstuck⟩ := @Lib.Run.exists_stuck _ _ Step Inv (State.weight xs.length) Label.spurious Inv.step
    (fun hi hs hl => hi.weight_lt hm hs hl) _ (inv_init P)
  exact ⟨ls, s, hrun, hstuck, Reaches.returned_of_stuck hrun hcap hcb hstuck⟩

/-- An endless producer lets no run return. -/
theorem Endless.not_returned (h : Endless P) {ls : List Label} (hrun : Reaches P ls s) : s.consumer ≠ .returned :=
  fun hr => h.not_makes (hrun.inv.makes_of_returned hr)

/-- An endless producer runs for ever. -/
theorem Endless.exists_length (h : Endless P) (hcap : 0 < P.capacity) (hcb : CallbackReturns P) (n : Nat) :
    ∃ ls s, Reaches P ls s ∧ ls.length = n ∧ ls.countP Label.spurious = 0 := by
  refine @Lib.Run.exists_length _ _ Step Inv Label.spurious Inv.step (fun hi => ?_) n _ (inv_init P)
  exact hi.progress hcap (fun hr => h.not_makes (hi.makes_of_returned hr)) (hi.not_terminated hcb)

theorem stuck_of_terminated (ht : s.consumer = .terminated) : s.Stuck := by
  intro l t hs
  cases hs <;> simp_all

theorem exists_got {x : T} {st : σ} (hn : P.next P.start = .item x st) (hcap : 0 < P.capacity) :
    ∃ ls s, Reaches P ls s ∧ s.consumer = .got x ∧ s.delivered = [] := by
  have hp : Step (init P) .producer _ := .produce (by simp [init]) rfl hn
  obtain ⟨q, hq⟩ : ∃ q, (init P).queue.push x = .pushed q := by
    cases hq : (init P).queue.push x with
    | pushed q => exact ⟨q, rfl⟩
    | wait =>
      obtain ⟨-, hfull⟩ := BoundedQueue.push_eq_wait.mp hq
      simp [init] at hfull
      omega
    | dropped =>
      have := BoundedQueue.push_eq_dropped.mp hq
      simp [init] at this
  have hpush := Step.pushed (s := { init P with producer := .push x st }) (by simp [init]) rfl hq
  obtain ⟨-, -, hqueue, -⟩ := BoundedQueue.push_eq_pushed.mp hq
  have hpop : ∃ q', q.pop = .popped x q' := by
    cases hpop : q.pop with
    | popped y q' =>
      obtain ⟨hy, -⟩ := BoundedQueue.pop_eq_popped.mp hpop
      have : x = y := by
        rw [hqueue] at hy
        simpa [init] using congrArg List.head? hy
      exact ⟨q', by rw [this]⟩
    | wait => simp [(BoundedQueue.pop_eq_wait.mp hpop).1] at hqueue
    | ended => simp [(BoundedQueue.pop_eq_ended.mp hpop).1] at hqueue
  obtain ⟨q', hpop⟩ := hpop
  exact ⟨_, _, .cons hp (.cons hpush (.single (.popped rfl hpop))), rfl, rfl⟩

/-- The runs are bounded, spurious wake-ups apart: each of them is paid for with two steps. -/
def Terminates (P : Pipeline σ T) : Prop :=
  ∃ bound, ∀ ls s, Reaches P ls s → ls.length ≤ bound + 2 * ls.countP Label.spurious

theorem exists_makes (h : ¬Endless P) : ∃ xs failed, Makes P xs failed := by
  unfold Endless at h
  push Not at h
  obtain ⟨xs, st, he, hend⟩ := h
  cases hn : P.next st with
  | item x st' => exact absurd hn (hend x st')
  | done => exact ⟨xs, false, st, he, Or.inl ⟨hn, rfl⟩⟩
  | throw => exact ⟨xs, true, st, he, Or.inr ⟨hn, rfl⟩⟩

/-- The runs come to an end exactly when the producer does. -/
theorem terminates_iff (hcap : 0 < P.capacity) (hcb : CallbackReturns P) :
    Terminates P ↔ ∃ xs failed, Makes P xs failed := by
  constructor
  · rintro ⟨bound, hbound⟩
    refine exists_makes fun hend => ?_
    obtain ⟨ls, s, hrun, hlen, hfree⟩ := hend.exists_length hcap hcb (bound + 1)
    have := hbound ls s hrun
    omega
  · rintro ⟨xs, failed, hm⟩
    exact ⟨8 * xs.length + 6, fun ls s hrun => hrun.length_le hm⟩

/-- What a run that has returned delivered, when the loop makes `xs`. -/
theorem Makes.delivered {xs : List T} {failed : Bool} (hm : Makes P xs failed) {ls : List Label}
    (h : Reaches P ls s) (hr : s.consumer = .returned) : s.delivered.map (·.2) = xs ∧ s.hadError = failed :=
  (h.inv.makes_of_returned hr).unique hm

/-- With the flag clear at the end, it was clear whenever it was read. -/
theorem delivered_of_flags {xs : List T} (h : Inv s) (herr : s.hadError = false) (hxs : s.delivered.map (·.2) = xs) :
    s.delivered = xs.map (true, ·) := by
  rw [← hxs, List.map_map]
  refine (List.map_id _).symm.trans (List.map_congr_left fun d hd => ?_)
  obtain ⟨ok, x⟩ := d
  rw [show ok = true from h.flags herr _ hd]
  rfl

end DaphneZmq.Pipeline
