import Mathlib.Data.List.Induction
import Mathlib.Logic.Function.Basic
import Mathlib.Tactic.Ring

/-! # Programs that drive lines

A program drives the levels of some lines, samples the level of an input and pauses, with the trace of what it does. What it
samples may depend on the trace so far, so that the input can follow a line.

A `Bus` is a clock, a data and a select line. What can be seen on it of a trace are its `Tick`s with their times: the edges of
the clock with the level of the data line, what is driven to that line, and the samples. `Adds` says what a program adds to
the trace. -/

namespace Lib.Lines

inductive Event (L : Type) where
  | drive (line : L) (level : Bool)
  | sample (level : Bool)
  | pause (ns : Nat)

/-- What can be seen on a bus, with the level of its data line. -/
inductive Tick where
  | fall
  | rise (data : Bool)
  | data (level : Bool)
  | sample (level data : Bool)
  deriving DecidableEq

def Tick.isEdge : Tick → Bool
  | .fall | .rise _ => true
  | .data _ | .sample _ _ => false

/-- The edges of the clock in what was seen. -/
def clockEdges (wave : List (Nat × Tick)) : List Tick := (wave.map Prod.snd).filter Tick.isEdge

@[simp] theorem clockEdges_nil : clockEdges [] = [] := rfl

@[simp] theorem clockEdges_cons (time : Nat) (tick : Tick) (wave : List (Nat × Tick)) :
    clockEdges ((time, tick) :: wave) = (if tick.isEdge then [tick] else []) ++ clockEdges wave := by
  cases h : tick.isEdge <;> simp [clockEdges, h]

@[simp] theorem clockEdges_append (a b : List (Nat × Tick)) : clockEdges (a ++ b) = clockEdges a ++ clockEdges b := by
  simp [clockEdges]

structure Bus (L : Type) where
  clock : L
  data : L
  select : L
  /-- The level of `select` that selects. -/
  active : Bool

abbrev Prog (L α : Type) := StateM (List (Event L)) α

variable {L α β : Type}

/-! ### Programs -/

def drive (line : L) (level : Bool) : Prog L Unit := fun trace => ((), trace ++ [.drive line level])

/-- `input` gives the level after a trace. -/
def sample (input : List (Event L) → Bool) : Prog L Bool := fun trace => (input trace, trace ++ [.sample (input trace)])

def pause (ns : Nat) : Prog L Unit := fun trace => ((), trace ++ [.pause ns])

/-- The samples of a trace are what `input` gave, each after what stands before it. -/
def Answered (input : List (Event L) → Bool) (trace : List (Event L)) : List (Event L) → Prop
  | [] => True
  | .sample level :: events => level = input trace ∧ Answered input (trace ++ [.sample level]) events
  | event :: events => Answered input (trace ++ [event]) events

theorem Answered.append {input : List (Event L) → Bool} {trace a b : List (Event L)} (ha : Answered input trace a)
    (hb : Answered input (trace ++ a) b) : Answered input trace (a ++ b) := by
  induction a generalizing trace with
  | nil => simpa using hb
  | cons event a ih =>
    have hb' : Answered input (trace ++ [event] ++ a) b := by simpa using hb
    cases event with
    | drive line level => exact ih ha hb'
    | sample level => exact ⟨ha.1, ih ha.2 hb'⟩
    | pause ns => exact ih ha hb'

/-- The program adds to the trace, with what `R` says of its result and of the events added. -/
def Adds (input : List (Event L) → Bool) (m : Prog L α) (trace : List (Event L)) (R : α → List (Event L) → Prop) : Prop :=
  ∃ events, (m trace).2 = trace ++ events ∧ Answered input trace events ∧ R (m trace).1 events

section
variable {input : List (Event L) → Bool} {trace : List (Event L)} {R : α → List (Event L) → Prop}

theorem adds_pure {a : α} (h : R a []) : Adds input (pure a) trace R := ⟨[], (List.append_nil _).symm, trivial, h⟩

theorem adds_drive {line : L} {level : Bool} {R : Unit → List (Event L) → Prop} (h : R () [.drive line level]) :
    Adds input (drive line level) trace R := ⟨_, rfl, trivial, h⟩

theorem adds_sample {R : Bool → List (Event L) → Prop} (h : ∀ level, R level [.sample level]) :
    Adds input (sample input) trace R := ⟨_, rfl, ⟨rfl, trivial⟩, h _⟩

theorem adds_pause {ns : Nat} {R : Unit → List (Event L) → Prop} (h : R () [.pause ns]) :
    Adds input (pause ns) trace R := ⟨_, rfl, trivial, h⟩

theorem Adds.mono_answered {m : Prog L α} {R' : α → List (Event L) → Prop} (h : Adds input m trace R)
    (himp : ∀ a events, Answered input trace events → R a events → R' a events) : Adds input m trace R' := by
  obtain ⟨events, htrace, hanswered, hR⟩ := h
  exact ⟨events, htrace, hanswered, himp _ _ hanswered hR⟩

theorem Adds.mono {m : Prog L α} {R' : α → List (Event L) → Prop} (h : Adds input m trace R)
    (himp : ∀ a events, R a events → R' a events) : Adds input m trace R' :=
  h.mono_answered fun a events _ => himp a events

theorem Adds.bind {m : Prog L α} {f : α → Prog L β} {R' : β → List (Event L) → Prop} (h : Adds input m trace R)
    (hf : ∀ a events, R a events → Adds input (f a) (trace ++ events) fun b events' => R' b (events ++ events')) :
    Adds input (m >>= f) trace R' := by
  obtain ⟨events, htrace, hanswered, hR⟩ := h
  obtain ⟨events', htrace', hanswered', hR'⟩ := hf _ _ hR
  have hrun : (m >>= f) trace = f (m trace).1 (trace ++ events) := by
    rw [← htrace]
    rfl
  refine ⟨events ++ events', ?_, hanswered.append hanswered', ?_⟩
  · rw [hrun, htrace', List.append_assoc]
  · rw [hrun]
    exact hR'

theorem adds_pure_bind {a : α} {f : α → Prog L β} {R : β → List (Event L) → Prop} (h : Adds input (f a) trace R) :
    Adds input (pure a >>= f) trace R := h

theorem Adds.of_bind_assoc {γ : Type} {m : Prog L α} {f : α → Prog L β} {g : β → Prog L γ} {R : γ → List (Event L) → Prop}
    (h : Adds input ((m >>= f) >>= g) trace R) : Adds input (m >>= fun a => f a >>= g) trace R := h

theorem adds_drive_bind {line : L} {level : Bool} {f : Unit → Prog L β} {R : β → List (Event L) → Prop}
    (h : Adds input (f ()) (trace ++ [.drive line level]) fun b events => R b (.drive line level :: events)) :
    Adds input (drive line level >>= f) trace R :=
  (adds_drive (R := fun _ events => events = [.drive line level]) rfl).bind fun _ _ he => he ▸ h

theorem adds_sample_bind {f : Bool → Prog L β} {R : β → List (Event L) → Prop}
    (h : ∀ level, Adds input (f level) (trace ++ [.sample level]) fun b events => R b (.sample level :: events)) :
    Adds input (sample input >>= f) trace R :=
  (adds_sample (R := fun level events => events = [.sample level]) fun _ => rfl).bind fun level _ he => he ▸ h level

/-- Rounds one after the other: each takes `I`, which says what has been added before it, one further. -/
theorem adds_foldlM_range {f : α → Nat → Prog L α} (I : Nat → α → List (Event L) → Prop) {n : Nat} {a : α} (h0 : I 0 a [])
    (hstep : ∀ k a events trace, k < n → I k a events →
      Adds input (f a k) trace fun b events' => I (k + 1) b (events ++ events')) :
    Adds input ((List.range n).foldlM f a) trace (I n) := by
  induction n with
  | zero => exact adds_pure h0
  | succ n ih =>
    rw [List.range_succ, List.foldlM_append]
    refine (ih fun k a events trace hk => hstep k a events trace (Nat.lt_succ_of_lt hk)).bind fun b events hI => ?_
    rw [List.foldlM_cons]
    refine (hstep n b events _ (Nat.lt_succ_self n) hI).bind fun c events' hI' => ?_
    exact adds_pure (by simpa using hI')

end

/-! ### Words -/

/-- The word of some levels, the first the highest bit. -/
def ofLevels (levels : List Bool) : Nat := levels.foldl (fun word level => 2 * word + level.toNat) 0

theorem ofLevels_append_singleton (levels : List Bool) (level : Bool) :
    ofLevels (levels ++ [level]) = 2 * ofLevels levels + level.toNat := by
  rw [ofLevels, List.foldl_append]
  rfl

theorem ofLevels_lt (levels : List Bool) : ofLevels levels < 2 ^ levels.length := by
  induction levels using List.reverseRecOn with
  | nil => decide
  | append_singleton levels level ih =>
    have hbit := Bool.toNat_lt level
    rw [ofLevels_append_singleton, List.length_append, List.length_singleton, Nat.pow_succ]
    omega

/-! ### Pauses -/

section
def Event.paused : Event L → Nat
  | .pause ns => ns
  | _ => 0

def paused (events : List (Event L)) : Nat := (events.map Event.paused).sum

variable {a b : List (Event L)}

@[simp] theorem Event.paused_drive (line : L) (level : Bool) : (Event.drive line level).paused = 0 := rfl

@[simp] theorem Event.paused_sample (level : Bool) : (Event.sample level : Event L).paused = 0 := rfl

@[simp] theorem Event.paused_pause (ns : Nat) : (Event.pause ns : Event L).paused = ns := rfl

@[simp] theorem paused_nil : paused ([] : List (Event L)) = 0 := rfl

@[simp] theorem paused_cons (event : Event L) : paused (event :: a) = event.paused + paused a := rfl

@[simp] theorem paused_append : paused (a ++ b) = paused a + paused b := by
  rw [paused, List.map_append, List.sum_append]
  rfl

/-- Nothing but pauses, of `ns` in all. -/
def Pauses (ns : Nat) (events : List (Event L)) : Prop := (∀ event ∈ events, ∃ ns, event = .pause ns) ∧ paused events = ns

namespace Pauses
variable {ns ns' : Nat}

theorem nil : Pauses 0 ([] : List (Event L)) := ⟨fun _ h => absurd h List.not_mem_nil, rfl⟩

theorem singleton (ns : Nat) : Pauses ns [(.pause ns : Event L)] :=
  ⟨fun _ h => ⟨ns, List.mem_singleton.mp h⟩, Nat.add_zero ns⟩

theorem append (ha : Pauses ns a) (hb : Pauses ns' b) : Pauses (ns + ns') (a ++ b) := by
  refine ⟨fun event h => ?_, by rw [paused_append, ha.2, hb.2]⟩
  rcases List.mem_append.mp h with h | h
  · exact ha.1 event h
  · exact hb.1 event h

end Pauses

end

/-! ### What can be seen -/

section
variable [DecidableEq L]

def Event.after (levels : L → Bool) : Event L → L → Bool
  | .drive line level => Function.update levels line level
  | _ => levels

/-- The levels of the lines after some events. -/
def after (levels : L → Bool) (events : List (Event L)) : L → Bool := events.foldl Event.after levels

/-- The levels that a line changes to. -/
def edges (line : L) (levels : L → Bool) : List (Event L) → List Bool
  | [] => []
  | event :: events =>
    (if event.after levels line = levels line then [] else [event.after levels line]) ++
      edges line (event.after levels) events

namespace Bus
variable (bus : Bus L)

def tick (levels : L → Bool) : Event L → Option Tick
  | .drive line level =>
    if line = bus.clock then
      if level = levels line then none else some (if level then .rise (levels bus.data) else .fall)
    else if line = bus.data then some (.data level) else none
  | .sample level => some (.sample level (levels bus.data))
  | .pause _ => none

def selected (levels : L → Bool) : Bool := levels bus.select == bus.active

/-- The ticks while the bus is selected, or while it is not, with their times. -/
def wave (on : Bool) (levels : L → Bool) (time : Nat) : List (Event L) → List (Nat × Tick)
  | [] => []
  | event :: events =>
    (if bus.selected levels = on then ((bus.tick levels event).toList.map fun tick => (time, tick)) else []) ++
      wave on (event.after levels) (time + event.paused) events

end Bus

variable {levels : L → Bool} {a b : List (Event L)} {line : L} {bus : Bus L} {on : Bool} {time : Nat}

@[simp] theorem Event.after_sample (level : Bool) : (Event.sample level).after levels = levels := rfl

@[simp] theorem Event.after_pause (ns : Nat) : (Event.pause ns).after levels = levels := rfl

@[simp] theorem after_nil : after levels [] = levels := rfl

@[simp] theorem after_cons (event : Event L) : after levels (event :: a) = after (event.after levels) a := rfl

@[simp] theorem after_append : after levels (a ++ b) = after (after levels a) b := List.foldl_append

@[simp] theorem edges_nil : edges line levels [] = [] := rfl

@[simp] theorem edges_cons (event : Event L) : edges line levels (event :: a) =
    (if event.after levels line = levels line then [] else [event.after levels line]) ++ edges line (event.after levels) a := rfl

@[simp] theorem edges_append : edges line levels (a ++ b) = edges line levels a ++ edges line (after levels a) b := by
  induction a generalizing levels with
  | nil => rfl
  | cons event a ih =>
    simp only [List.cons_append, edges, ih, List.append_assoc]
    rfl

namespace Bus

@[simp] theorem wave_nil : bus.wave on levels time [] = [] := rfl

@[simp] theorem wave_cons (event : Event L) : bus.wave on levels time (event :: a) =
    (if bus.selected levels = on then ((bus.tick levels event).toList.map fun tick => (time, tick)) else []) ++
      bus.wave on (event.after levels) (time + event.paused) a := rfl

@[simp] theorem wave_append : bus.wave on levels time (a ++ b) =
    bus.wave on levels time a ++ bus.wave on (after levels a) (time + paused a) b := by
  induction a generalizing levels time with
  | nil => rfl
  | cons event a ih =>
    simp only [List.cons_append, wave, ih, List.append_assoc, paused_cons, Nat.add_assoc]
    rfl

theorem eq_of_tick_eq_sample {event : Event L} {level data : Bool} (h : bus.tick levels event = some (.sample level data)) :
    event = .sample level ∧ data = levels bus.data := by
  cases event with
  | drive line level' =>
    rw [tick] at h
    by_cases hclock : line = bus.clock
    · rw [if_pos hclock] at h
      by_cases hsame : level' = levels line
      · rw [if_pos hsame] at h
        cases h
      · rw [if_neg hsame] at h
        cases level' <;> cases h
    · rw [if_neg hclock] at h
      by_cases hdata : line = bus.data
      · rw [if_pos hdata] at h
        cases h
      · rw [if_neg hdata] at h
        cases h
  | sample level' =>
    cases h
    exact ⟨rfl, rfl⟩
  | pause ns => cases h

/-- An input that follows the data line is sampled at the level of that line. -/
theorem sample_eq_data {input : List (Event L) → Bool} {start : L → Bool}
    (hinput : ∀ trace, input trace = after start trace bus.data) {trace : List (Event L)} (h : Answered input trace a)
    {t : Nat} {level data : Bool} (hmem : (t, .sample level data) ∈ bus.wave on (after start trace) time a) :
    level = data := by
  induction a generalizing trace time with
  | nil => cases hmem
  | cons event a ih =>
    have hafter : event.after (after start trace) = after start (trace ++ [event]) := by simp
    have hanswered : Answered input (trace ++ [event]) a := by
      cases event with
      | drive line level => exact h
      | sample level => exact h.2
      | pause ns => exact h
    rw [wave, hafter] at hmem
    rcases List.mem_append.mp hmem with hmem | hmem
    · split at hmem
      · simp only [List.mem_map, Option.mem_toList, Prod.mk.injEq] at hmem
        obtain ⟨tick, htick, -, rfl⟩ := hmem
        obtain ⟨rfl, rfl⟩ := eq_of_tick_eq_sample htick
        rw [h.1, hinput]
      · cases hmem
    · exact ih hanswered hmem

end Bus

/-- What some events show on a bus from any time on, and the levels that they leave. -/
structure Bus.Shows (bus : Bus L) (before : L → Bool) (events : List (Event L)) (levels : L → Bool) (ns : Nat)
    (selects : List Bool) (inside outside : Nat → List (Nat × Tick)) : Prop where
  after : after before events = levels
  paused : paused events = ns
  selects : edges bus.select before events = selects
  inside : ∀ time, bus.wave true before time events = inside time
  outside : ∀ time, bus.wave false before time events = outside time

namespace Bus.Shows
variable {v w x : L → Bool} {ns ns' : Nat} {selects selects' : List Bool} {inside outside inside' outside' : Nat → List (Nat × Tick)}

theorem congr (h : bus.Shows v a w ns selects inside outside) (hevents : b = a) (hns : ns = ns') (hselects : selects = selects')
    (hinside : ∀ t, inside t = inside' t) (houtside : ∀ t, outside t = outside' t) :
    bus.Shows v b w ns' selects' inside' outside' := by
  obtain rfl : inside = inside' := funext hinside
  obtain rfl : outside = outside' := funext houtside
  subst hevents hns hselects
  exact h

theorem nil : bus.Shows v [] v 0 [] (fun _ => []) fun _ => [] := ⟨rfl, rfl, rfl, fun _ => rfl, fun _ => rfl⟩

theorem append (ha : bus.Shows v a w ns selects inside outside) (hb : bus.Shows w b x ns' selects' inside' outside') :
    bus.Shows v (a ++ b) x (ns + ns') (selects ++ selects') (fun t => inside t ++ inside' (t + ns))
      fun t => outside t ++ outside' (t + ns) where
  after := by rw [after_append, ha.after, hb.after]
  paused := by rw [paused_append, ha.paused, hb.paused]
  selects := by rw [edges_append, ha.after, ha.selects, hb.selects]
  inside t := by rw [wave_append, ha.after, ha.paused, ha.inside, hb.inside]
  outside t := by rw [wave_append, ha.after, ha.paused, ha.outside, hb.outside]

/-- Pauses show nothing. -/
theorem pauses (h : Pauses ns a) : bus.Shows v a v ns [] (fun _ => []) fun _ => [] := by
  obtain ⟨hall, hns⟩ := h
  induction a generalizing ns with
  | nil => exact hns ▸ nil
  | cons event a ih =>
    obtain ⟨k, rfl⟩ := hall event (List.mem_cons_self ..)
    have ha := ih (fun event h => hall event (List.mem_cons_of_mem _ h)) rfl
    have hone : bus.Shows v [.pause k] v k [] (fun _ => []) fun _ => [] := by
      constructor <;> simp [tick]
    exact hns ▸ hone.append ha

end Bus.Shows

end

end Lib.Lines
