import DaphneZmq.Adc1283
import Mathlib.Tactic.Ring

/-! A read of the ADC1283 as it is seen on the lines: the frame is 32 cycles of one shape while CS is active, what is sampled
in them is what is decoded, and the lines are idle afterwards. -/

namespace DaphneZmq.Adc1283
open Lib Lib.Lines

variable {adc : Adc1283Gpio} {dout : List (Event Line) → Bool} {trace : List (Event Line)} {β : Type}

/-! ### Delays -/

theorem adds_unless_zero {x : UInt32} {m : Prog Line Unit} {k : Nat} {f : Unit → Prog Line β}
    {R : β → List (Event Line) → Prop} (hm : Adds dout m trace fun _ events => Pauses (x.toNat * k) events)
    (hf : ∀ events, Pauses (x.toNat * k) events → Adds dout (f ()) (trace ++ events) fun b events' => R b (events ++ events')) :
    Adds dout (if x ≠ 0 then m >>= f else f ()) trace R := by
  by_cases hx : x ≠ 0
  · rw [if_pos hx]
    exact hm.bind fun _ => hf
  · have hnone : Pauses (x.toNat * k) ([] : List (Event Line)) := by
      rw [not_not.mp hx]
      simpa using Pauses.nil
    rw [if_neg hx]
    simpa using hf [] hnone

theorem adds_adc1283DelayNs (nsecs : UInt32) :
    Adds dout (adc1283DelayNs nsecs) trace fun _ events => Pauses nsecs.toNat events := by
  have hsum : (nsecs / 1000).toNat * 1000 + (nsecs % 1000).toNat = nsecs.toNat := by
    rw [UInt32.toNat_div, UInt32.toNat_mod]
    exact Nat.div_add_mod' _ _
  rw [adc1283DelayNs]
  by_cases hn : nsecs ≠ 0
  · rw [if_pos hn]
    refine adds_unless_zero (k := 1000) (adds_pause (Pauses.singleton _)) fun events h => ?_
    by_cases hr : nsecs % 1000 ≠ 0
    · rw [if_pos hr]
      refine adds_pause ?_
      rw [← hsum]
      exact h.append (Pauses.singleton _)
    · rw [if_neg hr]
      have hzero : (nsecs % 1000).toNat = 0 := by rw [not_not.mp hr, UInt32.toNat_zero]
      rw [hzero, Nat.add_zero] at hsum
      refine adds_pure ?_
      rw [List.append_nil, ← hsum]
      exact h
  · rw [if_neg hn, not_not.mp hn]
    exact adds_pure Pauses.nil

/-- The two delays of a phase, the second of what the first leaves, are the phase. -/
theorem adds_adc1283DelayClamped (nsecs maxNsecs : UInt32) :
    Adds dout (adc1283DelayClamped nsecs maxNsecs) trace fun rest events =>
      Pauses (min nsecs.toNat maxNsecs.toNat) events ∧
        min nsecs.toNat maxNsecs.toNat + rest.toNat = maxNsecs.toNat := by
  rw [adc1283DelayClamped]
  by_cases h : nsecs ≥ maxNsecs
  · have hle : maxNsecs.toNat ≤ nsecs.toNat := UInt32.le_iff_toNat_le.mp h
    rw [if_pos h, Nat.min_eq_right hle]
    refine (adds_adc1283DelayNs maxNsecs).bind fun _ events hp => adds_pure ?_
    rw [List.append_nil]
    exact ⟨hp, rfl⟩
  · have hlt : nsecs.toNat < maxNsecs.toNat := by
      have := mt UInt32.le_iff_toNat_le.mpr h
      omega
    rw [if_neg h, Nat.min_eq_left (Nat.le_of_lt hlt)]
    refine (adds_adc1283DelayNs nsecs).bind fun _ events hp => adds_pure ?_
    have hle : nsecs ≤ maxNsecs := UInt32.le_iff_toNat_le.mpr (Nat.le_of_lt hlt)
    rw [List.append_nil, UInt32.toNat_sub_of_le _ _ hle]
    exact ⟨hp, by omega⟩

/-! ### The lines -/

theorem levels_eta (v : Line → Bool) : levels (v .sclk) (v .din) (v .cs) = v := by
  funext line
  cases line <;> rfl

@[simp] theorem after_drive_sclk (a b c x : Bool) : (Event.drive Line.sclk x).after (levels a b c) = levels x b c := by
  funext line
  cases line <;> rfl

@[simp] theorem after_drive_din (a b c x : Bool) : (Event.drive Line.din x).after (levels a b c) = levels a x c := by
  funext line
  cases line <;> rfl

@[simp] theorem after_drive_cs (a b c x : Bool) : (Event.drive Line.cs x).after (levels a b c) = levels a b x := by
  funext line
  cases line <;> rfl

@[simp] theorem selected_levels (a b c : Bool) : bus.selected (levels a b c) = c := by
  cases c <;> rfl

@[simp] theorem levels_cs (a b c : Bool) : levels a b c .cs = c := rfl

@[simp] theorem levels_select (a b c : Bool) : levels a b c bus.select = c := rfl

@[simp] theorem tick_sclk (a b c x : Bool) : bus.tick (levels a b c) (.drive .sclk x) =
    if x = a then none else some (if x then .rise b else .fall) := rfl

@[simp] theorem tick_din (a b c x : Bool) : bus.tick (levels a b c) (.drive .din x) = some (.data x) := rfl

@[simp] theorem tick_cs (a b c x : Bool) : bus.tick (levels a b c) (.drive .cs x) = none := rfl

@[simp] theorem tick_sample (a b c x : Bool) : bus.tick (levels a b c) (.sample x) = some (.sample x b) := rfl

theorem adc1283DinBit_eq {channel : UInt32} (h : channel.toNat < 8) (i : Nat) :
    adc1283DinBit ((channel &&& 0x7) <<< 3).toUInt8 i = controlBit channel.toNat i := by
  rw [adc1283DinBit, controlBit]
  by_cases hi : i < 8
  · rw [if_pos (show i < ADC1283_CMD_BITS from hi), if_pos hi]
    have hcmd : ((channel &&& 0x7) <<< 3).toUInt8.toBitVec.toNat = channel.toNat <<< 3 := by
      have hmask : (channel &&& 0x7).toNat = channel.toNat := by
        rw [UInt32.toNat_and]
        exact (Nat.and_two_pow_sub_one_eq_mod _ 3).trans (Nat.mod_eq_of_lt h)
      show ((channel &&& 0x7) <<< 3).toUInt8.toNat = _
      rw [UInt32.toNat_toUInt8, UInt32.toNat_shiftLeft, hmask, Nat.shiftLeft_eq]
      show channel.toNat * 2 ^ 3 % 2 ^ 32 % 2 ^ 8 = _
      rw [Nat.shiftLeft_eq]
      omega
    rw [BitVec.getLsbD, hcmd]
  · rw [if_neg (show ¬i < ADC1283_CMD_BITS from hi), if_neg hi]

/-! ### A cycle -/

/-- The ticks of a low phase, DIN being at `data`. -/
def lowTicks (adc : Adc1283Gpio) (data level : Bool) (t : Nat) : List (Nat × Tick) :=
  let low := adc.sclk_low_delay_ns.toNat
  [(t, .fall), (t + min adc.dout_sample_delay_ns.toNat low, .sample level data), (t + low, .rise data)]

theorem shows_lowPhase {low rest : List (Event Line)} {tail : Nat}
    (hlow : Pauses (min adc.dout_sample_delay_ns.toNat adc.sclk_low_delay_ns.toNat) low) (hrest : Pauses tail rest)
    (hsum : min adc.dout_sample_delay_ns.toNat adc.sclk_low_delay_ns.toNat + tail = adc.sclk_low_delay_ns.toNat)
    (data cs level : Bool) :
    bus.Shows (levels true data cs) (.drive .sclk false :: (low ++ .sample level :: (rest ++ [.drive .sclk true])))
      (levels true data cs) adc.sclk_low_delay_ns.toNat [] (fun t => if cs then lowTicks adc data level t else [])
      fun t => if cs then [] else lowTicks adc data level t := by
  have hl : ∀ v, bus.Shows v low v _ [] (fun _ => []) fun _ => [] := fun v => .pauses hlow
  have hr : ∀ v, bus.Shows v rest v _ [] (fun _ => []) fun _ => [] := fun v => .pauses hrest
  constructor
  · simp [(hl _).after, (hr _).after]
  · simp [hlow.2, hrest.2, hsum]
  · simp [(hl _).after, (hr _).after, (hl _).selects, (hr _).selects]
  · intro t
    cases cs <;> simp [(hl _).after, (hr _).after, (hl _).inside, (hr _).inside, hlow.2, hrest.2, lowTicks]
    omega
  · intro t
    cases cs <;> simp [(hl _).after, (hr _).after, (hl _).outside, (hr _).outside, hlow.2, hrest.2, lowTicks]
    omega

variable {channel : Nat} {cmd : UInt8}

/-- A clock of the frame shows a cycle, whose sample goes into `raw`. -/
theorem adds_clock (hcmd : ∀ i, adc1283DinBit cmd i = controlBit channel i) (raw : UInt32) (k : Nat) :
    Adds dout (clock adc dout cmd raw k) trace fun raw' events => ∃ level : Bool,
      raw' = raw <<< 1 ||| (if level then 1 else 0) ∧
      bus.Shows (levels true (controlBit channel k) true) events
        (levels true (controlBit channel (if k = 31 then k else k + 1)) true)
        (adc.sclk_low_delay_ns.toNat + if k = 31 then 0 else adc.sclk_high_delay_ns.toNat) []
        (cycle adc channel k level) fun _ => [] := by
  refine adds_drive_bind ?_
  refine (adds_adc1283DelayClamped _ _).bind fun lowTail low ⟨hlow, hlowTail⟩ => ?_
  refine adds_sample_bind fun level => ?_
  refine (adds_adc1283DelayNs _).bind fun _ rest hrest => ?_
  refine adds_drive_bind ?_
  have hphase := shows_lowPhase hlow hrest hlowTail (controlBit channel k) true level
  by_cases hk : k = 31
  · rw [if_pos (show k = ADC1283_NUM_CLOCKS - 1 from hk)]
    refine adds_pure ⟨level, rfl, ?_⟩
    rw [if_pos hk, if_pos hk]
    exact hphase.congr rfl rfl rfl (fun t => by simp [cycle, lowTicks, hk]) fun t => rfl
  · rw [if_neg (show ¬k = ADC1283_NUM_CLOCKS - 1 from hk)]
    refine (adds_adc1283DelayClamped _ _).bind fun highTail high ⟨hhigh, hhighTail⟩ => ?_
    refine adds_drive_bind ?_
    refine (adds_adc1283DelayNs _).bind fun _ rest' hrest' => adds_pure ⟨level, rfl, ?_⟩
    rw [if_neg hk, if_neg hk, hcmd]
    have hh : ∀ v, bus.Shows v high v _ [] (fun _ => []) fun _ => [] := fun v => .pauses hhigh
    have hr : ∀ v, bus.Shows v rest' v _ [] (fun _ => []) fun _ => [] := fun v => .pauses hrest'
    have hhighPhase : bus.Shows (levels true (controlBit channel k) true)
        (high ++ .drive .din (controlBit channel (k + 1)) :: rest') (levels true (controlBit channel (k + 1)) true)
        adc.sclk_high_delay_ns.toNat []
        (fun t => [(t + min adc.din_hold_delay_ns.toNat adc.sclk_high_delay_ns.toNat, .data (controlBit channel (k + 1)))])
        fun _ => [] := by
      constructor
      · simp [(hh _).after, (hr _).after]
      · simp [hhigh.2, hrest'.2, hhighTail]
      · simp [(hh _).after, (hh _).selects, (hr _).selects]
      · intro t
        simp [(hh _).after, (hh _).inside, (hr _).inside, hhigh.2]
      · intro t
        simp [(hh _).after, (hh _).outside, (hr _).outside]
    exact (hphase.append hhighPhase).congr (by simp) rfl rfl (fun t => by simp [cycle, lowTicks, hk]) fun t => rfl

/-! ### The frame -/

theorem toNat_shift_in {raw : UInt32} (h : raw.toNat < 2 ^ 31) (level : Bool) :
    (raw <<< 1 ||| (if level then 1 else 0)).toNat = 2 * raw.toNat + level.toNat := by
  have hshift : (raw <<< 1).toNat = raw.toNat <<< 1 := by
    rw [UInt32.toNat_shiftLeft]
    show raw.toNat <<< 1 % 2 ^ 32 = raw.toNat <<< 1
    rw [Nat.shiftLeft_eq]
    omega
  have hbit : (if level then 1 else 0 : UInt32).toNat = level.toNat := by cases level <;> rfl
  rw [UInt32.toNat_or, hshift, hbit, ← Nat.shiftLeft_add_eq_or_of_lt (Bool.toNat_lt level), Nat.shiftLeft_eq]
  omega

theorem frame_append_singleton (start : Nat) (samples : List Bool) (level : Bool) :
    frame adc channel start (samples ++ [level]) = frame adc channel start samples ++
      cycle adc channel samples.length level
        (start + samples.length * (adc.sclk_low_delay_ns.toNat + adc.sclk_high_delay_ns.toNat)) := by
  simp [frame, List.zipIdx_append]

/-- The frame shows its cycles, and what they sample is what is captured. -/
theorem adds_frame (hcmd : ∀ i, adc1283DinBit cmd i = controlBit channel i) :
    Adds dout ((List.range ADC1283_NUM_CLOCKS).foldlM (clock adc dout cmd) 0) trace fun raw events =>
      ∃ samples : List Bool, samples.length = 32 ∧ raw.toNat = ofLevels samples ∧ ∃ data ns,
        bus.Shows (levels true (controlBit channel 0) true) events (levels true data true) ns []
          (fun t => frame adc channel t samples) fun _ => [] := by
  let period := adc.sclk_low_delay_ns.toNat + adc.sclk_high_delay_ns.toNat
  refine (adds_foldlM_range (n := 32) (fun k raw events => ∃ samples : List Bool, samples.length = k ∧
    raw.toNat = ofLevels samples ∧ ∃ data ns, (k < 32 → data = controlBit channel k ∧ ns = k * period) ∧
      bus.Shows (levels true (controlBit channel 0) true) events (levels true data true) ns []
        (fun t => frame adc channel t samples) fun _ => []) ?_ ?_).mono ?_
  · exact ⟨[], rfl, rfl, _, _, fun _ => ⟨rfl, (Nat.zero_mul _).symm⟩, Bus.Shows.nil⟩
  · rintro k raw events trace hk ⟨samples, hlength, hraw, data, ns, hpast, hshows⟩
    obtain ⟨rfl, rfl⟩ := hpast hk
    refine (adds_clock hcmd raw k).mono ?_
    rintro raw' events' ⟨level, rfl, hcycle⟩
    refine ⟨samples ++ [level], by simp [hlength], ?_, _, _, ?_, (hshows.append hcycle).congr rfl rfl rfl (fun t => ?_) fun t => rfl⟩
    · have hlt := ofLevels_lt samples
      rw [hlength] at hlt
      have hpow : 2 ^ k ≤ 2 ^ 31 := Nat.pow_le_pow_right (by decide) (by omega)
      rw [toNat_shift_in (by omega), hraw, ofLevels_append_singleton]
    · intro hk'
      have hne : k ≠ 31 := by omega
      rw [if_neg hne, if_neg hne]
      exact ⟨rfl, (Nat.succ_mul k period).symm⟩
    · rw [frame_append_singleton, hlength]
  · rintro raw events ⟨samples, hlength, hraw, data, ns, -, hshows⟩
    exact ⟨samples, hlength, hraw, data, ns, hshows⟩

/-! ### The cycles before it -/

/-- The ticks have these edges of the clock. -/
def Clocks (edges : List Tick) (ticks : Nat → List (Nat × Tick)) : Prop := ∀ t, clockEdges (ticks t) = edges

theorem adds_preclock : Adds dout (preclock adc dout) trace fun _ events => ∃ ns ticks, Clocks [.fall, .rise false] ticks ∧
    bus.Shows idle events idle ns [] (fun _ => []) ticks := by
  refine (adds_adc1283DelayNs _).bind fun _ high hhigh => ?_
  refine adds_drive_bind ?_
  refine (adds_adc1283DelayClamped _ _).bind fun lowTail low ⟨hlow, hlowTail⟩ => ?_
  refine adds_sample_bind fun level => ?_
  refine (adds_adc1283DelayNs _).bind fun _ rest hrest => ?_
  refine adds_drive ⟨_, _, fun t => ?_, ((Bus.Shows.pauses hhigh).append
    (shows_lowPhase hlow hrest hlowTail false false level)).congr rfl rfl rfl (fun t => rfl) fun t => rfl⟩
  simp [lowTicks, Tick.isEdge]

/-- Before the cycles the lines are made idle, so that SCLK may rise once. -/
theorem shows_makeIdle (v : Line → Bool) : ∃ ticks, Clocks (if v .sclk then [] else [.rise (v .din)]) ticks ∧
    bus.Shows v [.drive .cs false, .drive .sclk true, .drive .din false] idle 0 (if v .cs then [false] else [])
      (fun _ => []) ticks := by
  rw [← levels_eta v]
  generalize v .sclk = a, v .din = b, v .cs = c
  refine ⟨fun t => (if a then [] else [(t, .rise b)]) ++ [(t, .data false)], fun t => ?_, ?_⟩
  · cases a <;> rfl
  · cases a <;> cases c <;> constructor <;> simp [idle]

theorem adds_adc1283PreclockGpioPath : Adds dout (adc1283PreclockGpioPath adc dout) trace fun _ events => ∃ ns ticks,
    Clocks (List.replicate adc.preclock_cycles.toNat [.fall, .rise false]).flatten ticks ∧
      bus.Shows idle events idle ns [] (fun _ => []) ticks := by
  refine adds_drive_bind (adds_drive_bind (adds_drive_bind ?_))
  refine (adds_foldlM_range (fun k _ events => ∃ ns ticks, Clocks (List.replicate k [.fall, .rise false]).flatten ticks ∧
    bus.Shows idle events idle ns [] (fun _ => []) ticks) ⟨0, fun _ => [], fun t => rfl, Bus.Shows.nil⟩ ?_).bind ?_
  · rintro k ⟨⟩ events trace - ⟨ns, ticks, hticks, hshows⟩
    refine adds_preclock.mono ?_
    rintro _ events' ⟨ns', ticks', hticks', hshows'⟩
    refine ⟨_, _, fun t => ?_, (hshows.append hshows').congr rfl rfl rfl (fun t => rfl) fun t => rfl⟩
    rw [clockEdges_append, hticks, hticks', List.replicate_succ', List.flatten_append]
    rfl
  · rintro _ events ⟨ns, ticks, hticks, hshows⟩
    have hbefore : bus.Shows idle [.drive .cs false, .drive .din false, .drive .sclk true] idle 0 [] (fun _ => [])
        fun t => [(t, .data false)] := by
      constructor <;> simp [idle]
    have hafter : bus.Shows idle [.drive .sclk true, .drive .din false] idle 0 [] (fun _ => [])
        fun t => [(t, .data false)] := by
      constructor <;> simp [idle]
    refine adds_drive_bind (adds_drive ⟨_, _, fun t => ?_, ((hbefore.append hshows).append hafter).congr
      (by simp) rfl rfl (fun t => rfl) fun t => rfl⟩)
    rw [clockEdges_append, clockEdges_append, hticks]
    exact List.append_nil _

/-! ### A read -/

theorem decode_eq (raw : UInt32) : decode raw = conversion raw.toNat := by
  have hword : (raw &&& 0xffff).toNat = raw.toNat % 2 ^ 16 := by
    rw [UInt32.toNat_and]
    exact Nat.and_two_pow_sub_one_eq_mod _ 16
  have hlead : ((raw &&& 0xffff) >>> 12).toNat = raw.toNat % 2 ^ 16 / 2 ^ 12 := by
    rw [UInt32.toNat_shiftRight, hword]
    exact Nat.shiftRight_eq_div_pow _ 12
  have hvalue : (raw &&& 0xffff) &&& ADC1283_RESULT_MASK = UInt32.ofNat (raw.toNat % 2 ^ 12) := by
    apply UInt32.toNat_inj.mp
    rw [UInt32.toNat_and, hword, UInt32.toNat_ofNat_of_lt' (by show _ < 2 ^ 32; omega)]
    refine (Nat.and_two_pow_sub_one_eq_mod _ 12).trans ?_
    omega
  have hzero : (raw &&& 0xffff) >>> 12 = 0 ↔ raw.toNat % 2 ^ 16 / 2 ^ 12 = 0 := by
    rw [← hlead]
    exact UInt32.toNat_inj.symm
  rw [decode, conversion]
  by_cases h : (raw &&& 0xffff) >>> 12 = 0
  · rw [if_neg (not_not.mpr h), if_pos (hzero.mp h), hvalue]
  · rw [if_pos h, if_neg (mt hzero.mpr h)]

/-- The lines over a read of a channel that there is. -/
theorem adds_adc1283ReadChannel {channel : UInt32} (h : channel.toNat < 8) (v : Line → Bool) :
    Adds dout (adc1283ReadChannel adc dout channel) trace fun result events => ∃ samples start ns outside,
      samples.length = 32 ∧ result = conversion (ofLevels samples) ∧
      Clocks ((if v .sclk then [] else [.rise (v .din)]) ++
        (List.replicate adc.preclock_cycles.toNat [.fall, .rise false]).flatten) outside ∧
      bus.Shows v events idle ns ((if v .cs then [false] else []) ++ [true, false])
        (fun t => frame adc channel.toNat (t + start) samples) outside := by
  have hnot : ¬channel ≥ ADC1283_NUM_CHANNELS := fun hle => absurd h (Nat.not_lt_of_le (UInt32.le_iff_toNat_le.mp hle))
  have hcmd := adc1283DinBit_eq h
  rw [adc1283ReadChannel, if_neg hnot]
  obtain ⟨idleTicks, hidleClocks, hidle⟩ := shows_makeIdle v
  refine adds_drive_bind (adds_drive_bind (adds_drive_bind ?_))
  refine adds_adc1283PreclockGpioPath.bind ?_
  rintro _ pre ⟨preNs, preTicks, hpreClocks, hpre⟩
  refine adds_drive_bind ?_
  refine (adds_adc1283DelayNs _).bind fun _ high hhigh => ?_
  refine adds_drive_bind ?_
  refine (adds_adc1283DelayNs _).bind fun _ setup hsetup => ?_
  refine (adds_frame hcmd).bind ?_
  rintro raw cycles ⟨samples, hlength, hraw, data, ns, hcycles⟩
  refine (adds_adc1283DelayNs _).bind fun _ hold hhold => ?_
  refine adds_drive_bind (adds_drive_bind (adds_drive_bind (adds_pure ?_)))
  have hfirst : bus.Shows idle [.drive .din (adc1283DinBit ((channel &&& 0x7) <<< 3).toUInt8 0)]
      (levels true (controlBit channel.toNat 0) false) 0 [] (fun _ => []) fun t => [(t, .data (controlBit channel.toNat 0))] := by
    rw [hcmd]
    constructor <;> simp [idle]
  have hselect : bus.Shows (levels true (controlBit channel.toNat 0) false) [.drive .cs true]
      (levels true (controlBit channel.toNat 0) true) 0 [true] (fun _ => []) fun _ => [] := by
    constructor <;> simp
  have hend : bus.Shows (levels true data true) [.drive .cs false, .drive .din false, .drive .sclk true] idle 0 [false]
      (fun _ => []) fun t => [(t, .data false)] := by
    constructor <;> simp [idle]
  have hall := (((((((hidle.append hpre).append hfirst).append (.pauses hhigh)).append hselect).append
    (.pauses hsetup)).append hcycles).append (.pauses hhold)).append hend
  have hresult : decode raw = conversion (ofLevels samples) := by rw [decode_eq, hraw]
  refine ⟨samples, preNs + adc.sclk_high_delay_ns.toNat + adc.cs_setup_delay_ns.toNat, _, _, hlength, hresult, fun t => ?_,
    hall.congr ?_ rfl ?_ (fun t => ?_) fun t => rfl⟩
  · have hpre' := hpreClocks (t + 0)
    simp only [Nat.add_zero] at hpre'
    simp [hidleClocks t, hpre', Tick.isEdge]
  · simp
  · simp
  · simp [Nat.add_assoc]

theorem clockEdges_frame (start : Nat) (samples : List Bool) : clockEdges (frame adc channel start samples) =
    (List.range samples.length).flatMap fun i => [.fall, .rise (controlBit channel i)] := by
  induction samples using List.reverseRecOn with
  | nil => rfl
  | append_singleton samples level ih =>
    have hcycle (t : Nat) : clockEdges (cycle adc channel samples.length level t) =
        [.fall, .rise (controlBit channel samples.length)] := by
      rw [cycle]
      split <;> simp [Tick.isEdge]
    rw [frame_append_singleton, clockEdges_append, ih, hcycle, List.length_append, List.length_singleton, List.range_succ,
      List.flatMap_append]
    rfl

/-- The two delays of a clamped phase take the phase. A read of a channel shows 32 cycles while CS is active, each with a
    sample that goes into the result, and the preclock cycles while it is not. -/
theorem adc1283ReadChannel_lines (adc : Adc1283Gpio) (dout : List (Event Line) → Bool) (channel : UInt32)
    (trace : List (Event Line)) (v : Line → Bool) :
    (∀ nsecs maxNsecs : UInt32, Adds dout (adc1283DelayClamped nsecs maxNsecs >>= adc1283DelayNs) trace
      fun _ events => Pauses maxNsecs.toNat events) ∧
    Adds dout (adc1283ReadChannel adc dout channel) trace fun result events =>
      if channel.toNat < 8 then
        (∃ samples start, samples.length = 32 ∧ result = conversion (ofLevels samples) ∧
          ∀ t, bus.wave true v t events = frame adc channel.toNat (t + start) samples) ∧
        clockEdges (bus.wave true v 0 events) =
          (List.range 32).flatMap (fun i => [.fall, .rise (controlBit channel.toNat i)]) ∧
        clockEdges (bus.wave false v 0 events) = (if v .sclk then [] else [.rise (v .din)]) ++
          (List.replicate adc.preclock_cycles.toNat [.fall, .rise false]).flatten ∧
        edges .cs v events = (if v .cs then [false] else []) ++ [true, false] ∧
        after v events = idle
      else events = [] ∧ result = .error .einval := by
  constructor
  · intro nsecs maxNsecs
    refine (adds_adc1283DelayClamped nsecs maxNsecs).bind fun rest events ⟨hfirst, hsum⟩ => ?_
    refine (adds_adc1283DelayNs rest).mono fun _ events' hrest => ?_
    exact hsum ▸ hfirst.append hrest
  · by_cases h : channel.toNat < 8
    · refine (adds_adc1283ReadChannel h v).mono ?_
      rintro result events ⟨samples, start, ns, outside, hlength, hresult, hclocks, hshows⟩
      rw [if_pos h]
      refine ⟨⟨samples, start, hlength, hresult, hshows.inside⟩, ?_, ?_, hshows.selects, hshows.after⟩
      · rw [hshows.inside, clockEdges_frame, hlength]
      · rw [hshows.outside, hclocks]
    · have hge : channel ≥ ADC1283_NUM_CHANNELS := UInt32.le_iff_toNat_le.mpr (Nat.le_of_not_lt h)
      rw [adc1283ReadChannel, if_pos hge]
      exact adds_pure (by rw [if_neg h]; exact ⟨rfl, rfl⟩)

/-- However many channels are read after the bus was made idle, it is idle again. -/
theorem idle_after_reads (channels : List UInt32) (v : Line → Bool) :
    Adds dout (do adc1283IdleBus; channels.mapM (adc1283ReadChannel adc dout)) trace
      fun _ events => after v events = idle := by
  have hreads : ∀ (channels : List UInt32) (trace : List (Event Line)),
      Adds dout (channels.mapM (adc1283ReadChannel adc dout)) trace fun _ events => after idle events = idle := by
    intro channels
    induction channels with
    | nil => exact fun trace => adds_pure rfl
    | cons channel channels ih =>
      intro trace
      rw [List.mapM_cons]
      refine Adds.bind (R := fun _ events => after idle events = idle) ?_ fun result events hfirst => ?_
      · by_cases h : channel.toNat < 8
        · exact (adds_adc1283ReadChannel h idle).mono fun _ _ ⟨_, _, _, _, _, _, _, hshows⟩ => hshows.after
        · have hge : channel ≥ ADC1283_NUM_CHANNELS := UInt32.le_iff_toNat_le.mpr (Nat.le_of_not_lt h)
          rw [adc1283ReadChannel, if_pos hge]
          exact adds_pure rfl
      · refine (ih _).bind fun results events' hrest => adds_pure ?_
        rw [List.append_nil, after_append, hfirst, hrest]
  obtain ⟨ticks, -, hshows⟩ := shows_makeIdle v
  have hbus : Adds dout adc1283IdleBus trace fun _ events => after v events = idle :=
    adds_drive_bind (adds_drive_bind (adds_drive hshows.after))
  refine hbus.bind fun _ events hfirst => (hreads channels _).mono fun _ events' hrest => ?_
  rw [after_append, hfirst, hrest]

end DaphneZmq.Adc1283
