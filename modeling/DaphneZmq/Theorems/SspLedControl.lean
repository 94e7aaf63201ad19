import DaphneZmq.Lib.Frame
import DaphneZmq.SspLedControl

/-! What `configure_run` and `stop_run` leave in the registers of the channels. A write that returns has put its
    word into its cell, since it has been read back from there, so that the cells after a round of a loop are known
    whatever was in them before. -/

namespace DaphneZmq.SspLedControl
open Lib Lib.Device

variable {env : Env Nat UInt32} {cfg : LEDRunConfig} {s t : State Nat UInt32 Unit}

/-! ### Words -/

theorem packWord_ok {n : Int} {w : UInt32} (h : packWord n = .ok w) : (w.toNat : Int) = n := by
  unfold packWord at h
  split at h
  next hfits =>
    cases h
    rw [UInt32.toNat_ofNat', Nat.mod_eq_of_lt (by omega)]
    omega
  next => cases h

theorem packWord_eq_ok {n : Int} (h0 : 0 ≤ n) (h : n < 2 ^ 32) : packWord n = .ok (UInt32.ofNat n.toNat) := by
  rw [packWord, if_pos ⟨h0, h⟩]

theorem packWord_natCast {n : Nat} (h : n < 2 ^ 32) : packWord n = .ok (UInt32.ofNat n) :=
  packWord_eq_ok (Int.natCast_nonneg n) (by omega)

/-! ### A write -/

theorem returns_registerTransaction_read {address : Int} {a : UInt32} (ha : packWord address = .ok a)
    (hcell : env.driven a.toNat = none) {Q : Reply → State Nat UInt32 Unit → Prop}
    (h : Q ⟨24, a, 0x01, 1, 0, [s.cells a.toNat]⟩ s.tick) : Returns env (registerTransaction env address CMD_READ []) Q s := by
  have : registerTransaction env address CMD_READ [] = (do
      let word ← Device.read env a.toNat
      return ⟨24, a, 0x01, 1, 0, [word]⟩) := by
    unfold registerTransaction
    rw [ha]
    rfl
  rw [this]
  exact (returns_read_cell (R := fun word t => word = s.cells a.toNat ∧ t = s.tick) hcell ⟨rfl, rfl⟩).bind
    fun word t ⟨hword, ht⟩ => returns_pure _ (by rw [hword, ht]; exact h)

theorem returns_registerTransaction_write {address value : Int} {a w : UInt32} (ha : packWord address = .ok a)
    (hw : packWord value = .ok w) {Q : Reply → State Nat UInt32 Unit → Prop}
    (h : Q ⟨20, a, 0x03, 1, 0, []⟩ (s.afterWrite a.toNat w)) :
    Returns env (registerTransaction env address CMD_WRITE [value]) Q s := by
  have : registerTransaction env address CMD_WRITE [value] = (do
      [w].forM (Device.write env a.toNat)
      return ⟨20, a, 0x03, 1, 0, []⟩) := by
    unfold registerTransaction
    rw [ha, List.mapM_cons, hw]
    rfl
  rw [this]
  refine Returns.bind (R := fun _ t => t = s.afterWrite a.toNat w) ?_ fun _ t ht => returns_pure _ (by rw [ht]; exact h)
  exact (returns_write (R := fun _ t => t = s.afterWrite a.toNat w) rfl).bind fun _ t ht => returns_pure () ht

theorem returns_read_back {address : Int} {a w : UInt32} (ha : packWord address = .ok a) (hcell : env.driven a.toNat = none)
    (hs : s.cells a.toNat = w) :
    Returns env (read (registerTransaction env) address) (fun readback t => readback = w ∧ t.cells = s.cells) s := by
  have haddress := packWord_ok ha
  refine (returns_registerTransaction_read (Q := fun reply t => reply = ⟨24, a, 0x01, 1, 0, [w]⟩ ∧ t.cells = s.cells)
    ha hcell ⟨by rw [hs], rfl⟩).bind fun reply t ⟨hreply, ht⟩ => ?_
  rw [hreply, if_neg (not_not.mpr haddress), if_neg (by simp)]
  exact returns_pure _ ⟨rfl, ht⟩

theorem returns_write_back {address value : Int} {verify : Bool} {a w : UInt32} (ha : packWord address = .ok a)
    (hw : packWord value = .ok w) (hcell : env.driven a.toNat = none) :
    Returns env (write (registerTransaction env) address value verify)
      (fun readback t => t.cells = Function.update s.cells a.toNat w ∧ ∀ r ∈ readback, r = w) s := by
  have haddress := packWord_ok ha
  have hvalue := packWord_ok hw
  refine (returns_registerTransaction_write (Q := fun reply t => reply = ⟨20, a, 0x03, 1, 0, []⟩ ∧ t = s.afterWrite a.toNat w)
    ha hw ⟨rfl, rfl⟩).bind fun reply t ⟨hreply, ht⟩ => ?_
  rw [hreply, ht, if_neg (not_not.mpr haddress), if_neg (by simp)]
  split
  · exact returns_pure _ ⟨rfl, by simp⟩
  refine (returns_read_back ha hcell (Function.update_self ..)).bind fun readback t ⟨hreadback, ht⟩ => ?_
  rw [hreadback, if_neg (not_not.mpr hvalue)]
  exact returns_pure _ ⟨ht, by simp⟩

/-- A write to a cell puts its word there, and finds it there again. -/
theorem returns_writeAndLog {address value : Int} {verify : Bool} {a w : UInt32} (ha : packWord address = .ok a)
    (hw : packWord value = .ok w) (hcell : env.driven a.toNat = none) :
    Returns env (writeAndLog (registerTransaction env) address value verify)
      (fun _ t => t.cells = Function.update s.cells a.toNat w) s := by
  refine (returns_write_back ha hw hcell).bind fun readback t ⟨ht, hreadback⟩ => ?_
  cases readback with
  | none => exact returns_pure _ ht
  | some r =>
    rw [hreadback r rfl]
    dsimp only
    rw [if_neg (not_not.mpr (packWord_ok hw))]
    exact returns_pure _ ht

/-! ### Channels -/

theorem returns_write_cell {address : Int} {verify : Bool} {a : Nat} {value : Int} {w : UInt32} (ha : address = a) (hlt : a < 2 ^ 32)
    (hw : packWord value = .ok w) (hcell : env.driven a = none) :
    Returns env (writeAndLog (registerTransaction env) address value verify) (fun _ t => t.cells = Function.update s.cells a w) s := by
  have htoNat : (UInt32.ofNat a).toNat = a := by rw [UInt32.toNat_ofNat', Nat.mod_eq_of_lt hlt]
  have h : Returns env (writeAndLog (registerTransaction env) address value verify) _ s :=
    returns_writeAndLog (by rw [ha]; exact packWord_natCast hlt) hw (by rwa [htoNat])
  rwa [htoNat] at h

/-- The words that a run writes to the registers of a channel. -/
def biasWord (cfg : LEDRunConfig) (counter : Nat) : UInt32 :=
  if cfg.inMask counter then UInt32.ofNat (biasRegVal cfg counter).toNat else 0

def timingWord (cfg : LEDRunConfig) (counter : Nat) : UInt32 :=
  if cfg.inMask counter then UInt32.ofNat (timingRegVal cfg).toNat else 0

/-- What `validate_config` has checked of the channels. -/
structure Valid (cfg : LEDRunConfig) : Prop where
  number_channels : cfg.number_channels = 5 ∨ cfg.number_channels = 12
  pulse_mode : cfg.pulse_mode = "single" ∨ cfg.pulse_mode = "burst"
  delay : 0 ≤ cfg.double_pulse_delay_ticks ∧ cfg.double_pulse_delay_ticks ≤ 4095
  width1 : 0 ≤ cfg.pulse1_width_ticks ∧ cfg.pulse1_width_ticks ≤ 255
  width2 : 0 ≤ cfg.pulse2_width_ticks ∧ cfg.pulse2_width_ticks ≤ 255
  bias270 : 0 ≤ cfg.pulse_bias_percent_270nm ∧ cfg.pulse_bias_percent_270nm ≤ 4095
  bias367 : 0 ≤ cfg.pulse_bias_percent_367nm ∧ cfg.pulse_bias_percent_367nm ≤ 4095
  burst_count : 0 ≤ cfg.burst_count ∧ cfg.burst_count ≤ 10000

theorem check_bind_ok {p : Prop} [Decidable p] {text : String} {f : Unit → Except String Unit}
    (h : (check p text >>= f) = .ok ()) : p ∧ f () = .ok () := by
  unfold check at h
  split at h
  next hp => exact ⟨hp, h⟩
  next => cases h

theorem checkRange_bind_ok {field : String} {value upper : Int} {f : Unit → Except String Unit}
    (h : (checkRange field value upper >>= f) = .ok ()) : (0 ≤ value ∧ value ≤ upper) ∧ f () = .ok () := by
  obtain ⟨hrange, hrest⟩ := check_bind_ok h
  exact ⟨by omega, hrest⟩

theorem valid_of_validateConfig (h : validateConfig cfg = .ok ()) : Valid cfg := by
  obtain ⟨hchannels, h⟩ := check_bind_ok h
  obtain ⟨hmask, h⟩ := checkRange_bind_ok h
  obtain ⟨hmode, h⟩ := check_bind_ok h
  obtain ⟨hburst, h⟩ := checkRange_bind_ok h
  obtain ⟨hdelay, h⟩ := checkRange_bind_ok h
  obtain ⟨hwidth1, h⟩ := checkRange_bind_ok h
  obtain ⟨hwidth2, h⟩ := checkRange_bind_ok h
  obtain ⟨h270, h⟩ := checkRange_bind_ok h
  obtain ⟨h367, -⟩ := checkRange_bind_ok h
  exact ⟨hchannels, hmode, hdelay, hwidth1, hwidth2, h270, h367, hburst⟩

theorem mode_pos (cfg : LEDRunConfig) : 0 < cfg.timing.mode := by
  unfold LEDRunConfig.timing
  dsimp only
  split <;> decide

namespace Valid
variable (h : Valid cfg)
include h

theorem biasRegVal_eq (counter : Nat) : biasRegVal cfg counter = ((0x40 * 2 ^ 12 + (cfg.bias counter).level : Nat) : Int) := by
  obtain ⟨⟨h270, -⟩, ⟨h367, -⟩⟩ := And.intro h.bias270 h.bias367
  unfold biasRegVal LEDRunConfig.bias
  dsimp only
  split <;> omega

theorem level_lt (counter : Nat) : (cfg.bias counter).level < 2 ^ 12 := by
  obtain ⟨⟨-, h270⟩, ⟨-, h367⟩⟩ := And.intro h.bias270 h.bias367
  unfold LEDRunConfig.bias
  dsimp only
  split <;> omega

theorem timingRegVal_eq : timingRegVal cfg =
    ((cfg.timing.mode * 2 ^ 28 + cfg.timing.delay * 2 ^ 16 + cfg.timing.width2 * 2 ^ 8 + cfg.timing.width1 : Nat) : Int) := by
  obtain ⟨hdelay, -⟩ := h.delay
  obtain ⟨hwidth1, -⟩ := h.width1
  obtain ⟨hwidth2, -⟩ := h.width2
  unfold timingRegVal LEDRunConfig.timing
  dsimp only
  split <;> omega

theorem timing_lt : cfg.timing.mode < 2 ^ 4 ∧ cfg.timing.delay < 2 ^ 12 ∧ cfg.timing.width2 < 2 ^ 8 ∧ cfg.timing.width1 < 2 ^ 8 := by
  obtain ⟨-, hdelay⟩ := h.delay
  obtain ⟨-, hwidth1⟩ := h.width1
  obtain ⟨-, hwidth2⟩ := h.width2
  unfold LEDRunConfig.timing
  dsimp only
  refine ⟨?_, by omega, by omega, by omega⟩
  split <;> decide

theorem packWord_bias (counter : Nat) : packWord (biasRegVal cfg counter) = .ok (UInt32.ofNat (biasRegVal cfg counter).toNat) := by
  have hlevel := h.level_lt counter
  rw [h.biasRegVal_eq, Int.toNat_natCast]
  exact packWord_natCast (by omega)

theorem packWord_timing : packWord (timingRegVal cfg) = .ok (UInt32.ofNat (timingRegVal cfg).toNat) := by
  obtain ⟨hmode, hdelay, hwidth2, hwidth1⟩ := h.timing_lt
  rw [h.timingRegVal_eq, Int.toNat_natCast]
  exact packWord_natCast (by omega)

theorem biasWord_toNat {counter : Nat} (hmask : cfg.inMask counter = true) :
    (biasWord cfg counter).toNat = 0x40 * 2 ^ 12 + (cfg.bias counter).level := by
  have hlevel := h.level_lt counter
  rw [biasWord, if_pos hmask, h.biasRegVal_eq, Int.toNat_natCast, UInt32.toNat_ofNat', Nat.mod_eq_of_lt (by omega)]

/-! The packed fields do not run into each other. -/

theorem decodeBias_biasWord {counter : Nat} (hmask : cfg.inMask counter = true) : decodeBias (biasWord cfg counter) = cfg.bias counter := by
  have hlevel := h.level_lt counter
  have hcontrol : (cfg.bias counter).control = 0x40 := rfl
  rw [decodeBias, h.biasWord_toNat hmask]
  generalize cfg.bias counter = bias at *
  obtain ⟨level, control⟩ := bias
  dsimp only at *
  congr 1 <;> omega

theorem timingWord_toNat {counter : Nat} (hmask : cfg.inMask counter = true) : (timingWord cfg counter).toNat =
    cfg.timing.mode * 2 ^ 28 + cfg.timing.delay * 2 ^ 16 + cfg.timing.width2 * 2 ^ 8 + cfg.timing.width1 := by
  obtain ⟨hmode, hdelay, hwidth2, hwidth1⟩ := h.timing_lt
  rw [timingWord, if_pos hmask, h.timingRegVal_eq, Int.toNat_natCast, UInt32.toNat_ofNat', Nat.mod_eq_of_lt (by omega)]

theorem decodeTiming_timingWord {counter : Nat} (hmask : cfg.inMask counter = true) :
    decodeTiming (timingWord cfg counter) = cfg.timing := by
  obtain ⟨hmode, hdelay, hwidth2, hwidth1⟩ := h.timing_lt
  rw [decodeTiming, h.timingWord_toNat hmask]
  generalize cfg.timing = timing at *
  obtain ⟨mode, delay, width2, width1⟩ := timing
  dsimp only at *
  congr 1 <;> omega

theorem timingWord_ne_zero_iff (counter : Nat) : timingWord cfg counter ≠ 0 ↔ cfg.inMask counter = true := by
  constructor
  · intro hne
    by_contra hmask
    exact hne (if_neg hmask)
  · intro hmask hzero
    have hpos := mode_pos cfg
    have := h.timingWord_toNat hmask
    rw [hzero, UInt32.toNat_zero] at this
    omega

end Valid

/-- The cells after a round of the loop over the channels. -/
def afterChannel (cfg : LEDRunConfig) (counter : Nat) (cells : Nat → UInt32) : Nat → UInt32 :=
  let biased := Function.update cells (biasRegister (cfg.first + counter)) (biasWord cfg counter)
  let beside := if counter = 7 ∧ cfg.inMask 7 = true ∧ cfg.inMask 6 = false then
    Function.update biased (biasRegister (cfg.first + 6)) (biasWord cfg 7) else biased
  Function.update beside (timingRegister (cfg.first + counter)) (timingWord cfg counter)

theorem biasRegister_lt {i : Nat} (h : i < 12) : biasRegister i < 2 ^ 32 := by
  unfold biasRegister
  omega

theorem timingRegister_lt {i : Nat} (h : i < 12) : timingRegister i < 2 ^ 32 := by
  unfold timingRegister
  omega

@[simp] theorem biasRegister_inj {i j : Nat} : biasRegister i = biasRegister j ↔ i = j := by
  unfold biasRegister
  omega

@[simp] theorem timingRegister_inj {i j : Nat} : timingRegister i = timingRegister j ↔ i = j := by
  unfold timingRegister
  omega

theorem biasRegister_ne {i j : Nat} (h : i < 20) : biasRegister i ≠ timingRegister j := by
  unfold biasRegister timingRegister
  omega

theorem baseBiasAddr_add (counter : Nat) : baseBiasAddr cfg + 0x4 * counter = biasRegister (cfg.first + counter) := by
  unfold baseBiasAddr LEDRunConfig.first biasRegister
  split <;> omega

theorem baseTimingAddr_add (counter : Nat) : baseTimingAddr cfg + 0x4 * counter = timingRegister (cfg.first + counter) := by
  unfold baseTimingAddr LEDRunConfig.first timingRegister
  split <;> omega

theorem Valid.first_add_lt (h : Valid cfg) {counter : Nat} (hcounter : counter < cfg.number_channels.toNat) :
    cfg.first + counter < 12 := by
  unfold LEDRunConfig.first
  rcases h.number_channels with hn | hn <;> rw [hn] at hcounter ⊢ <;> simp at hcounter ⊢ <;> omega

section Latching
variable (hlatch : Latching env)
include hlatch

theorem returns_configureChannel (h : Valid cfg) {counter : Nat} (hcounter : counter < cfg.number_channels.toNat) :
    Returns env (configureChannel (registerTransaction env) cfg (baseBiasAddr cfg) (baseTimingAddr cfg) counter)
      (fun _ t => t.cells = afterChannel cfg counter s.cells) s := by
  have hlt := h.first_add_lt hcounter
  obtain ⟨hbias, htiming⟩ := hlatch _ hlt
  have hbiasWord : packWord (if cfg.inMask counter = true then biasRegVal cfg counter else 0) = .ok (biasWord cfg counter) := by
    unfold biasWord
    split
    · exact h.packWord_bias counter
    · rfl
  have htimingWord : packWord (if cfg.inMask counter = true then timingRegVal cfg else 0) = .ok (timingWord cfg counter) := by
    unfold timingWord
    split
    · exact h.packWord_timing
    · rfl
  unfold configureChannel
  dsimp only
  by_cases hmask : cfg.inMask counter = true
  · rw [if_pos hmask] at hbiasWord htimingWord ⊢
    refine (returns_write_cell (baseBiasAddr_add counter) (biasRegister_lt hlt) hbiasWord hbias).bind fun _ t ht => ?_
    refine Returns.bind (R := fun _ u => u.cells = if counter = 7 ∧ cfg.inMask 7 = true ∧ cfg.inMask 6 = false then
      Function.update t.cells (biasRegister (cfg.first + 6)) (biasWord cfg 7) else t.cells) ?_ fun _ u hu => ?_
    · by_cases hbeside : counter = 7 ∧ cfg.inMask 7 = true ∧ cfg.inMask 6 = false
      · -- channel 7 biases the register of channel 6 too
        obtain ⟨rfl, hin, hout⟩ := hbeside
        rw [if_pos ⟨rfl, by simp [hout]⟩, if_pos ⟨rfl, hin, hout⟩]
        refine returns_write_cell ?_ (biasRegister_lt (by omega)) hbiasWord (hlatch _ (by omega)).1
        rw [baseBiasAddr_add]
        unfold biasRegister
        omega
      · have hnot : ¬(counter = 7 ∧ ¬cfg.inMask (counter - 1) = true) := by
          rintro ⟨rfl, hout⟩
          exact hbeside ⟨rfl, hmask, by simpa using hout⟩
        rw [if_neg hnot, if_neg hbeside]
        exact returns_pure () rfl
    · rw [afterChannel, ← ht, ← hu]
      exact returns_write_cell (baseTimingAddr_add counter) (timingRegister_lt hlt) htimingWord htiming
  · rw [if_neg hmask] at hbiasWord htimingWord ⊢
    have hnot : ¬(counter = 7 ∧ cfg.inMask 7 = true ∧ cfg.inMask 6 = false) := by
      rintro ⟨rfl, hin, -⟩
      exact hmask hin
    refine (returns_write_cell (baseBiasAddr_add counter) (biasRegister_lt hlt) hbiasWord hbias).bind fun _ t ht => ?_
    rw [afterChannel, if_neg hnot, ← ht]
    exact returns_write_cell (baseTimingAddr_add counter) (timingRegister_lt hlt) htimingWord htiming

theorem returns_stopChannel {k : Nat} (hk : k < 12) :
    Returns env (do
      writeAndLog (registerTransaction env) (0x40000340 + 0x4 * k) 0x00000000 true
      writeAndLog (registerTransaction env) (0x800003C0 + 0x4 * k) 0x00000000 true)
      (fun _ t => t.cells = Function.update (Function.update s.cells (biasRegister k) 0) (timingRegister k) 0) s := by
  have hzero : packWord 0 = .ok 0 := rfl
  have hbias : (0x40000340 + 0x4 * k : Int) = biasRegister k := by
    unfold biasRegister
    omega
  have htiming : (0x800003C0 + 0x4 * k : Int) = timingRegister k := by
    unfold timingRegister
    omega
  refine (returns_write_cell hbias (biasRegister_lt hk) hzero (hlatch k hk).1).bind fun _ t ht => ?_
  rw [← ht]
  exact returns_write_cell htiming (timingRegister_lt hk) hzero (hlatch k hk).2

end Latching

/-- What the first channels' registers hold after their rounds. -/
structure Done (cfg : LEDRunConfig) (k : Nat) (cells : Nat → UInt32) : Prop where
  timing : ∀ c < k, cells (timingRegister (cfg.first + c)) = timingWord cfg c
  bias : ∀ c < k, ¬(c = 6 ∧ cfg.inMask 7 = true ∧ cfg.inMask 6 = false) → cells (biasRegister (cfg.first + c)) = biasWord cfg c
  beside : 7 < k → cfg.inMask 7 = true → cfg.inMask 6 = false → cells (biasRegister (cfg.first + 6)) = biasWord cfg 7

theorem first_le (cfg : LEDRunConfig) : cfg.first ≤ 7 := by
  unfold LEDRunConfig.first
  split <;> decide

theorem afterChannel_timing {k : Nat} (hlt : cfg.first + k < 12) (cells : Nat → UInt32) (i : Nat) :
    afterChannel cfg k cells (timingRegister i) = if i = cfg.first + k then timingWord cfg k else cells (timingRegister i) := by
  have hfirst := first_le cfg
  have hbias : timingRegister i ≠ biasRegister (cfg.first + k) := (biasRegister_ne (by omega)).symm
  have hbeside : timingRegister i ≠ biasRegister (cfg.first + 6) := (biasRegister_ne (by omega)).symm
  unfold afterChannel
  split <;> simp only [Function.update_apply, hbias, hbeside, if_false, timingRegister_inj]

theorem afterChannel_bias {k i : Nat} (hi : i < 20) (cells : Nat → UInt32) : afterChannel cfg k cells (biasRegister i) =
    if (k = 7 ∧ cfg.inMask 7 = true ∧ cfg.inMask 6 = false) ∧ i = cfg.first + 6 then biasWord cfg 7
    else if i = cfg.first + k then biasWord cfg k else cells (biasRegister i) := by
  unfold afterChannel
  rw [Function.update_of_ne (biasRegister_ne hi)]
  by_cases hbeside : k = 7 ∧ cfg.inMask 7 = true ∧ cfg.inMask 6 = false
  · rw [if_pos hbeside]
    simp only [Function.update_apply, biasRegister_inj, hbeside, true_and]
  · rw [if_neg hbeside, if_neg fun h => hbeside h.1]
    simp only [Function.update_apply, biasRegister_inj]

theorem Done.step {k : Nat} {cells : Nat → UInt32} (h : Done cfg k cells) (hlt : cfg.first + k < 12) :
    Done cfg (k + 1) (afterChannel cfg k cells) := by
  refine ⟨fun c hc => ?_, fun c hc hnot => ?_, fun hk hin hout => ?_⟩
  · rw [afterChannel_timing hlt]
    split
    next heq => rw [show c = k by omega]
    next hne => exact h.timing c (by omega)
  · rw [afterChannel_bias (by omega), if_neg (by rintro ⟨⟨-, hbeside⟩, hc6⟩; exact hnot ⟨by omega, hbeside⟩)]
    split
    next heq => rw [show c = k by omega]
    next hne => exact h.bias c (by omega) hnot
  · have hfirst := first_le cfg
    rw [afterChannel_bias (by omega)]
    by_cases hk7 : k = 7
    · rw [if_pos ⟨⟨hk7, hin, hout⟩, rfl⟩]
    · rw [if_neg fun h => hk7 h.1.1, if_neg (by omega)]
      exact h.beside (by omega) hin hout

/-! ### What is written -/

section Frames
variable {written : Nat → Prop}

theorem does_registerTransaction {address command : Int} {data_words : List Int}
    (h : ∀ a, packWord address = .ok a → command ≠ CMD_READ → written a.toNat) :
    Does (.touches written fun _ => True) (registerTransaction env address command data_words) := by
  unfold registerTransaction
  split
  next => exact does_throw _
  next => exact does_throw _
  next words a _ ha =>
    split
    · exact (does_touches_read trivial).bind fun _ => does_pure _
    next hcommand => exact (does_forM fun w _ => does_touches_write (h a ha hcommand) w).bind fun _ => does_pure _

theorem does_read (address : Int) : Does (.touches written fun _ => True) (read (registerTransaction env) address) := by
  refine (does_registerTransaction fun _ _ hne => absurd rfl hne).bind fun reply => ?_
  split
  · exact does_throw _
  split
  · exact does_throw _
  · split
    · exact does_throw _
    · exact does_pure _

theorem does_writeAndLog {address value : Int} {verify : Bool} (h : ∀ a, packWord address = .ok a → written a.toNat) :
    Does (.touches written fun _ => True) (writeAndLog (registerTransaction env) address value verify) := by
  unfold writeAndLog write
  refine ((does_registerTransaction fun a ha _ => h a ha).bind fun reply => ?_).bind fun readback => ?_
  · split
    · exact does_throw _
    split
    · exact does_throw _
    split
    · exact does_pure _
    · refine (does_read address).bind fun readback => ?_
      split
      · exact does_throw _
      · exact does_pure _
  · split
    · exact does_pure _
    · split
      · exact does_throw _
      · exact does_pure _

end Frames

/-! A run writes only the registers that it may write, also when it raises. -/

section Runs

theorem written_of_address {address : Int} {r : Nat} (hr : Written r) (haddress : address = r) {a : UInt32}
    (ha : packWord address = .ok a) : Written a.toNat := by
  have hword := packWord_ok ha
  have heq : a.toNat = r := by omega
  exact heq ▸ hr

theorem written_bias {i : Nat} (hi : i < 12) : Written (biasRegister i) := Or.inl ⟨i, hi, Or.inl rfl⟩

theorem written_timing {i : Nat} (hi : i < 12) : Written (timingRegister i) := Or.inl ⟨i, hi, Or.inr rfl⟩

section Settings
variable {written : Nat → Prop} (hset : ∀ a ∈ settings, written a)
include hset

theorem does_setting {address value : Int} {verify : Bool} (h : address.toNat ∈ settings) :
    Does (.touches written fun _ => True) (writeAndLog (registerTransaction env) address value verify) := by
  refine does_writeAndLog fun a ha => hset _ ?_
  have : address.toNat = a.toNat := by rw [← packWord_ok ha, Int.toNat_natCast]
  exact this ▸ h

theorem does_syncAttempts (partition_number timing_address : Int) : ∀ (attempts : Nat) (pdts_status : UInt32),
    Does (.touches written fun _ => True) (syncAttempts (registerTransaction env) partition_number timing_address pdts_status attempts)
  | 0, _ => does_throw _
  | attempts + 1, _ => by
    refine (does_setting hset (by decide)).bind fun _ => (does_setting hset (by decide)).bind fun _ => ?_
    refine (does_read _).bind fun _ => (does_read _).bind fun _ => (does_read _).bind fun _ => ?_
    refine (does_setting hset (by decide)).bind fun _ => (does_read _).bind fun _ => (does_read _).bind fun _ => ?_
    refine (does_setting hset (by decide)).bind fun _ => (does_read _).bind fun status => ?_
    split
    · exact does_pure _
    · exact does_syncAttempts partition_number timing_address attempts status

omit hset in
theorem does_awaitRunning : ∀ (polls : Nat) (pdts_status : UInt32),
    Does (.touches written fun _ => True) (awaitRunning (registerTransaction env) pdts_status polls)
  | 0, _ => does_throw _
  | polls + 1, _ => by
    refine (does_read _).bind fun status => ?_
    split
    · exact does_pure _
    · exact does_awaitRunning polls status

theorem does_syncPdts (partition_number timing_address : Int) :
    Does (.touches written fun _ => True) (syncPdts (registerTransaction env) partition_number timing_address) := by
  refine (does_read _).bind fun _ => (does_read _).bind fun _ => (does_read _).bind fun _ => Does.bind ?_ fun _ => does_awaitRunning 3 _
  split
  · exact does_pure _
  · exact does_syncAttempts hset _ _ 5 _

theorem does_configurePdtsRegisterBlock :
    Does (.touches written fun _ => True) (configurePdtsRegisterBlock (registerTransaction env)) := by
  refine (does_setting hset (by decide)).bind fun _ => (does_forM fun index hindex => ?_).bind fun _ => ?_
  · have hlt := List.mem_range.mp hindex
    refine does_setting hset (List.mem_append_right _ (List.mem_map.mpr ⟨index, hindex, ?_⟩))
    unfold PDTS_CMD_DELAY_0
    omega
  · exact (does_setting hset (by decide)).bind fun _ => does_setting hset (by decide)

end Settings

theorem written_setting : ∀ a ∈ settings, Written a := fun _ => Or.inr

theorem does_configureChannel (h : Valid cfg) {counter : Nat} (hcounter : counter < cfg.number_channels.toNat) :
    Does (.touches Written fun _ => True)
      (configureChannel (registerTransaction env) cfg (baseBiasAddr cfg) (baseTimingAddr cfg) counter) := by
  have hlt := h.first_add_lt hcounter
  have hbias {value : Int} : Does (.touches Written fun _ => True)
      (writeAndLog (registerTransaction env) (baseBiasAddr cfg + 0x4 * counter) value true) :=
    does_writeAndLog fun _ => written_of_address (written_bias hlt) (baseBiasAddr_add counter)
  have htiming {value : Int} : Does (.touches Written fun _ => True)
      (writeAndLog (registerTransaction env) (baseTimingAddr cfg + 0x4 * counter) value true) :=
    does_writeAndLog fun _ => written_of_address (written_timing hlt) (baseTimingAddr_add counter)
  unfold configureChannel
  dsimp only
  split
  · refine hbias.bind fun _ => Does.bind ?_ fun _ => htiming
    split
    next hbeside =>
      refine does_writeAndLog fun _ => written_of_address (written_bias (show cfg.first + 6 < 12 by omega)) ?_
      rw [baseBiasAddr_add, hbeside.1]
      unfold biasRegister
      omega
    next => exact does_pure _
  · exact hbias.bind fun _ => htiming

theorem does_configureRun (h : Valid cfg) : Does (.touches Written fun _ => True) (configureRun (registerTransaction env) cfg) := by
  refine Does.bind ?_ fun _ => Does.bind ?_ fun _ => (does_configurePdtsRegisterBlock written_setting).bind fun _ => ?_
  · unfold syncRun
    split
    · split
      · exact does_syncPdts written_setting _ _
      · exact does_throw _
    · exact does_pure _
  · unfold writeModuleId
    split
    · exact does_setting written_setting (by decide)
    · exact does_pure _
  · refine (does_setting written_setting (by decide)).bind fun _ => (does_forM fun counter hcounter => ?_).bind fun _ => does_setting written_setting (by decide)
    exact does_configureChannel h (List.mem_range.mp hcounter)

theorem does_stopRun : Does (.touches Written fun _ => True) (stopRun (registerTransaction env)) := by
  refine (does_forM fun i hi => ?_).bind fun _ => does_setting written_setting (by decide)
  have hlt := List.mem_range.mp hi
  refine (does_writeAndLog fun _ => written_of_address (written_bias hlt) ?_).bind fun _ =>
    does_writeAndLog fun _ => written_of_address (written_timing hlt) ?_
  · unfold biasRegister
    omega
  · unfold timingRegister
    omega

end Runs

/-! ### Runs that return -/

section Returns
variable (hcells : ∀ a, env.driven a = none)
include hcells

theorem returns_fit {address value : Int} {verify : Bool} (ha : 0 ≤ address ∧ address < 2 ^ 32) (hw : 0 ≤ value ∧ value < 2 ^ 32)
    (s : State Nat UInt32 Unit) : Returns env (writeAndLog (registerTransaction env) address value verify) (fun _ _ => True) s :=
  (returns_writeAndLog (packWord_eq_ok ha.1 ha.2) (packWord_eq_ok hw.1 hw.2) (hcells _)).mono fun _ _ _ => trivial

/-- A run that skips the synchronisation returns, unless the SSP does not answer. -/
theorem returns_configureRun (h : Valid cfg) (hsync : cfg.pdts_sync = false)
    (hmodule : ∀ id ∈ cfg.module_id, 0 ≤ id ∧ id < 2 ^ 32) (s : State Nat UInt32 Unit) :
    Returns env (configureRun (registerTransaction env) cfg) (fun _ _ => True) s := by
  refine Returns.bind (R := fun _ _ => True) ?_ fun _ _ _ => Returns.bind (R := fun _ _ => True) ?_ fun _ _ _ =>
    Returns.bind (R := fun _ _ => True) ?_ fun _ _ _ => Returns.bind (R := fun _ _ => True) ?_ fun _ _ _ =>
    Returns.bind (R := fun _ _ => True) ?_ fun _ _ _ => returns_fit hcells (by decide) (by decide) _
  · rw [syncRun, hsync]
    exact returns_pure _ trivial
  · unfold writeModuleId
    split
    next id hid => exact returns_fit hcells (by decide) (hmodule id hid) _
    next => exact returns_pure _ trivial
  · refine (returns_fit hcells (by decide) (by decide) _).bind fun _ t _ => Returns.bind (R := fun _ _ => True) ?_ fun _ _ _ =>
      (returns_fit hcells (by decide) (by decide) _).bind fun _ _ _ => returns_fit hcells (by decide) (by decide) _
    refine returns_forM (fun index hindex s => returns_fit hcells ?_ (by decide) s) t
    have := List.mem_range.mp hindex
    unfold PDTS_CMD_DELAY_0
    omega
  · refine returns_fit hcells (by decide) ?_ _
    obtain ⟨hpos, hle⟩ := h.burst_count
    split <;> omega
  · refine returns_forM (fun counter hcounter s => ?_) _
    exact (returns_configureChannel (fun _ _ => ⟨hcells _, hcells _⟩) h (List.mem_range.mp hcounter)).mono fun _ _ _ => trivial

theorem returns_stopRun (s : State Nat UInt32 Unit) : Returns env (stopRun (registerTransaction env)) (fun _ _ => True) s := by
  refine (returns_forM (fun k hk s => ?_) s).bind fun _ _ _ => returns_fit hcells (by decide) (by decide) _
  exact (returns_stopChannel (fun _ _ => ⟨hcells _, hcells _⟩) (List.mem_range.mp hk)).mono fun _ _ _ => trivial

end Returns

/-! ### What is left in the registers -/

section Final

/-- The order to apply the biases leaves the registers of the channels alone. -/
theorem ends_apply {value : Int} {verify : Bool} :
    Ends (writeAndLog (registerTransaction env) BIAS_CONTROL value verify)
      (fun t => ∀ i < 12, t.cells (biasRegister i) = s.cells (biasRegister i) ∧ t.cells (timingRegister i) = s.cells (timingRegister i)) s := by
  have hdoes : Does (.touches (· = BIAS_CONTROL.toNat) fun _ => True) (writeAndLog (registerTransaction env) BIAS_CONTROL value verify) := by
    refine does_writeAndLog fun a ha => ?_
    rw [← packWord_ok ha, Int.toNat_natCast]
  refine .of_does hdoes fun t ht i hi => ⟨ht.cells _ ?_, ht.cells _ ?_⟩
  · unfold biasRegister BIAS_CONTROL
    omega
  · unfold timingRegister BIAS_CONTROL
    omega

variable (hlatch : Latching env)
include hlatch

theorem ends_configureRun (h : Valid cfg) :
    Ends (configureRun (registerTransaction env) cfg) (fun t => Done cfg cfg.number_channels.toNat t.cells) s := by
  refine (Ends.always _ _).bind fun _ _ _ => (Ends.always _ _).bind fun _ _ _ => (Ends.always _ _).bind fun _ _ _ =>
    (Ends.always _ _).bind fun _ t _ => Ends.bind (R := fun u => Done cfg cfg.number_channels.toNat u.cells) ?_ fun _ u hu => ?_
  · refine .forM_range (fun k t => Done cfg k t.cells) ⟨?_, ?_, ?_⟩ fun k hk t ht => ?_
    · exact fun c hc => absurd hc (Nat.not_lt_zero c)
    · exact fun c hc => absurd hc (Nat.not_lt_zero c)
    · exact fun hc => absurd hc (Nat.not_lt_zero 7)
    refine .of_returns (returns_configureChannel hlatch h hk) fun _ u hu => ?_
    rw [hu]
    exact ht.step (h.first_add_lt hk)
  · refine ends_apply.mono fun t ht => ⟨fun c hc => ?_, fun c hc hnot => ?_, fun hk hin hout => ?_⟩
    · rw [(ht _ (h.first_add_lt hc)).2]
      exact hu.timing c hc
    · rw [(ht _ (h.first_add_lt hc)).1]
      exact hu.bias c hc hnot
    · rw [(ht _ (h.first_add_lt (by omega))).1]
      exact hu.beside hk hin hout

omit hlatch in
theorem Done.configured {cells : Nat → UInt32} (hdone : Done cfg cfg.number_channels.toNat cells) (h : Valid cfg) {counter : Nat}
    (hcounter : counter < cfg.number_channels.toNat) : Configured cfg cells counter where
  timing_on hmask := by
    rw [hdone.timing counter hcounter]
    exact h.decodeTiming_timingWord hmask
  timing_ne_zero_iff := by
    rw [hdone.timing counter hcounter]
    exact h.timingWord_ne_zero_iff counter
  bias_on hmask := by
    rw [hdone.bias counter hcounter (by rintro ⟨rfl, -, hout⟩; rw [hout] at hmask; cases hmask)]
    exact h.decodeBias_biasWord hmask
  bias_off hmask hnot := by
    rw [hdone.bias counter hcounter fun h => hnot ⟨h.1, h.2.1⟩, biasWord, if_neg hmask]
  bias_beside := by
    rintro rfl hout hin
    have hout' : cfg.inMask 6 = false := by simpa using hout
    -- with six channels addressed there are twelve
    have hn : 7 < cfg.number_channels.toNat := by
      rcases h.number_channels with hn | hn
      · rw [hn] at hcounter
        exact absurd hcounter (by decide)
      · rw [hn]
        decide
    rw [hdone.beside hn hin hout', hdone.bias 7 hn (by omega)]
    exact ⟨rfl, h.decodeBias_biasWord hin⟩

theorem ends_stopRun : Ends (stopRun (registerTransaction env)) (fun t => Dark t.cells) s := by
  refine Ends.bind (R := fun t => Dark t.cells) ?_ fun _ u hu => ?_
  · refine .forM_range (fun k t => ∀ i < k, t.cells (biasRegister i) = 0 ∧ t.cells (timingRegister i) = 0) ?_ fun k hk t ht => ?_
    · exact fun i hi => absurd hi (Nat.not_lt_zero i)
    refine .of_returns (returns_stopChannel hlatch hk) fun _ u hu i hi => ?_
    have hne : biasRegister i ≠ timingRegister k := biasRegister_ne (by omega)
    have hne' : timingRegister i ≠ biasRegister k := (biasRegister_ne (by omega)).symm
    rw [hu]
    simp only [Function.update_apply, hne, hne', if_false, biasRegister_inj, timingRegister_inj]
    by_cases hik : i = k
    · simp only [hik, if_true, and_self]
    · simp only [hik, if_false]
      exact ht i (by omega)
  · refine ends_apply.mono fun t ht i hi => ?_
    rw [(ht i hi).1, (ht i hi).2]
    exact hu i hi

/-- A run that returns has put into the registers of its channels what its configuration says. `stop_run` turns
    all channels off, whatever runs there were, also ones that raised half-way. -/
theorem configureRun_configured_stopRun_dark :
    (∀ (cfg : LEDRunConfig) (s t : State Nat UInt32 Unit), validateConfig cfg = .ok () →
      configureRun (registerTransaction env) cfg s = .ok () t → ∀ counter < cfg.number_channels.toNat, Configured cfg t.cells counter) ∧
    ∀ (runs : List LEDRunConfig) (s t : State Nat UInt32 Unit), stopAfter env runs s = .ok () t →
      Dark t.cells ∧ ((∀ cfg ∈ runs, validateConfig cfg = .ok ()) →
        ∃ ws, t.writes = s.writes ++ ws ∧ ∀ w ∈ ws, t.cells w.address = 0 ∨ w.address ∈ settings) := by
  refine ⟨fun cfg s t hvalidate hrun counter hcounter => ?_, fun runs s t hstop => ?_⟩
  · have hvalid := valid_of_validateConfig hvalidate
    exact ((ends_configureRun hlatch hvalid).ok hrun).configured hvalid hcounter
  · have hdark : Dark t.cells := ((Ends.always _ _).bind fun _ _ _ => ends_stopRun hlatch).ok hstop
    refine ⟨hdark, fun hruns => ?_⟩
    have hdoes : Does (.touches Written fun _ => True) (stopAfter env runs) := by
      refine (does_forM fun cfg hcfg => ?_).bind fun _ => does_stopRun
      exact (does_attempt (does_configureRun (valid_of_validateConfig (hruns cfg hcfg)))).bind fun _ => does_pure _
    obtain ⟨ws, hws, hwritten⟩ := (wp_ok (hdoes.run s) hstop).writes
    refine ⟨ws, hws, fun w hw => ?_⟩
    rcases (hwritten w hw).1 with ⟨i, hi, hbias | htiming⟩ | hsetting
    · exact Or.inl (by rw [hbias]; exact (hdark i hi).1)
    · exact Or.inl (by rw [htiming]; exact (hdark i hi).2)
    · exact Or.inr hsetting

end Final

/-- A run that returns, and the stop after it. -/
theorem stopAfter_of_ok {u : State Nat UInt32 Unit} (hrun : configureRun (registerTransaction env) cfg s = .ok () t)
    (hstop : stopRun (registerTransaction env) t = .ok () u) : stopAfter env [cfg] s = .ok () u := by
  have hattempt : (do let _ ← attempt (configureRun (registerTransaction env) cfg); pure ()) s = .ok () t := bind_ok (attempt_ok hrun)
  have hloop : ([cfg].forM fun cfg => do let _ ← attempt (configureRun (registerTransaction env) cfg); pure ()) s = .ok () t :=
    bind_ok hattempt
  rw [stopAfter, bind_ok hloop, hstop]

/-- An SSP that always answers, whose registers all hold what is written to them. -/
def ready : Env Nat UInt32 := ⟨fun _ => none, fun _ => none, fun _ => 0⟩

/-- Registers with no bit clear. -/
def bright : State Nat UInt32 Unit := ⟨fun _ => 0xFFFFFFFF, fun _ => 0, 0, [], ()⟩

theorem configureRun_lights_channel_zero : ∃ t u,
    configureRun (registerTransaction ready) {} bright = .ok () t ∧
    decodeTiming (t.cells (timingRegister 0)) = ⟨0xF, 0, 0, 5⟩ ∧ t.cells (timingRegister 1) = 0 ∧
    stopAfter ready [{}] bright = .ok () u ∧ Dark u.cells := by
  have hlatch : Latching ready := fun _ _ => ⟨rfl, rfl⟩
  have hready : ∀ a, ready.driven a = none := fun _ => rfl
  have hvalidate : validateConfig {} = .ok () := rfl
  have hvalid := valid_of_validateConfig hvalidate
  obtain ⟨⟨⟩, t, ht, -⟩ := (returns_configureRun hready hvalid rfl (by simp) bright).exists_ok fun _ => rfl
  obtain ⟨⟨⟩, u, hu, -⟩ := (returns_stopRun hready t).exists_ok fun _ => rfl
  have hstop := stopAfter_of_ok ht hu
  obtain ⟨hconfigured, hdark⟩ := configureRun_configured_stopRun_dark hlatch
  have hzero := hconfigured {} bright t hvalidate ht 0 (by decide)
  have hone := hconfigured {} bright t hvalidate ht 1 (by decide)
  refine ⟨t, u, ht, hzero.timing_on (by decide), ?_, hstop, (hdark _ _ _ hstop).1⟩
  by_contra hne
  exact absurd (hone.timing_ne_zero_iff.mp hne) (by decide)

end DaphneZmq.SspLedControl
