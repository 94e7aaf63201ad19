import DaphneZmq.MezzCalibration
import Mathlib.Algebra.Order.Floor.Semiring
import Mathlib.Data.Rat.Floor
import Mathlib.Tactic.Linarith
import Mathlib.Tactic.NormNum

/-! What a configuration leaves in the current monitors, in exact arithmetic. The calibration goes through a 16-bit word into a
field of 15 bits, the limit into a register of 16 bits, and the word that is read back is compared with the one that was sent. -/

namespace DaphneZmq
open Lib.Device

namespace MezzCalibration
open HdMezz (Reg Rail)
open MezzBus (INA232Function storeAt)

/-! ### Writes of a function -/

theorem shunt_cal_addr : INA232Function.SHUNT_CAL.bitField.registerAddr.toNat = 0x5 := rfl

theorem limit_addr : INA232Function.LIMIT.bitField.registerAddr.toNat = 0x7 := rfl

theorem len_addr : INA232Function.LEN.bitField.registerAddr.toNat = 0x6 := rfl

theorem pol_addr : INA232Function.POL.bitField.registerAddr.toNat = 0x6 := rfl

section
variable {K : Type} [OfScientific K] {env : Env Reg UInt16} {afeBlock : Nat} {rail : Rail} {s t : DriverState K} {mine : Reg → Prop}

theorem does_onDriver {α : Type} {m : HdMezz.MezzProg α} (h : Does (.apart mine fun _ => ()) m) :
    Does (.apart mine Members.toCalibration) (onDriver m : DriverProg K α) :=
  does_apart_zoom (fun _ => rfl) fun _ => h.coarsen fun _ _ ht => ⟨ht.cells, rfl, ht.writes⟩

theorem does_selectAfeBlock (hswitch : ¬mine .switch) :
    Does (.apart mine fun _ => ()) (HdMezz.selectAfeBlock env afeBlock) := by
  refine does_getDriver.bind fun d => ?_
  split
  · exact does_throw _
  split
  · exact does_throw _
  · exact does_apart_write hswitch _

theorem does_readINA232Register (hswitch : ¬mine .switch) (registerAddress : UInt8) :
    Does (.apart mine Members.toCalibration) (readINA232Register env afeBlock rail registerAddress : DriverProg K UInt16) :=
  (does_onDriver (does_selectAfeBlock hswitch)).bind fun _ => does_apart_read _

/-- A function of another register is written. -/
theorem does_writeINA232Function (hswitch : ¬mine .switch) {f : INA232Function} {addr : Nat}
    (haddr : f.bitField.registerAddr.toNat = addr) (hreg : ¬mine (.ina232 afeBlock rail addr)) (value : UInt16) :
    Does (.apart mine Members.toCalibration) (writeINA232Function env afeBlock rail f value : DriverProg K Unit) := by
  subst haddr
  refine (does_readINA232Register hswitch _).bind fun _ => ?_
  refine ((does_onDriver (does_selectAfeBlock hswitch)).bind fun _ => does_apart_write hreg _).bind fun _ => ?_
  refine (does_readINA232Register hswitch _).bind fun _ => ?_
  split
  · exact does_throw _
  · exact does_pure ()

theorem does_writeTCA9536Register (hswitch : ¬mine .switch) {registerAddress : Nat}
    (hreg : ¬mine (.tca9536 afeBlock registerAddress)) (value : UInt8) :
    Does (.apart mine fun _ => ()) (HdMezz.writeTCA9536Register env afeBlock registerAddress value) := by
  refine (does_selectAfeBlock hswitch).bind fun _ => (does_apart_write hreg _).bind fun _ => (does_apart_read _).bind fun _ => ?_
  split
  · exact does_throw _
  · exact does_pure ()

theorem wp_readINA232Register {registerAddress : UInt8} (hcell : env.driven (.ina232 afeBlock rail registerAddress.toNat) = none) :
    wp (readINA232Register env afeBlock rail registerAddress : DriverProg K UInt16)
      (fun w t => w = s.cells (.ina232 afeBlock rail registerAddress.toNat) ∧
        t.cells (.ina232 afeBlock rail registerAddress.toNat) = w) (fun _ _ => True) s := by
  have hselect : Does (.apart (· = .ina232 afeBlock rail registerAddress.toNat) Members.toCalibration)
      (onDriver (HdMezz.selectAfeBlock env afeBlock) : DriverProg K Unit) := does_onDriver (does_selectAfeBlock nofun)
  refine wp_bind.mpr (wp_mono (hselect.run s) (fun _ t ht => ?_) fun _ _ _ => trivial)
  rw [wp_read_cell hcell]
  split
  · trivial
  · exact ⟨ht.cells _ rfl, rfl⟩

/-- A write that returns has replaced the field. -/
theorem wp_writeINA232Function {f : INA232Function} {addr : Nat} (haddr : f.bitField.registerAddr.toNat = addr)
    (hcell : env.driven (.ina232 afeBlock rail addr) = none) (value : UInt16) :
    wp (writeINA232Function env afeBlock rail f value : DriverProg K Unit)
      (fun _ t => t.cells (.ina232 afeBlock rail addr) = f.bitField.replaced (s.cells (.ina232 afeBlock rail addr)) value)
      (fun _ _ => True) s := by
  subst haddr
  refine wp_bind.mpr (wp_mono (wp_readINA232Register hcell) (fun w t ht => ?_) fun _ _ h => h)
  obtain ⟨rfl, -⟩ := ht
  refine wp_bind.mpr (wp_mono (wp_true (s := t)) (fun _ u _ => ?_) fun _ _ h => h)
  refine wp_bind.mpr (wp_mono (wp_readINA232Register hcell) (fun w' v hv => ?_) fun _ _ h => h)
  split
  · trivial
  · rename_i hsame
    exact hv.2.trans (not_not.mp hsame)

/-- What a program maintains, whatever it throws, holds after it. -/
theorem maintains_after {α : Type} {P : DriverState K → Prop} {m : DriverProg K α} (h : Maintains (fun _ => False) P m) (hs : P s) :
    P (after m s) := by
  unfold after
  split <;> rename_i heq
  · exact wp_ok (h.run s hs) heq
  · exact wp_error (h.run s hs) heq not_false

end

/-! ### Configurations -/

section
variable {K : Type} [OfScientific K] [Mul K] [Div K] {conv : Conversions K} {env : Env Reg UInt16}
  {afeBlock : Nat} {rail : Rail} {s t : DriverState K} {mine : Reg → Prop}

/-- The INA232 of another rail is configured, or registers of the same one that are not written. -/
theorem does_configureINA232 (hswitch : ¬mine .switch) (hregs : ∀ addr, 0x5 ≤ addr → addr ≤ 0x7 → ¬mine (.ina232 afeBlock rail addr)) :
    Does (.apart mine Members.toCalibration) (configureINA232 conv env afeBlock rail : DriverProg K Unit) := by
  have hwrite (f : INA232Function) {addr : Nat} (haddr : f.bitField.registerAddr.toNat = addr) (hlow : 0x5 ≤ addr) (hhigh : addr ≤ 0x7)
      (value : UInt16) : Does (.apart mine Members.toCalibration) (writeINA232Function env afeBlock rail f value : DriverProg K Unit) :=
    does_writeINA232Function hswitch haddr (hregs addr hlow hhigh) value
  refine does_getDriver.bind fun _ => (hwrite .SHUNT_CAL shunt_cal_addr (by decide) (by decide) _).bind fun _ => ?_
  refine does_getDriver.bind fun _ => (hwrite .LIMIT limit_addr (by decide) (by decide) _).bind fun _ => ?_
  exact (hwrite .LEN len_addr (by decide) (by decide) _).bind fun _ => hwrite .POL pol_addr (by decide) (by decide) _

/-- The hardware step does not touch what the driver keeps of the configuration. -/
theorem does_configureHdMezzAfeBlock :
    Does (.apart (fun _ => False) Members.toCalibration) (configureHdMezzAfeBlock conv env afeBlock : DriverProg K Unit) :=
  (does_configureINA232 not_false fun _ _ _ => not_false).bind fun _ =>
    (does_configureINA232 not_false fun _ _ _ => not_false).bind fun _ =>
      does_onDriver (does_writeTCA9536Register not_false not_false _)

/-- What the driver sends to an INA232 for its calibration and its limit is in the registers. -/
structure Sent (conv : Conversions K) (afeBlock : Nat) (rail : Rail) (s t : DriverState K) : Prop where
  shunt_cal : t.cells (.ina232 afeBlock rail 0x5) =
    INA232Function.SHUNT_CAL.bitField.replaced (s.cells (.ina232 afeBlock rail 0x5)) (s.driver.shunt_cal rail afeBlock)
  limit : t.cells (.ina232 afeBlock rail 0x7) = INA232Function.LIMIT.bitField.replaced (s.cells (.ina232 afeBlock rail 0x7))
    (conv.toUInt16 (s.driver.max_power rail afeBlock / (32.0 * s.driver.current_lsb rail afeBlock)))

/-- The two registers of a rail. -/
def words (afeBlock : Nat) (rail : Rail) (reg : Reg) : Prop := reg = .ina232 afeBlock rail 0x5 ∨ reg = .ina232 afeBlock rail 0x7

theorem not_words_switch : ¬words afeBlock rail .switch := by rintro (h | h) <;> cases h

theorem Sent.apart {u : DriverState K} (h : Sent conv afeBlock rail s t) (hu : Apart (words afeBlock rail) Members.toCalibration t u) :
    Sent conv afeBlock rail s u :=
  ⟨(hu.cells _ (Or.inl rfl)).trans h.shunt_cal, (hu.cells _ (Or.inr rfl)).trans h.limit⟩

theorem Sent.of_apart {u : DriverState K} (h : Apart (words afeBlock rail) Members.toCalibration s t)
    (hu : Sent conv afeBlock rail t u) : Sent conv afeBlock rail s u := by
  have hdriver : t.driver.toCalibration = s.driver.toCalibration := h.view_eq
  obtain ⟨hshunt_cal, hlimit⟩ := hu
  rw [h.cells _ (Or.inl rfl), hdriver] at hshunt_cal
  rw [h.cells _ (Or.inr rfl), hdriver] at hlimit
  exact ⟨hshunt_cal, hlimit⟩

section
variable (hshunt_cal : env.driven (.ina232 afeBlock rail 0x5) = none) (hlimit : env.driven (.ina232 afeBlock rail 0x7) = none)
include hshunt_cal hlimit

theorem wp_configureINA232 : wp (configureINA232 conv env afeBlock rail) (fun _ t => Sent conv afeBlock rail s t) (fun _ _ => True) s := by
  refine wp_bind.mpr (wp_getDriver.mpr ?_)
  have hfirst : Does (.apart (· = .ina232 afeBlock rail 0x7) Members.toCalibration)
      (writeINA232Function env afeBlock rail .SHUNT_CAL (s.driver.shunt_cal rail afeBlock) : DriverProg K Unit) :=
    does_writeINA232Function nofun shunt_cal_addr (by simp) _
  refine wp_bind.mpr (wp_mono (wp_and (wp_writeINA232Function shunt_cal_addr hshunt_cal _) (hfirst.run s))
    (fun _ t ⟨hcal, ht⟩ => ?_) fun _ _ _ => trivial)
  have hdriver : t.driver.toCalibration = s.driver.toCalibration := ht.view_eq
  have hkept : t.cells (.ina232 afeBlock rail 0x7) = s.cells (.ina232 afeBlock rail 0x7) := ht.cells _ rfl
  -- The word for the limit is computed from members that the write before has left.
  refine wp_bind.mpr (wp_getDriver.mpr ?_)
  have hsecond : Does (.apart (· = .ina232 afeBlock rail 0x5) Members.toCalibration) (writeINA232Function env afeBlock rail .LIMIT
      (conv.toUInt16 (t.driver.max_power rail afeBlock / (32.0 * t.driver.current_lsb rail afeBlock))) : DriverProg K Unit) :=
    does_writeINA232Function nofun limit_addr (by simp) _
  refine wp_bind.mpr (wp_mono (wp_and (wp_writeINA232Function limit_addr hlimit _) (hsecond.run t))
    (fun _ u ⟨hlim, hu⟩ => ?_) fun _ _ _ => trivial)
  have hsent : Sent conv afeBlock rail s u := by
    refine ⟨(hu.cells _ rfl).trans hcal, ?_⟩
    rw [hdriver, hkept] at hlim
    exact hlim
  have hflag (f : INA232Function) (hf : f.bitField.registerAddr.toNat = 0x6) (value : UInt16) :
      Does (.apart (words afeBlock rail) Members.toCalibration) (writeINA232Function env afeBlock rail f value : DriverProg K Unit) :=
    does_writeINA232Function not_words_switch hf (by simp [words]) value
  exact wp_mono (((hflag .LEN len_addr _).bind fun _ => hflag .POL pol_addr _).run u) (fun _ v hv => hsent.apart hv) fun _ _ _ => trivial

/-- A hardware step that returns has sent the words of both rails. -/
theorem wp_configureHdMezzAfeBlock :
    wp (configureHdMezzAfeBlock conv env afeBlock) (fun _ t => Sent conv afeBlock rail s t) (fun _ _ => True) s := by
  have hother (rail' : Rail) (hne : rail' ≠ rail) : Does (.apart (words afeBlock rail) Members.toCalibration)
      (configureINA232 conv env afeBlock rail' : DriverProg K Unit) := by
    refine does_configureINA232 not_words_switch fun addr _ _ => ?_
    rintro (h | h) <;> cases h <;> exact hne rfl
  have hpins : Does (.apart (words afeBlock rail) Members.toCalibration)
      (onDriver (HdMezz.writeTCA9536Register env afeBlock 0x3 0xF0) : DriverProg K Unit) := by
    refine does_onDriver (does_writeTCA9536Register not_words_switch ?_ _)
    rintro (h | h) <;> cases h
  unfold configureHdMezzAfeBlock
  cases rail with
  | v5 =>
    refine wp_bind.mpr (wp_mono (wp_configureINA232 hshunt_cal hlimit) (fun _ t ht => ?_) fun _ _ _ => trivial)
    exact wp_mono (((hother .v3v3 (by decide)).bind fun _ => hpins).run t) (fun _ u hu => ht.apart hu) fun _ _ _ => trivial
  | v3v3 =>
    refine wp_bind.mpr (wp_mono ((hother .v5 (by decide)).run s) (fun _ t ht => ?_) fun _ _ _ => trivial)
    refine wp_bind.mpr (wp_mono (wp_configureINA232 hshunt_cal hlimit) (fun _ u hu => ?_) fun _ _ _ => trivial)
    exact wp_mono (hpins.run u) (fun _ v hv => (Sent.of_apart ht hu).apart hv) fun _ _ _ => trivial

end

variable [LE K] [DecidableLE K]

/-- The state after a setter that accepts its value. -/
def stored (conv : Conversions K) (setting : Setting) (afeBlock : Nat) (value : K) (rail : Rail) (s : DriverState K) : DriverState K :=
  { s with driver := { s.driver with
    toCalibration := (s.driver.toCalibration.set setting rail afeBlock value).derived conv } }

/-- A setter throws and leaves the state, or it accepts its value. -/
theorem setValue_cases (conv : Conversions K) (setting : Setting) (afeBlock : Nat) (value : K) (rail : Rail) (s : DriverState K) :
    (afeBlock > 4 ∨ value ≤ 0.0) ∧ (∃ e, setValue conv setting afeBlock value rail s = .error e s) ∨
      ¬(afeBlock > 4 ∨ value ≤ 0.0) ∧ setValue conv setting afeBlock value rail s = .ok () (stored conv setting afeBlock value rail s) := by
  unfold setValue
  by_cases hblock : afeBlock > 4
  · rw [if_pos hblock]
    exact Or.inl ⟨Or.inl hblock, _, rfl⟩
  by_cases hvalue : value ≤ 0.0
  · rw [if_neg hblock, if_pos hvalue]
    exact Or.inl ⟨Or.inr hvalue, _, rfl⟩
  · rw [if_neg hblock, if_neg hvalue]
    exact Or.inr ⟨fun h => h.elim hblock hvalue, rfl⟩

/-- The setters keep a property of what is derived from accepted values. -/
theorem maintains_setValue {P : Calibration K → Prop}
    (hset : ∀ c setting rail afeBlock value, P c → ¬value ≤ 0.0 → P ((c.set setting rail afeBlock value).derived conv))
    (setting : Setting) (afeBlock : Nat) (value : K) (rail : Rail) :
    Maintains (fun _ => False) (fun s => P s.driver.toCalibration) (setValue conv setting afeBlock value rail) := by
  refine ⟨fun s hs => ?_⟩
  unfold wp
  rcases setValue_cases conv setting afeBlock value rail s with ⟨-, e, he⟩ | ⟨haccepts, hok⟩
  · rw [he]
    exact fun _ => hs
  · rw [hok]
    exact hset _ _ _ _ _ hs fun h => haccepts (Or.inr h)

theorem configureHDMezzBlock_state (request : BlockConfiguration K) (s : DriverState K) :
    (configureHDMezzBlock conv env request s).2 = after (tryConfigure conv env request) s := by
  unfold configureHDMezzBlock after
  split <;> rename_i heq <;> rw [heq]

theorem Reached.invariant {P : Calibration K → Prop} (h : Reached conv env s) (hstart : P (Calibration.derived conv {}))
    (hset : ∀ c setting rail afeBlock value, P c → ¬value ≤ 0.0 → P ((c.set setting rail afeBlock value).derived conv)) :
    P s.driver.toCalibration := by
  have hvalue (setting : Setting) (afeBlock : Nat) (value : K) (rail : Rail) :
      Maintains (fun _ => False) (fun s => P s.driver.toCalibration) (setValue conv setting afeBlock value rail) :=
    maintains_setValue hset setting afeBlock value rail
  induction h with
  | start cells reads accesses => exact hstart
  | @set s setting afeBlock value rail _ ih =>
    exact maintains_after (hvalue setting afeBlock value rail) ih
  | @configure s request _ ih =>
    have hkeeps : Maintains (fun _ => False) (fun s => P s.driver.toCalibration) (tryConfigure conv env request) := by
      unfold tryConfigure
      split
      · exact maintains_throw _
      · refine (hvalue _ _ _ _).bind fun _ => (hvalue _ _ _ _).bind fun _ => (hvalue _ _ _ _).bind fun _ => ?_
        refine (hvalue _ _ _ _).bind fun _ => (hvalue _ _ _ _).bind fun _ => (hvalue _ _ _ _).bind fun _ => ?_
        refine .of_does does_configureHdMezzAfeBlock fun s t ht hs => ?_
        rwa [show t.driver.toCalibration = s.driver.toCalibration from ht.view_eq]
    rw [configureHDMezzBlock_state]
    exact maintains_after hkeeps ih
  | other _ heq ih => rwa [heq]

theorem Reached.derived (h : Reached conv env s) : s.driver.toCalibration.derived conv = s.driver.toCalibration :=
  h.invariant (P := fun c => c.derived conv = c) rfl fun _ _ _ _ _ _ _ => rfl

omit [Mul K] [Div K] [LE K] [DecidableLE K] in
theorem Calibration.get_set (c : Calibration K) (setting setting' : Setting) (rail rail' : Rail) (afeBlock block : Nat) (value : K) :
    (c.set setting rail afeBlock value).get setting' rail' block =
      if setting' = setting ∧ rail' = rail ∧ block = afeBlock then value else c.get setting' rail' block := by
  cases setting <;> cases setting' <;> simp [Calibration.set, Calibration.get, storeAt]

end

/-! ### Exact arithmetic -/

/-- The rationals. What the conversion gives is open for a number that no 16-bit word has. -/
structure Exact extends Conversions ℚ where
  toUInt16_eq : ∀ q, 0 ≤ q → q < 65536 → toUInt16 q = UInt16.ofNat ⌊q⌋₊

/-- The calibration and the limit of a current monitor hold what is written to them. -/
structure Bus extends Env Reg UInt16 where
  shunt_cal_cell : ∀ afeBlock rail, driven (.ina232 afeBlock rail 0x5) = none
  limit_cell : ∀ afeBlock rail, driven (.ina232 afeBlock rail 0x7) = none

section
variable (c : Calibration ℚ) (afeBlock : Nat) (rail : Rail)

/-- The calibration that the values of a rail ask for. -/
def calibrationOf : ℚ := 0.00512 / (c.max_current_scale rail afeBlock / 2 ^ 15 * c.r_shunt rail afeBlock)

/-- The limit that they ask for, in the units of the register. -/
def limitOf : ℚ := c.max_current_shutdown rail afeBlock * voltage rail / (32 * (c.max_current_scale rail afeBlock / 2 ^ 15))

/-- The field SHUNT_CAL and the register LIMIT of a rail have them, rounded down. -/
structure Programmed (cells : Reg → UInt16) : Prop where
  shunt_cal : (cells (.ina232 afeBlock rail 0x5) &&& 0x7FFF).toNat = ⌊calibrationOf c afeBlock rail⌋₊
  limit : (cells (.ina232 afeBlock rail 0x7)).toNat = ⌊limitOf c afeBlock rail⌋₊

/-- The full-scale current gives more than 5.12 mV on the shunt, and the power limit is below 64 times that current. -/
structure Fits : Prop where
  shunt_cal : 0.00512 < c.max_current_scale rail afeBlock * c.r_shunt rail afeBlock
  limit : c.max_current_shutdown rail afeBlock * voltage rail < 64 * c.max_current_scale rail afeBlock

end

/-- The values that are kept are positive, and what is derived from them has been. -/
structure Sound (conv : Conversions ℚ) (c : Calibration ℚ) : Prop where
  derived : c.derived conv = c
  pos : ∀ setting rail afeBlock, 0 < c.get setting rail afeBlock

section
variable {exact : Exact} {bus : Bus} {c : Calibration ℚ} {afeBlock : Nat} {rail : Rail} {s t : DriverState ℚ}

theorem sound_of_reached (h : Reached exact.toConversions bus.toEnv s) : Sound exact.toConversions s.driver.toCalibration := by
  refine ⟨h.derived, h.invariant (P := fun c => ∀ setting rail afeBlock, 0 < c.get setting rail afeBlock) ?_ ?_⟩
  · intro setting rail afeBlock
    cases setting <;> cases rail <;> simp only [Calibration.derived, Calibration.get] <;> norm_num
  · intro c setting rail afeBlock value hpos hvalue setting' rail' block
    have hget : ((c.set setting rail afeBlock value).derived exact.toConversions).get setting' rail' block =
        (c.set setting rail afeBlock value).get setting' rail' block := by cases setting' <;> rfl
    rw [hget, Calibration.get_set]
    split
    · norm_num at hvalue
      exact hvalue
    · exact hpos setting' rail' block

theorem voltage_pos (rail : Rail) : (0 : ℚ) < voltage rail := by
  cases rail <;> norm_num [voltage]

namespace Sound
variable (hc : Sound exact.toConversions c)
include hc

theorem shunt_cal_eq : c.shunt_cal rail afeBlock = exact.toUInt16 (calibrationOf c afeBlock rail) := by
  rw [← hc.derived]
  norm_num [Calibration.derived, calibrationOf]

theorem limit_eq : c.max_power rail afeBlock / (32.0 * c.current_lsb rail afeBlock) = limitOf c afeBlock rail := by
  rw [← hc.derived]
  norm_num [Calibration.derived, limitOf]

theorem calibrationOf_lt_iff : calibrationOf c afeBlock rail < 2 ^ 15 ↔
    0.00512 < c.max_current_scale rail afeBlock * c.r_shunt rail afeBlock := by
  have hscale : 0 < c.max_current_scale rail afeBlock := hc.pos .maxCurrentScale rail afeBlock
  have hshunt : 0 < c.r_shunt rail afeBlock := hc.pos .rShunt rail afeBlock
  have hprod : 0 < c.max_current_scale rail afeBlock / 2 ^ 15 * c.r_shunt rail afeBlock := by positivity
  rw [calibrationOf, div_lt_iff₀ hprod]
  constructor <;> intro h <;> linarith

theorem limitOf_lt_iff : limitOf c afeBlock rail < 2 ^ 16 ↔
    c.max_current_shutdown rail afeBlock * voltage rail < 64 * c.max_current_scale rail afeBlock := by
  have hscale : 0 < c.max_current_scale rail afeBlock := hc.pos .maxCurrentScale rail afeBlock
  have hlsb : 0 < 32 * (c.max_current_scale rail afeBlock / 2 ^ 15) := by positivity
  rw [limitOf, div_lt_iff₀ hlsb]
  constructor <;> intro h <;> linarith

theorem calibrationOf_nonneg : 0 ≤ calibrationOf c afeBlock rail := by
  have hscale : 0 < c.max_current_scale rail afeBlock := hc.pos .maxCurrentScale rail afeBlock
  have hshunt : 0 < c.r_shunt rail afeBlock := hc.pos .rShunt rail afeBlock
  unfold calibrationOf
  positivity

theorem limitOf_nonneg : 0 ≤ limitOf c afeBlock rail := by
  have hscale : 0 < c.max_current_scale rail afeBlock := hc.pos .maxCurrentScale rail afeBlock
  have hshutdown : 0 < c.max_current_shutdown rail afeBlock := hc.pos .maxCurrentShutdown rail afeBlock
  have hvoltage := voltage_pos rail
  unfold limitOf
  positivity

end Sound
/-- The low bits of a converted number are the number, rounded down, if it has no more bits than these. -/
theorem Exact.toNat_mod_iff (exact : Exact) {q : ℚ} (hq : 0 ≤ q) {n : Nat} (hn : n ≤ 16) :
    (exact.toUInt16 q).toNat % 2 ^ n = ⌊q⌋₊ ↔ q < 2 ^ n := by
  have hfloor : ⌊q⌋₊ < 2 ^ n ↔ q < 2 ^ n := by
    rw [Nat.floor_lt hq]
    norm_cast
  constructor
  · intro heq
    exact hfloor.mp (heq ▸ Nat.mod_lt _ (Nat.two_pow_pos n))
  · intro hlt
    have hpow : (2 : ℚ) ^ n ≤ 65536 := by
      rw [show (65536 : ℚ) = 2 ^ 16 by norm_num]
      exact pow_le_pow_right₀ (by norm_num) hn
    have hbound : 2 ^ n ≤ 2 ^ 16 := Nat.pow_le_pow_right (by decide) hn
    have hsmall := hfloor.mpr hlt
    rw [exact.toUInt16_eq q hq (hlt.trans_le hpow), UInt16.toNat_ofNat', Nat.mod_eq_of_lt (hsmall.trans_le hbound),
      Nat.mod_eq_of_lt hsmall]

theorem replaced_and_mask (field : MezzBus.BitField) (register_value value : UInt16) :
    field.replaced register_value value &&& field.mask = (value <<< UInt16.ofNat field.lsb_pos) &&& field.mask := by
  unfold MezzBus.BitField.replaced
  rw [← UInt16.toBitVec_inj]
  ext i hi
  simp only [UInt16.toBitVec_and, UInt16.toBitVec_or, UInt16.toBitVec_not, BitVec.getElem_and, BitVec.getElem_or, BitVec.getElem_not]
  grind

theorem toNat_and_mask (word : UInt16) : (word &&& 0x7FFF).toNat = word.toNat % 2 ^ 15 := by
  rw [UInt16.toNat_and]
  exact Nat.and_two_pow_sub_one_eq_mod _ 15

theorem shunt_cal_field (register_value value : UInt16) :
    (INA232Function.SHUNT_CAL.bitField.replaced register_value value &&& 0x7FFF).toNat = value.toNat % 2 ^ 15 := by
  have hfield := replaced_and_mask INA232Function.SHUNT_CAL.bitField register_value value
  rw [show INA232Function.SHUNT_CAL.bitField.mask = 0x7FFF by decide, show UInt16.ofNat INA232Function.SHUNT_CAL.bitField.lsb_pos = 0 by
    decide, UInt16.shiftLeft_zero] at hfield
  rw [hfield, toNat_and_mask]

theorem limit_register (register_value value : UInt16) :
    (INA232Function.LIMIT.bitField.replaced register_value value).toNat = value.toNat % 2 ^ 16 := by
  have hfield := replaced_and_mask INA232Function.LIMIT.bitField register_value value
  have hall (w : UInt16) : w &&& 0xFFFF = w := by
    rw [← UInt16.toNat_inj, UInt16.toNat_and, show (0xFFFF : UInt16).toNat = 2 ^ 16 - 1 from rfl, Nat.and_two_pow_sub_one_eq_mod,
      Nat.mod_eq_of_lt w.toNat_lt]
  rw [show INA232Function.LIMIT.bitField.mask = 0xFFFF by decide, show UInt16.ofNat INA232Function.LIMIT.bitField.lsb_pos = 0 by
    decide, UInt16.shiftLeft_zero, hall, hall] at hfield
  rw [hfield, Nat.mod_eq_of_lt value.toNat_lt]

/-- Words that were sent are the ones that the values ask for if and only if these fit. -/
theorem Sent.programmed_iff (h : Sent exact.toConversions afeBlock rail s t) (hs : Sound exact.toConversions s.driver.toCalibration) :
    Programmed s.driver.toCalibration afeBlock rail t.cells ↔ Fits s.driver.toCalibration afeBlock rail := by
  have hcal : _ ↔ calibrationOf s.driver.toCalibration afeBlock rail < 2 ^ 15 :=
    exact.toNat_mod_iff hs.calibrationOf_nonneg (by decide)
  have hlim : _ ↔ limitOf s.driver.toCalibration afeBlock rail < 2 ^ 16 := exact.toNat_mod_iff hs.limitOf_nonneg (by decide)
  rw [hs.calibrationOf_lt_iff, ← hs.shunt_cal_eq, ← shunt_cal_field, ← h.shunt_cal] at hcal
  have hword : (t.cells (.ina232 afeBlock rail 0x7)).toNat = (exact.toUInt16 (limitOf s.driver.toCalibration afeBlock rail)).toNat % 2 ^ 16 := by
    rw [h.limit, limit_register, hs.limit_eq]
  rw [hs.limitOf_lt_iff, ← hword] at hlim
  exact ⟨fun hp => ⟨hcal.mp hp.shunt_cal, hlim.mp hp.limit⟩, fun hf => ⟨hcal.mpr hf.shunt_cal, hlim.mpr hf.limit⟩⟩

/-- From any values that the setters have accepted, a configuration that does not report an error programs both rails if their
values fit, and otherwise it does not. -/
theorem configureHdMezzAfeBlock_iff (exact : Exact) (bus : Bus) {s t : DriverState ℚ} {afeBlock : Nat}
    (hs : Reached exact.toConversions bus.toEnv s) (hreturns : configureHdMezzAfeBlock exact.toConversions bus.toEnv afeBlock s = .ok () t)
    (rail : Rail) : Programmed s.driver.toCalibration afeBlock rail t.cells ↔ Fits s.driver.toCalibration afeBlock rail := by
  have hsent : wp (configureHdMezzAfeBlock exact.toConversions bus.toEnv afeBlock)
      (fun _ t => Sent exact.toConversions afeBlock rail s t) (fun _ _ => True) s :=
    wp_configureHdMezzAfeBlock (bus.shunt_cal_cell afeBlock rail) (bus.limit_cell afeBlock rail)
  exact (wp_ok hsent hreturns).programmed_iff (sound_of_reached hs)

/-! A conversion that cuts a number to its low bits, and chips that hold what is written to them. -/

def truncating : Exact where
  toUInt16 q := UInt16.ofNat ⌊q⌋₊
  to_string q := toString q
  toUInt16_eq _ _ _ := rfl

def quietBus : Bus where
  faults _ := none
  driven _ := none
  polls _ := 0
  shunt_cal_cell _ _ := rfl
  limit_cell _ _ := rfl

/-- The server with block 0 enabled. -/
def enabled : DriverState ℚ where
  cells _ := 0
  reads _ := 0
  accesses := 0
  writes := []
  driver := { constructed truncating.toConversions with enabled_afeBlocks := fun i => i = 0 }

theorem reached_enabled : Reached truncating.toConversions quietBus.toEnv enabled :=
  .other (.start (fun _ => 0) (fun _ => 0) 0) rfl

/-- A full-scale current of 100 mA for the 5V rail, with the shunt of 36 mΩ. -/
def halfScale : DriverState ℚ := after (setMaxCurrentScale truncating.toConversions 0 0.1 .v5) enabled

/-- The hardware step on block 0 returns with the word `shunt_cal` in SHUNT_CAL of the 5V rail. -/
def leaves (shunt_cal : UInt16) (s : DriverState ℚ) : Bool :=
  match configureHdMezzAfeBlock truncating.toConversions quietBus.toEnv 0 s with
  | .ok _ t => t.cells (.ina232 0 .v5 0x5) == shunt_cal
  | .error .. => false

theorem exists_of_leaves (shunt_cal : UInt16) (s : DriverState ℚ) (h : leaves shunt_cal s = true) : ∃ t,
    configureHdMezzAfeBlock truncating.toConversions quietBus.toEnv 0 s = .ok () t ∧ t.cells (.ina232 0 .v5 0x5) = shunt_cal := by
  unfold leaves at h
  split at h
  · rename_i t hrun
    exact ⟨t, hrun, beq_iff_eq.mp h⟩
  · cases h

/-- The defaults fit. -/
theorem configureHdMezzAfeBlock_iff_default : ∃ t,
    configureHdMezzAfeBlock truncating.toConversions quietBus.toEnv 0 enabled = .ok () t ∧
      ∀ rail, Programmed enabled.driver.toCalibration 0 rail t.cells := by
  obtain ⟨t, hrun, -⟩ := exists_of_leaves 23301 enabled (by decide +kernel)
  refine ⟨t, hrun, fun rail => (configureHdMezzAfeBlock_iff truncating quietBus reached_enabled hrun rail).mpr ?_⟩
  cases rail
  · constructor <;> norm_num [enabled, constructed, Calibration.derived, voltage]
  · constructor <;> norm_num [enabled, constructed, Calibration.derived, voltage]

/-- The calibration 46603 is cut to 13835, and the word that is read back is the one that was sent. -/
theorem halfScale_not_programmed : Reached truncating.toConversions quietBus.toEnv halfScale ∧ ∃ t,
    configureHdMezzAfeBlock truncating.toConversions quietBus.toEnv 0 halfScale = .ok () t ∧
      t.cells (.ina232 0 .v5 0x5) = 13835 ∧ ⌊calibrationOf halfScale.driver.toCalibration 0 .v5⌋₊ = 46603 ∧
      ¬Programmed halfScale.driver.toCalibration 0 .v5 t.cells := by
  obtain ⟨t, hrun, hword⟩ := exists_of_leaves 13835 halfScale (by decide +kernel)
  have hasked : ⌊calibrationOf halfScale.driver.toCalibration 0 .v5⌋₊ = 46603 := by decide +kernel
  refine ⟨.set .maxCurrentScale 0 0.1 .v5 reached_enabled, t, hrun, hword, hasked, fun h => ?_⟩
  have hfield := h.shunt_cal
  rw [hword, hasked] at hfield
  exact absurd hfield (by decide)

end

end MezzCalibration
end DaphneZmq
