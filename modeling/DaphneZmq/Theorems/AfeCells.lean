import DaphneZmq.AfeCells
import DaphneZmq.Theorems.AfeRegisters

/-! What `setAFEFunction` does to a register, bit by bit, and that it does the same over SPI. -/

namespace DaphneZmq
open Lib Lib.Device
namespace AfeCells
open Afe

/-! ### Fields -/

/-- A field of a 16-bit register. -/
structure Field where
  msb : Nat
  lsb : Nat
  ordered : lsb ≤ msb
  bounded : msb < 16

def Field.bits (f : Field) : BitField where
  addr := 0
  low := f.lsb
  high := f.msb
  ordered := Nat.ble_eq_true_of_le f.ordered
  bounded := Nat.ble_eq_true_of_le (show f.msb + 1 ≤ 32 by have := f.bounded; omega)

section
variable (f : Field) (undefinedMask word : UInt32) (value : UInt16)

theorem Field.mask_eq : fieldMask undefinedMask f.msb f.lsb = f.bits.mask <<< UInt32.ofNat f.lsb := by
  have := f.ordered
  have := f.bounded
  have hwidth : f.bits.width ≠ 32 := by
    show f.msb - f.lsb + 1 ≠ 32
    omega
  rw [fieldMask, if_neg (by omega), BitField.mask, if_neg hwidth]
  rfl

theorem Field.withField_eq : withField (fieldMask undefinedMask f.msb f.lsb) f.lsb word value =
    f.bits.insert word value.toUInt32 := by
  rw [withField, f.mask_eq, BitField.insert, UInt32.shiftLeft_and]
  rfl

theorem Field.readBack_eq : (word &&& fieldMask undefinedMask f.msb f.lsb) >>> UInt32.ofNat f.lsb = f.bits.extract word := by
  have hlow := f.bits.toNat_low
  have hhigh := f.bits.high_lt
  refine BitField.eq_of_testBit fun i hi => ?_
  rw [f.mask_eq, show UInt32.ofNat f.lsb = UInt32.ofNat f.bits.low from rfl, UInt32.toNat_shiftRight, hlow,
    Nat.testBit_shiftRight, UInt32.toNat_and, Nat.testBit_and, BitField.testBit_shifted, BitField.testBit_extract,
    BitField.toNat_mask, Nat.testBit_two_pow_sub_one, Nat.add_sub_cancel_left, decide_eq_true (Nat.le_add_right _ _),
    Bool.true_and]
  by_cases hw : i < f.bits.width
  · have hlt : f.bits.low + i < 32 := by
      unfold BitField.width at hw
      omega
    rw [decide_eq_true hlt, Bool.true_and]
  · rw [decide_eq_false hw, Bool.and_false]

/-- A register keeps 16 bits of a word, and every field is in these. -/
theorem Field.extract_toUInt16 : f.bits.extract word.toUInt16.toUInt32 = f.bits.extract word := by
  have hlow := f.bits.low_le
  have hhigh : f.bits.high < 16 := f.bounded
  refine BitField.eq_of_testBit fun i hi => ?_
  rw [BitField.testBit_extract, BitField.testBit_extract, UInt16.toNat_toUInt32, UInt32.toNat_toUInt16,
    Nat.testBit_mod_two_pow]
  by_cases hw : i < f.bits.width
  · have hlt : f.bits.low + i < 16 := by
      unfold BitField.width at hw
      omega
    rw [decide_eq_true hlt, Bool.true_and]
  · rw [decide_eq_false hw, Bool.and_false, Bool.and_false]

end

/-- A content whose field has been replaced: the bits of the field are those of the value, the others are as before. -/
def Replaced (msb lsb : Nat) (value content content' : UInt16) : Prop :=
  ∀ i < 16, content'.toNat.testBit i =
    if lsb ≤ i ∧ i ≤ msb then value.toNat.testBit (i - lsb) else content.toNat.testBit i

theorem Field.replaced_insert (f : Field) (content value : UInt16) :
    Replaced f.msb f.lsb value content (f.bits.insert content.toUInt32 value.toUInt32).toUInt16 := by
  intro i hi
  rw [UInt32.toNat_toUInt16, Nat.testBit_mod_two_pow, decide_eq_true hi, Bool.true_and, BitField.testBit_insert (by omega),
    UInt16.toNat_toUInt32, UInt16.toNat_toUInt32]
  have hbound : f.bits.low + f.bits.width = f.msb + 1 := by
    have := f.ordered
    show f.lsb + (f.msb - f.lsb + 1) = f.msb + 1
    omega
  exact if_congr (and_congr Iff.rfl (by omega)) rfl rfl

/-! ### Functions over plain cells -/

theorem get_eq {afe : Nat} {register : UInt32} (h : register ∈ registerList) (cells : Cells) :
    Cells.getRegister afe register cells = .ok (cells afe register).toUInt32 cells := by
  rw [Cells.getRegister, if_neg (not_not_intro h)]
  rfl

theorem set_eq {afe : Nat} {register : UInt32} (h : register ∈ registerList) (value : UInt32) (cells : Cells) :
    Cells.setRegister afe register value cells = .ok value.toUInt16.toUInt32
      (Function.update cells afe (Function.update (cells afe) register value.toUInt16)) := by
  rw [Cells.setRegister, if_neg (not_not_intro h)]
  refine (bind_ok (s := cells) (t := Function.update cells afe (Function.update (cells afe) register value.toUInt16)) rfl).trans ?_
  rw [get_eq h, Function.update_self, Function.update_self]

/-- The read-modify-write of a field over cells. -/
theorem setFieldOver_eq (f : Field) (undefinedMask : UInt32) {afe : Nat} {register : UInt32} (h : register ∈ registerList)
    (value : UInt16) (cells : Cells) :
    setFieldOver (Cells.getRegister afe) (Cells.setRegister afe) undefinedMask register f.msb f.lsb value cells =
      .ok (value.toUInt32 &&& f.bits.mask) (Function.update cells afe (Function.update (cells afe) register
        (f.bits.insert (cells afe register).toUInt32 value.toUInt32).toUInt16)) := by
  rw [setFieldOver, bind_ok (get_eq h cells), bind_ok (set_eq h _ cells), bind_ok (get_eq h _), Function.update_self,
    Function.update_self, f.withField_eq, f.readBack_eq, f.extract_toUInt16, BitField.extract_insert]
  rfl

/-! ### The tables -/

/-- Every entry but one names a listed register and a field of it, and every option is a value of the field. -/
theorem entry_fits : ∀ entry ∈ afeFunctionDict, entry.1 ≠ "LVDS_OUTPUT_RATE_2X" →
    entry.2.1 ∈ registerList ∧ entry.2.2.2 ≤ entry.2.2.1 ∧ entry.2.2.1 < 16 ∧
      ((afeFunctionAvailableOptionsDict.lookup entry.1).getD []).all fun option =>
        option.toNat < 2 ^ (entry.2.2.1 - entry.2.2.2 + 1) := by
  decide +kernel

theorem exists_option_ge {options : List UInt16} {value : UInt16} (h : accepts options value = true) :
    ∃ option ∈ options, value ≤ option := by
  unfold accepts at h
  split at h
  · rename_i low high
    rw [Bool.and_eq_true, decide_eq_true_iff, decide_eq_true_iff] at h
    exact ⟨high, by simp, h.2⟩
  · exact ⟨value, List.contains_iff_mem.mp h, UInt16.le_refl value⟩

/-- The entry with its bits the wrong way round. -/
theorem reversed : afeFunctionDict.lookup "LVDS_OUTPUT_RATE_2X" = some (1, 12, 14) ∧
    afeFunctionAvailableOptionsDict.lookup "LVDS_OUTPUT_RATE_2X" = some [0, 1] := by decide +kernel

theorem field_of_lookup {functionName : String} {register : UInt32} {msb lsb : Nat}
    (h : afeFunctionDict.lookup functionName = some (register, msb, lsb)) (hne : functionName ≠ "LVDS_OUTPUT_RATE_2X") :
    register ∈ registerList ∧ ∃ f : Field, f.msb = msb ∧ f.lsb = lsb ∧
      ∀ {options value}, afeFunctionAvailableOptionsDict.lookup functionName = some options → accepts options value = true →
        value.toUInt32 &&& f.bits.mask = value.toUInt32 := by
  obtain ⟨before, after, hdict, -⟩ := List.lookup_eq_some_iff.mp h
  obtain ⟨hlisted, hordered, hbounded, hoptions⟩ := entry_fits (functionName, register, msb, lsb) (by rw [hdict]; simp) hne
  refine ⟨hlisted, ⟨msb, lsb, hordered, hbounded⟩, rfl, rfl, fun {options value} hlookup haccepts => ?_⟩
  obtain ⟨option, hmem, hle⟩ := exists_option_ge haccepts
  rw [hlookup, Option.getD_some] at hoptions
  have hfits := decide_eq_true_iff.mp (List.all_eq_true.mp hoptions option hmem)
  refine BitField.and_mask_of_lt (lt_of_le_of_lt ?_ hfits)
  rw [UInt16.toNat_toUInt32]
  exact UInt16.le_iff_toNat_le.mp hle

/-! ### Every function -/

/-- Each value that the options of a function admit gets to exactly the bits of its field, is returned and is read back,
with shifts that are defined. -/
def Lawful (undefinedMask : UInt32) (functionName : String) (register : UInt32) (msb lsb : Nat) : Prop :=
  ∀ options value afe cells, afeFunctionAvailableOptionsDict.lookup functionName = some options →
    accepts options value = true →
      (∀ amount ∈ shiftAmounts msb lsb, 0 ≤ amount ∧ amount < 32) ∧
      ∃ cells', Cells.setAFEFunction undefinedMask afe functionName value cells = .ok value.toUInt32 cells' ∧
        Cells.getAFEFunction undefinedMask afe functionName cells' = .ok value.toUInt32 cells' ∧
        (∀ afe' register', (afe', register') ≠ (afe, register) → cells' afe' register' = cells afe' register') ∧
        Replaced msb lsb value (cells afe register) (cells' afe register)

theorem setAFEFunctionOver_eq {M : Type → Type} [Monad M] [MonadExceptOf String M] (getRegister : UInt32 → M UInt32)
    (setRegister : UInt32 → UInt32 → M UInt32) (undefinedMask : UInt32) {functionName : String} {value : UInt16}
    {register : UInt32} {msb lsb : Nat} (h : functionField functionName value = some (register, msb, lsb)) :
    setAFEFunctionOver getRegister setRegister undefinedMask functionName value =
      setFieldOver getRegister setRegister undefinedMask register msb lsb value := by
  unfold functionField at h
  unfold setAFEFunctionOver
  cases hoptions : afeFunctionAvailableOptionsDict.lookup functionName with
  | none =>
    rw [hoptions] at h
    cases h
  | some options =>
    rw [hoptions] at h
    dsimp only at h ⊢
    by_cases haccepts : accepts options value = false
    · rw [if_pos haccepts] at h
      cases h
    · rw [if_neg haccepts] at h ⊢
      rw [h]

theorem lawful_of_ne (undefinedMask : UInt32) {functionName : String} {register : UInt32} {msb lsb : Nat}
    (h : afeFunctionDict.lookup functionName = some (register, msb, lsb)) (hne : functionName ≠ "LVDS_OUTPUT_RATE_2X") :
    Lawful undefinedMask functionName register msb lsb := by
  obtain ⟨hlisted, f, rfl, rfl, hfits⟩ := field_of_lookup h hne
  intro options value afe cells hoptions haccepts
  refine ⟨fun amount hmem => ?_, Function.update cells afe (Function.update (cells afe) register
    (f.bits.insert (cells afe register).toUInt32 value.toUInt32).toUInt16), ?_, ?_, fun afe' register' hother => ?_, ?_⟩
  · have := f.ordered
    have := f.bounded
    simp only [shiftAmounts, List.mem_cons, List.not_mem_nil, or_false] at hmem
    omega
  · have hfield : functionField functionName value = some (register, f.msb, f.lsb) := by
      simp only [functionField, hoptions, haccepts, Bool.true_eq_false, ↓reduceIte, h]
    rw [Cells.setAFEFunction, setAFEFunctionOver_eq _ _ _ hfield, setFieldOver_eq f undefinedMask hlisted,
      hfits hoptions haccepts]
  · simp only [Cells.getAFEFunction, getAFEFunctionOver, h]
    rw [bind_ok (get_eq hlisted _), Function.update_self, Function.update_self, f.readBack_eq, f.extract_toUInt16,
      BitField.extract_insert, hfits hoptions haccepts]
    rfl
  · by_cases hafe : afe' = afe
    · subst hafe
      rw [Function.update_self, Function.update_of_ne fun hr => hother (by rw [hr])]
    · rw [Function.update_of_ne hafe]
  · rw [Function.update_self, Function.update_self]
    exact f.replaced_insert _ _

/-- The functions of the table keep to their fields, with one exception, whatever the compiler makes of its shift. -/
theorem setAFEFunction_lawful_iff (undefinedMask : UInt32) {functionName : String} {register : UInt32} {msb lsb : Nat}
    (h : afeFunctionDict.lookup functionName = some (register, msb, lsb)) :
    Lawful undefinedMask functionName register msb lsb ↔ functionName ≠ "LVDS_OUTPUT_RATE_2X" := by
  refine ⟨?_, lawful_of_ne undefinedMask h⟩
  rintro hlawful rfl
  obtain ⟨hfield, hoptions⟩ := reversed
  obtain ⟨rfl, rfl, rfl⟩ : register = 1 ∧ msb = 12 ∧ lsb = 14 := by
    rw [hfield] at h
    simpa [eq_comm] using h
  have hshifts := (hlawful [0, 1] 0 0 (fun _ _ => 0) hoptions (by decide)).1
  exact absurd (hshifts (-1) (by decide)).1 (by decide)

theorem lnaGain_lawful : Lawful 0 "LNA_GAIN" 52 14 13 := (setAFEFunction_lawful_iff 0 (by decide +kernel)).mpr (by decide)

theorem lvdsOutputRate2x_not_lawful : afeFunctionDict.lookup "LVDS_OUTPUT_RATE_2X" = some (1, 12, 14) ∧
    ¬Lawful 0 "LVDS_OUTPUT_RATE_2X" 1 12 14 := by
  refine ⟨reversed.1, fun h => ?_⟩
  have hshifts := (h [0, 1] 0 0 (fun _ _ => 0) reversed.2 (by decide)).1
  exact absurd (hshifts (-1) (by decide)).1 (by decide)

/-! ### Over SPI -/

theorem setAFEFunction_eq_over (env : Env Nat UInt32) (undefinedMask : UInt32) (afe : Nat) (functionName : String)
    (value : UInt16) : (setAFEFunction env undefinedMask afe functionName value : Prog Nat UInt32 Daphne UInt32) =
      setAFEFunctionOver (getRegister env afe) (setRegister env afe) undefinedMask functionName value := by
  unfold setAFEFunction setAFEFunctionOver
  cases afeFunctionAvailableOptionsDict.lookup functionName with
  | none => rfl
  | some options => cases afeFunctionDict.lookup functionName <;> rfl

/-- The registers of the AFEs in a state of the server. -/
def view (b : Board) (s : ServerState) : Cells := fun afe register => (registersOf b afe s).cells register.toNat

section
variable {b : Board} {afe : Nat} {s t : ServerState} {register : UInt32}

theorem view_of_holds {content : UInt16} (h : Holds b afe register.toNat content s t) :
    view b t = Function.update (view b s) afe (Function.update (view b s afe) register content) := by
  funext afe' register'
  by_cases hafe : afe' = afe
  · subst hafe
    rw [Function.update_self, view, h.cells]
    by_cases hregister : register' = register
    · subst hregister
      rw [Function.update_self, Function.update_self]
    · rw [Function.update_of_ne hregister, Function.update_of_ne fun he => hregister (UInt32.toNat_inj.mp he)]
      rfl
  · rw [Function.update_of_ne hafe, view, h.others afe' hafe]
    rfl

theorem wp_get_view (hafe : afe < 5) (hregister : register ∈ registerList) (hidle : (registersOf b afe s).cells 0 = 0) :
    wp (getRegister b.env afe register) (fun v t => Cells.getRegister afe register (view b s) = .ok v (view b t) ∧
      (registersOf b afe t).cells 0 = 0) (fun e _ => e = Spi.timeout) s := by
  refine wp_mono (wp_getRegister hafe hregister hidle) (fun v t ht => ?_) fun _ _ h => h
  obtain ⟨rfl, ht⟩ := ht
  refine ⟨?_, by rw [ht.cells, Function.update_self]⟩
  have hview : view b t = Function.update (view b s) afe (Function.update (view b s afe) 0 _) := view_of_holds ht
  have hzero : (0 : UInt16) = view b s afe 0 := hidle.symm
  rw [hzero, Function.update_eq_self, Function.update_eq_self] at hview
  rw [get_eq hregister, hview]
  rfl

theorem wp_set_view (hafe : afe < 5) (hregister : register ∈ registerList) (hne : register ≠ 0)
    (hidle : (registersOf b afe s).cells 0 = 0) (value : UInt32) : wp (setRegister b.env afe register value)
      (fun v t => Cells.setRegister afe register value (view b s) = .ok v (view b t) ∧ (registersOf b afe t).cells 0 = 0)
      (fun e _ => e = Spi.timeout) s := by
  refine wp_mono (wp_setRegister hafe hregister hidle value) (fun v t ht => ?_) fun _ _ h => h
  obtain ⟨rfl, ht⟩ := ht
  have hsettled : settled register.toNat value.toUInt16 = value.toUInt16 :=
    if_neg fun h => hne (UInt32.toNat_inj.mp h)
  refine ⟨?_, ht.idle hidle⟩
  rw [hsettled] at ht ⊢
  rw [set_eq hregister, view_of_holds ht]

/-- Between two exchanges the chips are plain cells to `setAFEFunction`, for a function of any register but register 0. -/
theorem wp_setAFEFunction_view (hafe : afe < 5) {functionName : String} {value : UInt16} {msb lsb : Nat}
    (hfield : functionField functionName value = some (register, msb, lsb)) (hne : register ≠ 0)
    (hidle : (registersOf b afe s).cells 0 = 0) (undefinedMask : UInt32) :
    wp (setAFEFunction b.env undefinedMask afe functionName value)
      (fun v t => Cells.setAFEFunction undefinedMask afe functionName value (view b s) = .ok v (view b t))
      (fun e _ => e = Spi.timeout) s := by
  have hregister := functionField_listed hfield
  rw [setAFEFunction_eq_over, Cells.setAFEFunction, setAFEFunctionOver_eq _ _ _ hfield, setAFEFunctionOver_eq _ _ _ hfield,
    setFieldOver, setFieldOver]
  refine wp_bind.mpr (wp_mono (wp_get_view hafe hregister hidle) (fun v s1 h1 => ?_) fun _ _ h => h)
  rw [bind_ok h1.1]
  refine wp_bind.mpr (wp_mono (wp_set_view hafe hregister hne h1.2 _) (fun _ s2 h2 => ?_) fun _ _ h => h)
  rw [bind_ok h2.1]
  refine wp_bind.mpr (wp_mono (wp_get_view hafe hregister h2.2) (fun v t h3 => ?_) fun _ _ h => h)
  rw [bind_ok h3.1]
  rfl

end

end AfeCells
end DaphneZmq
