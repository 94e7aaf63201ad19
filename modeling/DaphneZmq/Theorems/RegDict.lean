import DaphneZmq.Afe
import DaphneZmq.Endpoint
import DaphneZmq.FrontEnd
import DaphneZmq.GainBias
import DaphneZmq.RegDict

/-! What `ReadBits` and `WriteBits` do for a name of the dictionary, and for one that is not in it. -/

namespace DaphneZmq
namespace RegDict

/-! ### The dictionary -/

/-- No entry has a sentinel for its address, and every field is a range of bits of a word. -/
theorem entry_ok : ∀ entry ∈ fpgaRegDict, entry.2.1 ≠ 0xdeadbeef ∧ entry.2.1 ≠ 0xffffffff ∧
    ∀ field ∈ entry.2.2, 0 ≤ field.2.1 ∧ field.2.1 ≤ field.2.2 ∧ field.2.2 < 32 := by decide +kernel

example : (fpgaRegDict.map (·.1)).Nodup := by decide +kernel

/-- A register of the dictionary. -/
def Known (regName : String) : Prop := (fpgaRegDict.lookup regName).isSome

/-- A field of a register of the dictionary. -/
def HasField (regName bitName : String) (addr : UInt32) (f : BitField) : Prop :=
  f.addr = addr.toNat ∧ ∃ fields, fpgaRegDict.lookup regName = some (addr, fields) ∧
    fields.lookup bitName = some ((f.low : Int), (f.high : Int))

theorem mem_of_lookup {α β : Type} [BEq α] [LawfulBEq α] {l : List (α × β)} {a : α} {b : β} (h : l.lookup a = some b) : (a, b) ∈ l := by
  obtain ⟨before, after, rfl, -⟩ := List.lookup_eq_some_iff.mp h
  simp

/-- What a look-up can come to. -/
theorem lookup_cases (regName bitName : String) :
    (¬Known regName ∧ getRegisterBits regName bitName = (0xdeadbeef, -1, -1)) ∨
    (∃ addr fields, fpgaRegDict.lookup regName = some (addr, fields) ∧ fields.lookup bitName = none ∧
      getRegisterBits regName bitName = (addr, -1, -1)) ∨
    ∃ addr f, HasField regName bitName addr f ∧ getRegisterBits regName bitName = (addr, (f.high : Int), (f.low : Int)) := by
  unfold getRegisterBits Known
  cases hreg : fpgaRegDict.lookup regName with
  | none => exact .inl ⟨by simp, rfl⟩
  | some entry =>
    obtain ⟨addr, fields⟩ := entry
    cases hbit : fields.lookup bitName with
    | none => exact .inr (.inl ⟨addr, fields, rfl, hbit, by simp [hbit]⟩)
    | some range =>
      obtain ⟨low, high⟩ := range
      obtain ⟨-, -, hfields⟩ := entry_ok _ (mem_of_lookup hreg)
      obtain ⟨hlow, hle, hhigh⟩ := hfields _ (mem_of_lookup hbit)
      dsimp only at hlow hle hhigh
      refine .inr (.inr ⟨addr, ⟨addr.toNat, low.toNat, high.toNat, ?_, ?_⟩, ⟨rfl, fields, hreg, ?_⟩, ?_⟩)
      · exact Nat.ble_eq_true_of_le (by omega)
      · exact Nat.ble_eq_true_of_le (show high.toNat + 1 ≤ 32 by omega)
      · simp only [hbit]
        congr 2 <;> omega
      · simp only [hbit]
        congr 2 <;> omega

theorem HasField.addr_ne {regName bitName : String} {addr : UInt32} {f : BitField} (h : HasField regName bitName addr f) :
    addr ≠ 0xdeadbeef ∧ addr ≠ 0xffffffff := by
  obtain ⟨-, fields, hreg, -⟩ := h
  obtain ⟨hdead, hff, -⟩ := entry_ok _ (mem_of_lookup hreg)
  exact ⟨hdead, hff⟩

/-- A field as a look-up gives it. -/
def named (f : BitField) : UInt32 × Int × Int := (UInt32.ofNat f.addr, f.high, f.low)

/-- The fields that the models of the drivers use are the ones that the drivers name. -/
theorem driver_fields :
    getRegisterBits "afeGlobalControl" "RESET" = named Afe.afeGlobalControlReset ∧
    getRegisterBits "afeGlobalControl" "POWERSTATE" = named Afe.afeGlobalControlPowerstate ∧
    getRegisterBits "afeGlobalControl" "BUSY" = named Spi.afeGlobalControlBusy ∧
    (∀ afe < 5, getRegisterBits ("afeControl_" ++ toString afe) "DATA" = named (Afe.afeControl afe) ∧
      (∀ kind, getRegisterBits (Dac.registerName kind afe) "DATA" = named (Dac.registerData kind afe)) ∧
      getRegisterBits ("frontendDelay_" ++ toString afe) "DELAY" = named (FrontEnd.frontendDelay afe) ∧
      getRegisterBits ("frontendBitslip_" ++ toString afe) "BITSLIP" = named (FrontEnd.frontendBitslip afe)) ∧
    getRegisterBits "dacGainBiasControl" "BUSY" = named Dac.dacGainBiasControlBusy ∧
    getRegisterBits "dacGainBiasControl" "GO" = named Dac.dacGainBiasControlGo ∧
    getRegisterBits "biasEnable" "ENABLE" = named Dac.biasEnable ∧
    getRegisterBits "endpointClockControl" "MMCM_RESET" = named Endpoint.mmcmReset ∧
    getRegisterBits "endpointClockControl" "CLOCK_SOURCE" = named Endpoint.clockSource ∧
    getRegisterBits "endpointControl" "RESET" = named Endpoint.endpointReset ∧
    getRegisterBits "endpointControl" "ADDRESS" = named Endpoint.endpointAddress ∧
    getRegisterBits "frontendControl" "DELAY_EN_VTC" = named FrontEnd.delayEnVtc ∧
    getRegisterBits "frontendControl" "SERDES_RESET" = named FrontEnd.serdesReset ∧
    getRegisterBits "frontendControl" "DELAYCTRL_RESET" = named FrontEnd.delayctrlReset ∧
    getRegisterBits "frontendStatus" "DELAYCTRL_READY" = named FrontEnd.delayctrlReady := by
  have hkinds (afe : Nat) (hafe : afe < 5) : ∀ kind, getRegisterBits (Dac.registerName kind afe) "DATA" =
      named (Dac.registerData kind afe) := by
    rintro (_ | _) <;> revert afe <;> decide +kernel
  refine ⟨by decide +kernel, by decide +kernel, by decide +kernel, fun afe hafe => ⟨?_, hkinds afe hafe, ?_, ?_⟩, ?_⟩
  · revert afe
    decide +kernel
  · revert afe
    decide +kernel
  · revert afe
    decide +kernel
  · decide +kernel

/-! ### A field that is found -/

section
variable (u : Undefined)

theorem pure_apply {α : Type} (a : α) (m : Machine) : (pure a : RegM α) m = (a, m) := rfl

def Machine.shifted (m : Machine) (amounts : List Int) : Machine := { m with shifts := m.shifts ++ amounts }

/-- The shifts for the mask of a field. -/
def maskShifts (f : BitField) : List Int := if f.width = 32 then [] else [(f.width : Int)]

theorem mask_eq (f : BitField) (m : Machine) : mask u f.high f.low m = (f.mask, m.shifted (maskShifts f)) := by
  have hle := f.low_le
  have hhigh := f.high_lt
  have hwidth : (f.high : Int) - f.low + 1 = (f.width : Int) := by
    unfold BitField.width
    omega
  rw [mask, hwidth, maskShifts, BitField.mask]
  by_cases h : f.width = 32
  · rw [if_pos (by omega), if_pos h, if_pos h]
    simp [Machine.shifted, pure_apply]
  · have hlt : f.width < 32 := by
      unfold BitField.width at h ⊢
      omega
    rw [if_neg (by omega), if_neg h, if_neg h]
    simp only [bind, StateT.bind, shiftLeft, pure_apply]
    rw [if_pos (by omega), Int.toNat_natCast]
    rfl

theorem shiftLeft_low (f : BitField) (word : UInt32) (m : Machine) :
    shiftLeft u word f.low m = (word <<< UInt32.ofNat f.low, m.shifted [(f.low : Int)]) := by
  have := f.low_le
  have := f.high_lt
  rw [shiftLeft, if_pos (by omega), Int.toNat_natCast]
  rfl

theorem shiftRight_low (f : BitField) (word : UInt32) (m : Machine) :
    shiftRight u word f.low m = (word >>> UInt32.ofNat f.low, m.shifted [(f.low : Int)]) := by
  have := f.low_le
  have := f.high_lt
  rw [shiftRight, if_pos (by omega), Int.toNat_natCast]
  rfl

theorem shifted_shifted (m : Machine) (xs ys : List Int) : (m.shifted xs).shifted ys = m.shifted (xs ++ ys) := by
  simp [Machine.shifted, List.append_assoc]

variable {regName bitName : String} {addr : UInt32} {f : BitField}

theorem HasField.getRegisterBits_eq (h : HasField regName bitName addr f) :
    getRegisterBits regName bitName = (addr, (f.high : Int), (f.low : Int)) := by
  obtain ⟨-, fields, hreg, hbit⟩ := h
  simp only [getRegisterBits, hreg, hbit]

theorem HasField.getRegister_eq (h : HasField regName bitName addr f) : getRegister regName = addr := by
  obtain ⟨-, fields, hreg, -⟩ := h
  simp only [getRegister, hreg]

theorem HasField.readBits_eq (h : HasField regName bitName addr f) (m : Machine) :
    readBits u regName bitName 0 m = (f.extract (m.memory addr), m.shifted (maskShifts f ++ [(f.low : Int)])) := by
  rw [readBits, h.getRegisterBits_eq]
  dsimp only
  rw [if_neg h.addr_ne.1, UInt32.add_zero]
  simp only [bind, StateT.bind, load, mask_eq, shiftRight_low, shifted_shifted]
  rfl

theorem HasField.writeRegister_eq (h : HasField regName bitName addr f) (value : UInt32) (m : Machine) :
    writeRegister regName value m = (value, { m with memory := Function.update m.memory addr value }) := by
  rw [writeRegister, h.getRegister_eq, if_neg h.addr_ne.2]
  simp only [bind, StateT.bind, store, readRegister, h.getRegister_eq, h.addr_ne.2, ↓reduceIte, load, Function.update_self]

/-- The shifts of a `WriteBits`. -/
def writeShifts (f : BitField) : List Int := maskShifts f ++ [(f.low : Int), (f.low : Int)] ++ (maskShifts f ++ [(f.low : Int)])

theorem HasField.writeBits_eq (h : HasField regName bitName addr f) (data : UInt32) (m : Machine) :
    writeBits u regName bitName data m = (data &&& f.mask,
      { memory := Function.update m.memory addr (f.insert (m.memory addr) data), shifts := m.shifts ++ writeShifts f }) := by
  rw [writeBits, h.getRegisterBits_eq]
  dsimp only
  rw [if_neg h.addr_ne.1]
  simp only [bind, StateT.bind, load, mask_eq, shiftLeft_low, shifted_shifted, h.writeRegister_eq, h.readBits_eq]
  rw [Function.update_self, ← BitField.insert, BitField.extract_insert]
  simp [Machine.shifted, writeShifts]

theorem mem_writeShifts {amount : Int} (h : amount ∈ writeShifts f) : 0 ≤ amount ∧ amount < 32 := by
  have := f.low_le
  have := f.high_lt
  have hmask : amount ∈ maskShifts f → 0 ≤ amount ∧ amount < 32 := fun hmem => by
    unfold maskShifts at hmem
    split at hmem
    · cases hmem
    · rename_i hne
      have := f.width_le
      rw [List.mem_singleton] at hmem
      omega
  simp only [writeShifts, List.mem_append, List.mem_cons, List.not_mem_nil, or_false] at h
  rcases h with (h | h | h) | h | h
  · exact hmask h
  · omega
  · omega
  · exact hmask h
  · omega

end

/-! ### Every name -/

/-- A write of a field that is there changes its bits and no others, and the field reads as the data from then on; without
such a field nothing is written. Every shift is by an amount that is defined. -/
def Lawful (u : Undefined) (regName bitName : String) : Prop := ∀ data memory result m,
  writeBits u regName bitName data ⟨memory, []⟩ = (result, m) →
    (∀ amount ∈ m.shifts, 0 ≤ amount ∧ amount < 32) ∧
    (∀ addr f, HasField regName bitName addr f →
      result = data &&& f.mask ∧ (readBits u regName bitName 0 m).1 = data &&& f.mask ∧
      (∀ a, a ≠ addr → m.memory a = memory a) ∧
      ∀ i < 32, (m.memory addr).toNat.testBit i =
        if f.low ≤ i ∧ i ≤ f.high then data.toNat.testBit (i - f.low) else (memory addr).toNat.testBit i) ∧
    ((∀ addr f, ¬HasField regName bitName addr f) → result = 0xdeadbeef ∧ m.memory = memory)

section
variable {u : Undefined} {regName bitName : String}

theorem HasField.known {addr : UInt32} {f : BitField} (h : HasField regName bitName addr f) : Known regName := by
  obtain ⟨-, fields, hreg, -⟩ := h
  simp [Known, hreg]

theorem HasField.unique {addr addr' : UInt32} {f f' : BitField} (h : HasField regName bitName addr f)
    (h' : HasField regName bitName addr' f') : addr' = addr ∧ f'.low = f.low ∧ f'.high = f.high := by
  have := h.getRegisterBits_eq.symm.trans h'.getRegisterBits_eq
  simp only [Prod.mk.injEq, Nat.cast_inj] at this
  exact ⟨this.1.symm, this.2.2.symm, this.2.1.symm⟩

theorem lawful_of_hasField {addr : UInt32} {f : BitField} (h : HasField regName bitName addr f) :
    Lawful u regName bitName := by
  intro data memory result m hrun
  rw [h.writeBits_eq] at hrun
  obtain ⟨rfl, rfl⟩ := Prod.mk.inj hrun
  refine ⟨fun amount hmem => mem_writeShifts (by simpa using hmem), fun addr' g hg => ?_, fun hnone => absurd h (hnone addr f)⟩
  obtain ⟨rfl, hlow, hhigh⟩ := h.unique hg
  have hmask : g.mask = f.mask := by
    unfold BitField.mask BitField.width
    rw [hlow, hhigh]
  refine ⟨by rw [hmask], ?_, fun a ha => Function.update_of_ne ha _ _, fun i hi => ?_⟩
  · rw [h.readBits_eq]
    dsimp only
    rw [Function.update_self, BitField.extract_insert, hmask]
  · have := f.low_le
    dsimp only
    rw [Function.update_self, BitField.testBit_insert hi, hlow, hhigh]
    refine if_congr (and_congr Iff.rfl ?_) rfl rfl
    unfold BitField.width
    omega

theorem lawful_of_not_known (h : ¬Known regName) : Lawful u regName bitName := by
  have hbits : getRegisterBits regName bitName = (0xdeadbeef, -1, -1) := by
    rcases lookup_cases regName bitName with ⟨-, hbits⟩ | ⟨addr, fields, hreg, -⟩ | ⟨addr, f, hf, -⟩
    · exact hbits
    · exact absurd (by simp [Known, hreg]) h
    · exact absurd hf.known h
  intro data memory result m hrun
  rw [writeBits, hbits] at hrun
  obtain ⟨rfl, rfl⟩ := Prod.mk.inj hrun
  exact ⟨by simp, fun addr f hf => absurd hf.known h, fun _ => ⟨rfl, rfl⟩⟩

/-- The name of a field is not checked: the ends -1 go into the shifts. -/
theorem shifts_of_no_field (hknown : Known regName) (hnone : ∀ addr f, ¬HasField regName bitName addr f) (data : UInt32)
    (memory : UInt32 → UInt32) : -1 ∈ (writeBits u regName bitName data ⟨memory, []⟩).2.shifts := by
  obtain ⟨addr, fields, hreg, -, hbits⟩ : ∃ addr fields, fpgaRegDict.lookup regName = some (addr, fields) ∧
      fields.lookup bitName = none ∧ getRegisterBits regName bitName = (addr, -1, -1) := by
    rcases lookup_cases regName bitName with ⟨hunknown, -⟩ | h | ⟨addr, f, hf, -⟩
    · exact absurd hknown hunknown
    · exact h
    · exact absurd hf (hnone addr f)
  obtain ⟨hdead, hff, -⟩ := entry_ok _ (mem_of_lookup hreg)
  dsimp only at hdead hff
  have hget : getRegister regName = addr := by simp only [getRegister, hreg]
  rw [writeBits, hbits]
  dsimp only
  rw [if_neg hdead]
  simp [bind, StateT.bind, load, mask, shiftLeft, writeRegister, hget, hff, store, readRegister, readBits, hbits, hdead,
    shiftRight, pure_apply]

end

/-- `WriteBits` keeps to a field by its name, and to nothing for a register that is not there, but not for a field that is
missing from a register of the dictionary; this does not depend on what the undefined shifts give. -/
theorem writeBits_lawful_iff (u : Undefined) (regName bitName : String) :
    Lawful u regName bitName ↔ (Known regName → ∃ addr f, HasField regName bitName addr f) := by
  constructor
  · intro hlawful hknown
    by_contra hnone
    push Not at hnone
    obtain ⟨hshifts, -⟩ := hlawful 0 (fun _ => 0) _ _ rfl
    exact absurd (hshifts (-1) (shifts_of_no_field hknown hnone 0 fun _ => 0)).1 (by decide)
  · intro hfield
    by_cases hknown : Known regName
    · obtain ⟨addr, f, hf⟩ := hfield hknown
      exact lawful_of_hasField hf
    · exact lawful_of_not_known hknown

/-- Shifts as the processor does them, by the amount modulo 32. -/
def wrapped : Undefined where
  left word amount := word <<< UInt32.ofNat (amount % 32).toNat
  right word amount := word >>> UInt32.ofNat (amount % 32).toNat

/-- LED has one field, of its own name. -/
theorem led_not_lawful : ¬Lawful wrapped "LED" "GREEN" := by
  intro h
  obtain ⟨hshifts, -⟩ := h 1 (fun _ => 0) _ _ rfl
  exact absurd (hshifts (-1) (by decide +kernel)).1 (by decide)

end RegDict
end DaphneZmq
