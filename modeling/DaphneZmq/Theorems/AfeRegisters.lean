import DaphneZmq.Theorems.Frames
import Mathlib.Data.Bool.AllAny

/-! What `setRegister`, `getRegister` and the functions do to the registers of the AFEs. Each of them sets the readout mode
for a while; between them the mode is not set. -/

namespace DaphneZmq
open Lib Lib.Device
namespace Afe

/-! ### Words -/

variable {r : Registers} {register value old word : UInt32}

theorem listed_spec : ∀ register ∈ registerList, register.toNat < 256 ∧ register &&& 0xFF = register ∧
    (register <<< 16) &&& (0xFF0000 : UInt32) = register <<< 16 ∧ wordAddress.extract (register <<< 16) = register ∧
    wordContent.extract (register <<< 16) = 0 :=
  List.all_iff_forall_prop.mp (by decide)

/-- A word is a content with an address inserted. -/
theorem word_eq (register value : UInt32) : ((register &&& 0xFF) <<< 16) ||| (value &&& 0xFFFF) =
    wordAddress.insert (value &&& 0xFFFF) register := by
  have hmask : wordAddress.mask = 0xFF := by decide
  have hkeep : (0xFFFF : UInt32) &&& ~~~(0xFF <<< UInt32.ofNat wordAddress.low) = 0xFFFF := by decide
  rw [BitField.insert, hmask, UInt32.and_assoc, hkeep, UInt32.or_comm]
  rfl

theorem extract_word_address (register value : UInt32) :
    wordAddress.extract (((register &&& 0xFF) <<< 16) ||| (value &&& 0xFFFF)) = register &&& 0xFF := by
  rw [word_eq, BitField.extract_insert]
  rfl

theorem extract_word_content (register value : UInt32) :
    wordContent.extract (((register &&& 0xFF) <<< 16) ||| (value &&& 0xFFFF)) = value &&& 0xFFFF := by
  have hmask : wordContent.mask = 0xFFFF := by decide
  rw [word_eq, BitField.extract_insert_of_disjoint (Or.inl (show 15 < 16 by decide)), BitField.extract, hmask,
    show UInt32.ofNat wordContent.low = 0 from rfl, UInt32.shiftRight_zero, UInt32.and_assoc, UInt32.and_self]

theorem word_and (register value : UInt32) :
    (((register &&& 0xFF) <<< 16) ||| (value &&& (0xFFFF : UInt32))) &&& (0xFF0000 : UInt32) =
      ((register &&& 0xFF) <<< 16 : UInt32) &&& 0xFF0000 := by
  rw [Dac.or_and, UInt32.and_assoc value, show (0xFFFF : UInt32) &&& 0xFF0000 = 0 by decide, UInt32.and_zero, UInt32.or_zero]

theorem toUInt16_and (value : UInt32) : (value &&& 0xFFFF).toUInt16 = value.toUInt16 := by
  rw [← UInt16.toNat_inj, UInt32.toNat_toUInt16, UInt32.toNat_toUInt16, UInt32.toNat_and]
  show (value.toNat &&& (2 ^ 16 - 1)) % 2 ^ 16 = _
  rw [Nat.and_two_pow_sub_one_eq_mod, Nat.mod_mod]

theorem toUInt32_and (content : UInt16) : content.toUInt32 &&& 0xFFFF = content.toUInt32 := by
  rw [← UInt32.toNat_inj, UInt32.toNat_and, UInt16.toNat_toUInt32]
  show content.toNat &&& (2 ^ 16 - 1) = _
  rw [Nat.and_two_pow_sub_one_eq_mod, Nat.mod_eq_of_lt content.toNat_lt]

/-! ### Transfers -/

/-- What a register holds once the readout mode is cleared again. -/
def settled (register : Nat) (content : UInt16) : UInt16 := if register = 0 then 0 else content

/-- Only the 24 bits of the DATA field matter. -/
theorem transfer_insert (r : Registers) (afe : Nat) (old word : UInt32) :
    r.transfer ((afeControl afe).insert old word) = r.transfer word := by
  have haddress : wordAddress.extract ((afeControl afe).insert old word) = wordAddress.extract word :=
    BitField.extract_insert_within rfl (show 23 ≤ 23 by decide)
  have hcontent : wordContent.extract ((afeControl afe).insert old word) = wordContent.extract word :=
    BitField.extract_insert_within rfl (show 15 ≤ 23 by decide)
  rw [Registers.transfer, haddress, hcontent, Registers.transfer]

theorem transfer_store (h : wordAddress.extract word = register) (hidle : register = 0 ∨ r.cells 0 = 0) :
    r.transfer word = ⟨Function.update r.cells register.toNat (wordContent.extract word).toUInt16, register.toNat,
      Function.update r.written register.toNat true⟩ := by
  rw [Registers.transfer, h, if_neg]
  rintro ⟨hne, hmode⟩
  rcases hidle with rfl | hzero
  · exact hne rfl
  · rw [hzero] at hmode
    exact hmode rfl

theorem transfer_address (h : wordAddress.extract word = register) (hne : register ≠ 0) (hmode : r.cells 0 &&& 2 ≠ 0) :
    r.transfer word = { r with addressed := register.toNat } := by
  have hne' : register.toNat ≠ 0 := fun h => hne (UInt32.toNat_inj.mp h)
  rw [Registers.transfer, h, if_pos ⟨hne', hmode⟩]

/-- The readout mode is set, a register is addressed and read, and the mode is cleared. -/
theorem readOut (hregister : register ∈ registerList) (r : Registers) :
    ((r.transfer 2).transfer (register <<< 16)).out = (settled register.toNat (r.cells register.toNat)).toUInt32 ∧
      (((r.transfer 2).transfer (register <<< 16)).transfer 0).cells = Function.update r.cells 0 0 ∧
      (((r.transfer 2).transfer (register <<< 16)).transfer 0).written = Function.update r.written 0 true := by
  obtain ⟨-, -, -, haddress, hcontent⟩ := listed_spec register hregister
  have hstart : wordAddress.extract 2 = 0 := by decide
  have hend : wordAddress.extract 0 = 0 := by decide
  have hmode : r.transfer 2 = ⟨Function.update r.cells 0 2, 0, Function.update r.written 0 true⟩ :=
    transfer_store hstart (Or.inl rfl)
  rw [hmode]
  by_cases hzero : register = 0
  · have hstore (m : Registers) : m.transfer (register <<< 16) = ⟨Function.update m.cells 0 0, 0, Function.update m.written 0 true⟩ := by
      rw [transfer_store haddress (Or.inl hzero), hcontent, hzero]
      rfl
    rw [hstore, transfer_store hend (Or.inl rfl), hzero]
    refine ⟨?_, ?_, ?_⟩
    · simp [Registers.out, settled]
    · show Function.update (Function.update (Function.update r.cells 0 2) 0 0) 0 0 = _
      simp
    · show Function.update (Function.update (Function.update r.written 0 true) 0 true) 0 true = _
      simp
  · have hne : register.toNat ≠ 0 := fun h => hzero (UInt32.toNat_inj.mp h)
    rw [transfer_address haddress hzero (by simp), transfer_store hend (Or.inl rfl)]
    refine ⟨?_, ?_, ?_⟩
    · rw [settled, if_neg hne]
      show (Function.update r.cells 0 2 register.toNat).toUInt32 = _
      rw [Function.update_of_ne hne]
    · show Function.update (Function.update r.cells 0 2) 0 0 = _
      simp
    · show Function.update (Function.update r.written 0 true) 0 true = _
      simp

/-! ### Programs -/

/-- The registers of an AFE in a state of the server. -/
def registersOf (b : Board) (afe : Nat) (s : ServerState) : Registers := .after (b.contents afe) afe s.writes

/-- Words are sent to an AFE, and nothing else is written. -/
structure Sent (b : Board) (afe : Nat) (r : Registers) (s t : ServerState) : Prop where
  driver : t.driver = s.driver
  registers : registersOf b afe t = r
  others : ∀ afe', afe' ≠ afe → registersOf b afe' t = registersOf b afe' s

section
variable {b : Board} {afe : Nat} {s t u : ServerState} {r r' : Registers}

/-- Words for other registers leave the AFE as it was. -/
theorem registersOf_append {ws : List (Write Nat UInt32)} (hws : t.writes = s.writes ++ ws)
    (hnot : ∀ w ∈ ws, w.address ≠ (afeControl afe).addr) : registersOf b afe t = registersOf b afe s := by
  have hnone : ws.filter (·.address = (afeControl afe).addr) = [] :=
    List.filter_eq_nil_iff.mpr fun w hw haddr => hnot w hw (of_decide_eq_true haddr)
  rw [registersOf, Registers.after, hws, List.filter_append, hnone, List.append_nil]
  rfl

theorem Sent.trans (h : Sent b afe r s t) (h' : Sent b afe r' t u) : Sent b afe r' s u :=
  ⟨h'.driver.trans h.driver, h'.registers, fun a ha => (h'.others a ha).trans (h.others a ha)⟩

theorem Sent.of_quiet (h : Quiet s t) : Sent b afe (registersOf b afe s) s t := by
  refine ⟨h.driver, ?_, fun a _ => ?_⟩ <;> rw [registersOf, registersOf, h.writes]

theorem afeControl_inj {afe afe' : Nat} (h : (afeControl afe).addr = (afeControl afe').addr) : afe = afe' := by
  simp only [afeControl] at h
  omega

theorem wp_send (afe : Nat) (word : UInt32) (s : ServerState) : wp (Spi.setData b.env (afeControl afe) word)
    (fun _ t => Sent b afe ((registersOf b afe s).transfer word) s t) (fun e _ => e = Spi.timeout) s := by
  refine wp_mono (Spi.wp_setData_mapped b.faults_none _ word s) (fun _ t ht => ?_) fun _ _ h => h
  obtain ⟨old, reads, -, -, hwrites⟩ := ht.write
  refine ⟨ht.driver, ?_, fun a ha => ?_⟩
  · rw [registersOf, Registers.after, hwrites, List.filter_append, List.filter_singleton, decide_eq_true rfl, cond_true,
      List.foldl_append, List.foldl_cons, List.foldl_nil, transfer_insert]
    rfl
  · have hne : ¬(afeControl afe).addr = (afeControl a).addr := fun h => ha (afeControl_inj h).symm
    rw [registersOf, Registers.after, hwrites, List.filter_append, List.filter_singleton, decide_eq_false hne, cond_false,
      List.append_nil]
    rfl

theorem wp_receive (hafe : afe < 5) (s : ServerState) : wp (Spi.getData b.env (afeControl afe))
    (fun v t => v = (registersOf b afe s).out ∧ Sent b afe (registersOf b afe s) s t) (fun e _ => e = Spi.timeout) s := by
  have hread (s : ServerState) : wp (Reg.readBits b.env (afeControl afe))
      (fun v t => v = (registersOf b afe s).out ∧ Quiet s t) (fun _ _ => False) s := by
    refine wp_bind.mpr ?_
    unfold wp Device.read
    rw [b.faults_none, b.driven_afeControl hafe]
    refine ⟨?_, rfl, rfl, rfl⟩
    show (afeControl afe).extract (registersOf b afe s).out = _
    rw [BitField.extract, show UInt32.ofNat (afeControl afe).low = 0 from rfl, UInt32.shiftRight_zero]
    refine BitField.and_mask_of_lt (Nat.lt_of_lt_of_le ?_ (show 2 ^ 16 ≤ 2 ^ (afeControl afe).width by
      exact Nat.pow_le_pow_right (by decide) (show 16 ≤ 24 by decide)))
    rw [Registers.out, UInt16.toNat_toUInt32]
    exact UInt16.toNat_lt _
  refine wp_bind.mpr (wp_mono (Spi.wp_waitNotBusy b.faults_none s) (fun _ t ht => ?_) fun _ _ h => h.1)
  refine wp_bind.mpr (wp_mono (hread t) (fun v u hu => ?_) fun _ _ h => h.elim)
  refine wp_bind.mpr (wp_mono (Spi.wp_waitNotBusy b.faults_none u) (fun _ w hw => ?_) fun _ _ h => h.1)
  have hsame : registersOf b afe t = registersOf b afe s := by rw [registersOf, registersOf, ht.writes]
  refine ⟨hu.1.trans (by rw [hsame]), Sent.of_quiet (Effect.quiet.trans (Effect.quiet.trans ht hu.2) hw)⟩

/-- A register holds a value, and only it and register 0 may have been written. -/
structure Holds (b : Board) (afe register : Nat) (content : UInt16) (s t : ServerState) : Prop where
  driver : t.driver = s.driver
  cells : (registersOf b afe t).cells = Function.update (registersOf b afe s).cells register content
  written : ∀ k, (registersOf b afe t).written k = true → (registersOf b afe s).written k = true ∨ k = register ∨ k = 0
  others : ∀ afe', afe' ≠ afe → registersOf b afe' t = registersOf b afe' s

theorem wp_readOut (hafe : afe < 5) {register : UInt32} (hregister : register ∈ registerList) {word : UInt32}
    (hword : word = register <<< 16) {α : Type} (f : UInt32 → Prog Nat UInt32 Daphne α) {Q : α → ServerState → Prop}
    (s : ServerState)
    (h : ∀ t, Sent b afe ((((registersOf b afe s).transfer 2).transfer word).transfer 0) s t →
      wp (f (settled register.toNat ((registersOf b afe s).cells register.toNat)).toUInt32) Q (fun e _ => e = Spi.timeout) t) :
    wp (do
      let _ ← Spi.setData b.env (afeControl afe) 0x000002
      let _ ← Spi.setData b.env (afeControl afe) word
      let value ← Spi.getData b.env (afeControl afe)
      let _ ← Spi.setData b.env (afeControl afe) 0x000000
      f (value &&& 0xFFFF)) Q (fun e _ => e = Spi.timeout) s := by
  refine wp_bind.mpr (wp_mono (wp_send afe 2 s) (fun _ s1 h1 => ?_) fun _ _ h => h)
  refine wp_bind.mpr (wp_mono (wp_send afe word s1) (fun _ s2 h2 => ?_) fun _ _ h => h)
  refine wp_bind.mpr (wp_mono (wp_receive hafe s2) (fun value s3 h3 => ?_) fun _ _ h => h)
  obtain ⟨rfl, h3⟩ := h3
  refine wp_bind.mpr (wp_mono (wp_send afe 0 s3) (fun _ t h4 => ?_) fun _ _ h => h)
  rw [h1.registers] at h2
  rw [h2.registers] at h3
  rw [h3.registers] at h4
  have hread := (readOut hregister (registersOf b afe s)).1
  rw [← hword] at hread
  rw [h2.registers, hread, toUInt32_and]
  exact h t (((h1.trans h2).trans h3).trans h4)

theorem wp_getRegister (hafe : afe < 5) {register : UInt32} (hregister : register ∈ registerList)
    (hidle : (registersOf b afe s).cells 0 = 0) : wp (getRegister b.env afe register)
      (fun v t => v = ((registersOf b afe s).cells register.toNat).toUInt32 ∧ Holds b afe 0 0 s t) (fun e _ => e = Spi.timeout) s := by
  rw [getRegister, if_neg (not_not_intro hregister)]
  refine wp_readOut hafe hregister rfl pure s fun t ht => ?_
  obtain ⟨-, hcells, hwritten⟩ := readOut hregister (registersOf b afe s)
  refine ⟨?_, ht.driver, ?_, fun k hk => ?_, ht.others⟩
  · rw [settled]
    split
    · rename_i hzero
      rw [hzero, hidle]
    · rfl
  · rw [ht.registers, hcells]
  · rw [ht.registers, hwritten] at hk
    by_cases hzero : k = 0
    · exact Or.inr (Or.inl hzero)
    · rw [Function.update_of_ne hzero] at hk
      exact Or.inl hk

theorem wp_setRegister (hafe : afe < 5) {register : UInt32} (hregister : register ∈ registerList)
    (hidle : (registersOf b afe s).cells 0 = 0) (value : UInt32) : wp (setRegister b.env afe register value)
      (fun v t => v = (settled register.toNat value.toUInt16).toUInt32 ∧
        Holds b afe register.toNat (settled register.toNat value.toUInt16) s t) (fun e _ => e = Spi.timeout) s := by
  obtain ⟨-, hand, hclear, -, -⟩ := listed_spec register hregister
  rw [setRegister, if_neg (not_not_intro hregister)]
  refine wp_bind.mpr (wp_mono (wp_send afe _ s) (fun _ s1 h1 => ?_) fun _ _ h => h)
  have hstore := transfer_store (r := registersOf b afe s) (extract_word_address register value) (Or.inr hidle)
  rw [hstore, extract_word_content, toUInt16_and, hand] at h1
  have hword : (((register &&& 0xFF) <<< 16) ||| (value &&& (0xFFFF : UInt32))) &&& (0xFF0000 : UInt32) = register <<< 16 := by
    rw [word_and, hand, hclear]
  refine wp_readOut hafe hregister hword pure s1 fun t ht => ?_
  obtain ⟨-, hcells, hwritten⟩ := readOut hregister (registersOf b afe s1)
  rw [hword] at ht
  have hcells1 : (registersOf b afe s1).cells = Function.update (registersOf b afe s).cells register.toNat value.toUInt16 := by
    rw [h1.registers]
  have hwritten1 : (registersOf b afe s1).written = Function.update (registersOf b afe s).written register.toNat true := by
    rw [h1.registers]
  refine ⟨?_, ht.driver.trans h1.driver, ?_, fun k hk => ?_, fun a ha => (ht.others a ha).trans (h1.others a ha)⟩
  · rw [hcells1, Function.update_self]
  · -- Register 0 is cleared, whether it is the one that is written or not.
    rw [ht.registers, hcells, hcells1, settled]
    split
    · rename_i hzero
      rw [hzero, Function.update_idem]
    · rename_i hne
      rw [Function.update_comm hne, ← hidle, Function.update_eq_self]
  · rw [ht.registers, hwritten, hwritten1] at hk
    by_cases hzero : k = 0
    · exact Or.inr (Or.inr hzero)
    · rw [Function.update_of_ne hzero] at hk
      by_cases hregister : k = register.toNat
      · exact Or.inr (Or.inl hregister)
      · rw [Function.update_of_ne hregister] at hk
        exact Or.inl hk

/-! ### Functions -/

theorem settled_zero (content : UInt16) : settled 0 content = 0 := if_pos rfl

theorem Holds.idle {register : Nat} {content : UInt16} (h : Holds b afe register (settled register content) s t)
    (hidle : (registersOf b afe s).cells 0 = 0) : (registersOf b afe t).cells 0 = 0 := by
  rw [h.cells]
  by_cases hzero : register = 0
  · rw [hzero, Function.update_self, settled_zero]
  · rw [Function.update_of_ne (Ne.symm hzero), hidle]

theorem Holds.after_readOut {register : Nat} {content : UInt16} (h : Holds b afe 0 0 s t)
    (hidle : (registersOf b afe s).cells 0 = 0) (h' : Holds b afe register content t u) : Holds b afe register content s u := by
  refine ⟨h'.driver.trans h.driver, ?_, fun k hk => ?_, fun a ha => (h'.others a ha).trans (h.others a ha)⟩
  · rw [h'.cells, h.cells, ← hidle, Function.update_eq_self]
  · rcases h'.written k hk with hk | hk
    · rcases h.written k hk with hk | hk | hk
      · exact Or.inl hk
      · exact Or.inr (Or.inr hk)
      · exact Or.inr (Or.inr hk)
    · exact Or.inr hk

theorem Holds.before_readOut {register : Nat} {content : UInt16} (h : Holds b afe register content s t)
    (hidle : (registersOf b afe t).cells 0 = 0) (h' : Holds b afe 0 0 t u) : Holds b afe register content s u := by
  refine ⟨h'.driver.trans h.driver, ?_, fun k hk => ?_, fun a ha => (h'.others a ha).trans (h.others a ha)⟩
  · rw [h'.cells, ← hidle, Function.update_eq_self, h.cells]
  · rcases h'.written k hk with hk | hk | hk
    · exact h.written k hk
    · exact Or.inr (Or.inr hk)
    · exact Or.inr (Or.inr hk)

/-- What a register holds after a field of it was replaced. -/
def fieldContent (undefinedMask : UInt32) (content : UInt16) (msb lsb : Nat) (value : UInt16) : UInt16 :=
  (withField (fieldMask undefinedMask msb lsb) lsb content.toUInt32 value).toUInt16

theorem wp_setField (hafe : afe < 5) {register : UInt32} (hregister : register ∈ registerList)
    (hidle : (registersOf b afe s).cells 0 = 0) (undefinedMask : UInt32) (msb lsb : Nat) (value : UInt16) :
    wp (setField b.env undefinedMask afe register msb lsb value)
      (fun _ t => Holds b afe register.toNat (settled register.toNat
        (fieldContent undefinedMask ((registersOf b afe s).cells register.toNat) msb lsb value)) s t)
      (fun e _ => e = Spi.timeout) s := by
  refine wp_bind.mpr (wp_mono (wp_getRegister hafe hregister hidle) (fun v s1 h1 => ?_) fun _ _ h => h)
  obtain ⟨rfl, h1⟩ := h1
  have hidle1 : (registersOf b afe s1).cells 0 = 0 := (show Holds b afe 0 (settled 0 0) s s1 from h1).idle hidle
  refine wp_bind.mpr (wp_mono (wp_setRegister hafe hregister hidle1 _) (fun _ s2 h2 => ?_) fun _ _ h => h)
  have hidle2 := h2.2.idle hidle1
  refine wp_bind.mpr (wp_mono (wp_getRegister hafe hregister hidle2) (fun _ t h3 => ?_) fun _ _ h => h)
  exact (h1.after_readOut hidle h2.2).before_readOut hidle2 h3.2

/-- The field that `setAFEFunction` writes, if it does not throw first. -/
def functionField (functionName : String) (value : UInt16) : Option (UInt32 × Nat × Nat) :=
  match afeFunctionAvailableOptionsDict.lookup functionName with
  | none => none
  | some options => if accepts options value = false then none else afeFunctionDict.lookup functionName

theorem functionField_listed {functionName : String} {value : UInt16} {register : UInt32} {msb lsb : Nat}
    (h : functionField functionName value = some (register, msb, lsb)) : register ∈ registerList := by
  have hall : ∀ entry ∈ afeFunctionDict, entry.2.1 ∈ registerList := by decide
  unfold functionField at h
  split at h
  · cases h
  split at h
  · cases h
  · obtain ⟨before, after, hdict, -⟩ := List.lookup_eq_some_iff.mp h
    exact hall (functionName, register, msb, lsb) (by rw [hdict]; simp)

theorem setAFEFunction_eq {env : Env Nat UInt32} {undefinedMask : UInt32} {functionName : String} {value : UInt16}
    {register : UInt32} {msb lsb : Nat} (h : functionField functionName value = some (register, msb, lsb)) :
    setAFEFunction env undefinedMask afe functionName value =
      (setField env undefinedMask afe register msb lsb value : Prog Nat UInt32 Daphne UInt32) := by
  unfold functionField at h
  unfold setAFEFunction
  cases hoptions : afeFunctionAvailableOptionsDict.lookup functionName with
  | none =>
    rw [hoptions] at h
    cases h
  | some options =>
    rw [hoptions] at h
    dsimp only at h ⊢
    by_cases haccepts : accepts options value = false
    · rw [if_pos haccepts] at h
      cases h
    · rw [if_neg haccepts] at h ⊢
      rw [h]

theorem setAFEFunction_throws (env : Env Nat UInt32) (undefinedMask : UInt32) (afe : Nat) {functionName : String}
    {value : UInt16} (h : functionField functionName value = none) :
    ∃ e, setAFEFunction env undefinedMask afe functionName value = (throw e : Prog Nat UInt32 Daphne UInt32) := by
  unfold functionField at h
  unfold setAFEFunction
  cases hoptions : afeFunctionAvailableOptionsDict.lookup functionName with
  | none => exact ⟨_, rfl⟩
  | some options =>
    rw [hoptions] at h
    dsimp only at h ⊢
    by_cases haccepts : accepts options value = false
    · rw [if_pos haccepts]
      exact ⟨_, rfl⟩
    · rw [if_neg haccepts] at h ⊢
      rw [h]
      exact ⟨_, rfl⟩

end
end Afe
end DaphneZmq
