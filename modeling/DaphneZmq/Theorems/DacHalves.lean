import DaphneZmq.Theorems.Dac

/-! # Both halves of a DAC word at once

`setDacTrimOffset` packs each half as `updateCurrentRegister` does, but what it sends are the low 16 bits of the values.
These have the format of a half if their bits 12 to 15 are the channel and the flags already. -/

namespace DaphneZmq
open Lib Lib.Device

/-! ### A write of data that returns -/

namespace Spi
variable {D : Type} {b : SpiBench} {s t : State Nat UInt32 D} {f : BitField}

/-- The write is the last one. -/
theorem setData_ok (hf : f.addr ≠ afeGlobalControlBusy.addr) (hlow : f.low = 0) (hhigh : f.high = 31) {value v : UInt32}
    (h : setData b.env f value s = .ok v t) :
    t.driver = s.driver ∧ ∃ before reads, t.writes = s.writes ++ [⟨before, reads, f.addr, value⟩] := by
  have hwrite : ∀ t : State Nat UInt32 D, wp (Reg.writeBits b.env f value) (fun _ u => u = Reg.afterWriteBits t f value)
      (fun _ _ => True) t := fun t => by
    refine wp_mono (Takes.run (G := .logs) (Reg.takes_writeBits (driven_of_ne hf) ?_ rfl)) (fun _ u hu => hu.2.2.2) fun _ _ _ => trivial
    exact List.prefix_append _ _
  refine wp_ok (Q := fun _ t => t.driver = s.driver ∧ ∃ before reads, t.writes = s.writes ++ [⟨before, reads, f.addr, value⟩])
    (E := fun _ _ => True) ?_ h
  refine wp_bind.mpr (wp_mono ((does_quiet_waitNotBusy b.env).run s) (fun _ t hquiet => ?_) fun _ _ _ => trivial)
  refine wp_bind.mpr (wp_mono (hwrite t) ?_ fun _ _ _ => trivial)
  rintro _ _ rfl
  refine wp_bind.mpr (wp_mono ((does_quiet_waitNotBusy b.env).run _) (fun _ u hquiet' => ?_) fun _ _ _ => trivial)
  refine ⟨hquiet'.driver.trans hquiet.driver, t.cells, t.reads, ?_⟩
  rw [hquiet'.writes, Reg.afterWriteBits, insert_all hlow hhigh, hquiet.writes]

theorem setData_idle (s : State Nat UInt32 D) (hf : f.addr ≠ afeGlobalControlBusy.addr) (value : UInt32) :
    ∃ v t, setData Dac.idleBench.env f value s = .ok v t := by
  have hfaults : ∀ n, Dac.idleBench.env.faults n = none := fun _ => rfl
  have hdriven : Dac.idleBench.env.driven afeGlobalControlBusy.addr = some fun _ _ => 0 := rfl
  have hbusy : ∀ s : State Nat UInt32 D, isBusy Dac.idleBench.env s = .ok false (s.afterRead afeGlobalControlBusy.addr) := fun s => by
    rw [isBusy, Reg.readBits, bind_assoc, bind_ok (read_driven_eq hfaults hdriven s)]
    rfl
  have hwait : ∀ s : State Nat UInt32 D, waitNotBusy Dac.idleBench.env s = .ok () (s.afterRead afeGlobalControlBusy.addr) := fun s => by
    show pollNotBusy Dac.idleBench.env 0 s = _
    rw [pollNotBusy, bind_ok (hbusy s)]
    rfl
  rw [setData, bind_ok (hwait s), bind_ok (Reg.writeBits_eq hfaults (driven_of_ne hf) value _), bind_ok (hwait _)]
  exact ⟨_, _, rfl⟩

end Spi

namespace Dac
open Spi
variable {b : SpiBench} {s : DriverState} {kind : Kind} {afe ch : Nat} {value word : UInt32} {gain buffer : Bool}

/-- A run returns, and the last write is the word, to the address. -/
def Programs (prog : Prog Nat UInt32 ChannelValues UInt32) (s : DriverState) (addr : Nat) (word : UInt32) : Prop :=
  ∃ v t writes before reads, prog s = .ok v t ∧ t.writes = writes ++ [⟨before, reads, addr, word⟩]

/-- A half decodes to the channel of its chip, the flags and the low bits of the value. -/
structure Decodes (half : UInt32) (ch : Nat) (value : UInt32) (gain buffer : Bool) : Prop where
  address : addressOf half = (mapped ch).2
  setting : settingOf half = ⟨value &&& 0xFFF, gain, buffer⟩

/-- Both halves of a word decode. -/
structure WordDecodes (word : UInt32) (chH : Nat) (valueH : UInt32) (chL : Nat) (valueL : UInt32) (gain buffer : Bool) : Prop where
  high : Decodes (halfOf word .H) chH valueH gain buffer
  low : Decodes (halfOf word .L) chL valueL gain buffer

/-- The words that the two ways leave decode alike, whichever channel `updateCurrentRegister` programs first. -/
structure SameFormat (kind : Kind) (afe chH : Nat) (valueH : UInt32) (chL : Nat) (valueL : UInt32) (gain buffer : Bool) : Prop where
  atOnce : ∀ (b : SpiBench) (s : DriverState) (word : UInt32),
    Programs (setDacTrimOffset b.env kind afe chH valueH chL valueL gain buffer) s (registerData kind afe).addr word →
      WordDecodes word chH valueH chL valueL gain buffer
  highFirst : ∀ (b : SpiBench) (s : DriverState) (word : UInt32),
    Programs (do
      let _ ← updateCurrentRegister b.env kind afe chH valueH gain buffer
      updateCurrentRegister b.env kind afe chL valueL gain buffer) s (registerData kind afe).addr word →
      WordDecodes word chH valueH chL valueL gain buffer
  lowFirst : ∀ (b : SpiBench) (s : DriverState) (word : UInt32),
    Programs (do
      let _ ← updateCurrentRegister b.env kind afe chL valueL gain buffer
      updateCurrentRegister b.env kind afe chH valueH gain buffer) s (registerData kind afe).addr word →
      WordDecodes word chH valueH chL valueL gain buffer

/-! ### The flags of a half -/

def flagBits : BitField := { addr := 0, low := 12, high := 15 }

theorem insert_flagBits (data : UInt32) : flagBits.insert 0 data = (data &&& 0xF : UInt32) <<< 12 := by
  have hmask : flagBits.mask = 0xF := by decide
  rw [BitField.insert, hmask, UInt32.zero_and, UInt32.zero_or]
  rfl

theorem and_flagBits (word : UInt32) : (word &&& 0xF000 : UInt32) = flagBits.extract word <<< 12 := by
  have hmask : flagBits.mask = 0xF := by decide
  have hself : (flagBits.extract word &&& 0xF : UInt32) = flagBits.extract word := by
    rw [BitField.extract, hmask, UInt32.and_assoc, UInt32.and_self]
  have hbits : (0xF000 : UInt32) = flagBits.insert 0 0xF := by decide
  rw [← hself, ← insert_flagBits, hbits]
  refine BitField.eq_of_testBit fun i hi => ?_
  rw [UInt32.toNat_and, Nat.testBit_and, BitField.testBit_insert hi, BitField.testBit_insert hi, BitField.testBit_extract]
  by_cases hin : flagBits.low ≤ i ∧ i < flagBits.low + flagBits.width
  · have hones : (0xF : UInt32).toNat.testBit (i - flagBits.low) = true := by
      show (2 ^ 4 - 1).testBit _ = true
      rw [Nat.testBit_two_pow_sub_one]
      simp only [flagBits, BitField.width] at hin ⊢
      exact decide_eq_true (by omega)
    rw [if_pos hin, if_pos hin, hones, Nat.add_sub_of_le hin.1, decide_eq_true (by omega)]
  · rw [if_neg hin, if_neg hin]
    simp

theorem addressOf_and (half : UInt32) {m : UInt32} (hm : m >>> 14 = 3) : addressOf (half &&& m) = addressOf half := by
  rw [addressOf, addressOf, UInt32.shiftRight_and, hm, UInt32.toNat_and]
  show ((half >>> 14).toNat &&& (2 ^ 2 - 1)) % 4 = _
  rw [Nat.and_two_pow_sub_one_eq_mod, Nat.mod_mod]

/-- The channel and the flags are bits 12 to 15. -/
theorem flags_eq (half : UInt32) :
    flags (addressOf half) (half &&& 0x2000 ≠ 0) (half &&& 0x1000 ≠ 0) = (half &&& 0xF000 : UInt32) := by
  have hpack : ∀ n < 16, flags (addressOf (UInt32.ofNat n <<< 12)) ((UInt32.ofNat n <<< 12 &&& 0x2000 : UInt32) ≠ 0)
      ((UInt32.ofNat n <<< 12 &&& 0x1000 : UInt32) ≠ 0) = UInt32.ofNat n <<< 12 := by
    decide
  have hmask : ∀ m, (0xF000 &&& m : UInt32) = m → (half &&& m : UInt32) = half &&& 0xF000 &&& m := fun m hm => by
    rw [UInt32.and_assoc, hm]
  rw [← addressOf_and half (m := 0xF000) (by decide), hmask 0x2000 (by decide), hmask 0x1000 (by decide), and_flagBits,
    ← UInt32.ofNat_toNat (x := flagBits.extract half)]
  exact hpack _ (BitField.extract_lt flagBits half)

theorem decodes_channelData (hch : (mapped ch).2 < 4) (value : UInt32) (gain buffer : Bool) :
    Decodes (channelData ch value gain buffer &&& 0xFFFF) ch value gain buffer := by
  have hlow : channelData ch value gain buffer = channelData ch (value &&& 0xFFF) gain buffer := by
    rw [channelData_eq, channelData_eq, UInt32.and_assoc, UInt32.and_self]
  have hlt : value &&& 0xFFF < 0x1000 := UInt32.lt_of_le_of_lt UInt32.and_le_right (by decide)
  rw [hlow, channelData_half ⟨value &&& 0xFFF, gain, buffer⟩ hch]
  exact ⟨addressOf_channelData ⟨value &&& 0xFFF, gain, buffer⟩ hch, settingOf_channelData ⟨value &&& 0xFFF, gain, buffer⟩ hch hlt⟩

/-- The low bits of a value are a half for it if they have the flags already. -/
theorem decodes_value_iff (hch : (mapped ch).2 < 4) : Decodes (value &&& 0xFFFF) ch value gain buffer ↔
    (value &&& 0xF000 : UInt32) = flags (mapped ch).2 gain buffer := by
  have hmask : ∀ m, (0xFFFF &&& m : UInt32) = m → (value &&& 0xFFFF &&& m : UInt32) = value &&& m := fun m hm => by
    rw [UInt32.and_assoc, hm]
  have hsetting : settingOf (value &&& 0xFFFF) = ⟨value &&& 0xFFF, value &&& 0x2000 ≠ 0, value &&& 0x1000 ≠ 0⟩ := by
    rw [settingOf, hmask 0xFFF (by decide), hmask 0x2000 (by decide), hmask 0x1000 (by decide)]
  constructor
  · rintro ⟨haddress, hset⟩
    rw [hsetting, Setting.mk.injEq] at hset
    rw [addressOf_and value (by decide)] at haddress
    rw [← flags_eq, haddress, hset.2.1, hset.2.2]
  · intro hflags
    obtain ⟨-, -, hgain, hbuffer, haddress⟩ := flags_spec _ hch gain buffer
    have hbits : ∀ m, (0xF000 &&& m : UInt32) = m → (value &&& m : UInt32) = flags (mapped ch).2 gain buffer &&& m :=
      fun m hm => by rw [← hflags, UInt32.and_assoc, hm]
    constructor
    · rw [addressOf_and value (by decide), ← addressOf_and value (m := 0xF000) (by decide), hflags]
      exact haddress
    · rw [hsetting, hbits 0x2000 (by decide), hbits 0x1000 (by decide), hgain, hbuffer]

/-! ### The words -/

theorem lt_of_mapped {pos : Position} (h : (mapped ch).1 = some pos) : ch < 8 ∧ position ch = pos := by
  have hlt : ch < 8 := by
    by_contra hge
    have hnone : channelMapping.lookup ch = none :=
      List.lookup_eq_none_iff.mpr fun entry hentry => by
        have hall : ∀ entry ∈ channelMapping, entry.1 < 8 := by decide
        simpa using fun heq => absurd (hall entry hentry) (by omega)
    simp [mapped, hnone] at h
  rw [mapped_eq hlt] at h
  exact ⟨hlt, Option.some.inj h⟩

theorem setData_register_ok {v : UInt32} {t : DriverState} (h : setData b.env (registerData kind afe) value s = .ok v t) :
    t.driver = s.driver ∧
      ∃ before reads, t.writes = s.writes ++ [⟨before, reads, (registerData kind afe).addr, value⟩] :=
  setData_ok (registerData_ne kind afe) (registerData_low ..) (registerData_high ..) h

theorem Programs.unique {prog : Prog Nat UInt32 ChannelValues UInt32} {addr : Nat} {w : UInt32} {v : UInt32} {t : DriverState}
    {writes : List (Write Nat UInt32)} {before : Nat → UInt32} {reads : Nat → Nat} (h : Programs prog s addr w)
    (hok : prog s = .ok v t) (hwrites : t.writes = writes ++ [⟨before, reads, addr, word⟩]) : w = word := by
  obtain ⟨v', t', writes', before', reads', hok', hwrites'⟩ := h
  obtain ⟨rfl, rfl⟩ := EStateM.Result.ok.inj (hok.symm.trans hok')
  have hlast := congrArg List.getLast? (hwrites'.symm.trans hwrites)
  rw [List.getLast?_concat, List.getLast?_concat, Option.some.injEq, Write.mk.injEq] at hlast
  exact hlast.2.2.2

theorem setDacTrimOffset_word {chH chL : Nat} {valueH valueL : UInt32}
    (h : Programs (setDacTrimOffset b.env kind afe chH valueH chL valueL gain buffer) s (registerData kind afe).addr word) :
    halfOf word .H = valueH &&& 0xFFFF ∧ halfOf word .L = valueL &&& 0xFFFF := by
  have ⟨v, t, _, _, _, hok, _⟩ := h
  obtain ⟨-, before, reads, hwrites⟩ := setData_register_ok hok
  rw [h.unique hok hwrites, halfOf_H, halfOf_L]
  exact ⟨rfl, rfl⟩

/-- A call that returns keeps the half of its channel, and sends it with the half of the companion. -/
theorem updateCurrentRegister_ok (hafe : afe < 5) (hch : ch < 8) {v : UInt32} {t : DriverState}
    (h : updateCurrentRegister b.env kind afe ch value gain buffer s = .ok v t) :
    t.driver = s.driver.set kind afe ch (channelData ch value gain buffer) ∧
      ∃ before reads word, t.writes = s.writes ++ [⟨before, reads, (registerData kind afe).addr, word⟩] ∧
        halfOf word (position ch) = channelData ch value gain buffer &&& 0xFFFF ∧
        halfOf word (position ((ch + 4) % 8)) = s.driver kind afe ((ch + 4) % 8) &&& 0xFFFF := by
  obtain ⟨word, hhalf, hcomp, hsends⟩ := updateCurrentRegister_sends b.env kind hafe hch value gain buffer s
  rw [hsends] at h
  obtain ⟨hdriver, before, reads, hwrites⟩ := setData_register_ok h
  exact ⟨hdriver, before, reads, word, hwrites, hhalf, hcomp⟩

/-- The word that two companions leave, one after the other. -/
theorem updateCurrentRegister_pair (hafe : afe < 5) {comp : Nat} (hch : ch < 8) (hcomp : comp = (ch + 4) % 8) {value' : UInt32}
    (h : Programs (do
      let _ ← updateCurrentRegister b.env kind afe ch value gain buffer
      updateCurrentRegister b.env kind afe comp value' gain buffer) s (registerData kind afe).addr word) :
    halfOf word (position ch) = channelData ch value gain buffer &&& 0xFFFF ∧
      halfOf word (position comp) = channelData comp value' gain buffer &&& 0xFFFF := by
  have hcomp_lt : comp < 8 := by omega
  have ⟨v, u, _, _, _, hok, _⟩ := h
  obtain ⟨v', t, hfirst, hsecond⟩ := bind_eq_ok hok
  obtain ⟨hdriver, -⟩ := updateCurrentRegister_ok hafe hch hfirst
  obtain ⟨-, before, reads, word', hwrites, hhalf, hother⟩ := updateCurrentRegister_ok hafe hcomp_lt hsecond
  have hback : (comp + 4) % 8 = ch := by omega
  rw [hback, hdriver, ChannelValues.set, if_pos ⟨rfl, rfl, rfl⟩] at hother
  rw [h.unique hok hwrites]
  exact ⟨hother, hhalf⟩

theorem programs_idle (s : DriverState) (kind : Kind) (afe chH chL : Nat) (valueH valueL : UInt32) (gain buffer : Bool) :
    ∃ word, Programs (setDacTrimOffset idleBench.env kind afe chH valueH chL valueL gain buffer) s (registerData kind afe).addr word := by
  obtain ⟨v, t, hok⟩ := setData_idle s (registerData_ne kind afe) (((valueH &&& 0xFFFF) <<< 16) ||| (valueL &&& 0xFFFF))
  obtain ⟨-, before, reads, hwrites⟩ := setData_register_ok hok
  exact ⟨_, v, t, s.writes, before, reads, hok, hwrites⟩

/-- The two ways agree on a channel and its companion if and only if the values have the channel and the flags in their
    bits 12 to 15. -/
theorem sameFormat_iff (hafe : afe < 5) {chH chL : Nat} (hH : (mapped chH).1 = some .H) (hL : chL = findCompanionChannelValue chH)
    (valueH valueL : UInt32) : SameFormat kind afe chH valueH chL valueL gain buffer ↔
      (valueH &&& 0xF000 : UInt32) = flags (mapped chH).2 gain buffer ∧
        (valueL &&& 0xF000 : UInt32) = flags (mapped chL).2 gain buffer := by
  obtain ⟨hlt, hposH⟩ := lt_of_mapped hH
  rw [companion_eq hlt] at hL
  have hposL : position chL = .L := by rw [hL, position_companion hlt, hposH]; rfl
  have hltL : chL < 8 := by omega
  have hback : chH = (chL + 4) % 8 := by omega
  have hchipH : (mapped chH).2 < 4 := by rw [mapped_eq hlt]; exact Nat.mod_lt _ (by decide)
  have hchipL : (mapped chL).2 < 4 := by rw [mapped_eq hltL]; exact Nat.mod_lt _ (by decide)
  rw [← decodes_value_iff hchipH, ← decodes_value_iff hchipL]
  constructor
  · intro hsame
    obtain ⟨word, hword⟩ := programs_idle (construct (fun _ => 0) (fun _ => 0) 0) kind afe chH chL valueH valueL gain buffer
    obtain ⟨hhigh, hlow⟩ := setDacTrimOffset_word hword
    have hdecodes := hsame.atOnce idleBench _ word hword
    rw [← hhigh, ← hlow]
    exact ⟨hdecodes.high, hdecodes.low⟩
  · rintro ⟨hhigh, hlow⟩
    have hpacked : ∀ word, halfOf word (position chH) = channelData chH valueH gain buffer &&& 0xFFFF →
        halfOf word (position chL) = channelData chL valueL gain buffer &&& 0xFFFF →
        WordDecodes word chH valueH chL valueL gain buffer := by
      intro word hwordH hwordL
      rw [hposH] at hwordH
      rw [hposL] at hwordL
      constructor
      · rw [hwordH]
        exact decodes_channelData hchipH valueH gain buffer
      · rw [hwordL]
        exact decodes_channelData hchipL valueL gain buffer
    constructor
    · intro b s word hword
      obtain ⟨hwordH, hwordL⟩ := setDacTrimOffset_word hword
      constructor
      · rw [hwordH]
        exact hhigh
      · rw [hwordL]
        exact hlow
    · intro b s word hword
      obtain ⟨hwordH, hwordL⟩ := updateCurrentRegister_pair hafe hlt hL hword
      exact hpacked word hwordH hwordL
    · intro b s word hword
      obtain ⟨hwordL, hwordH⟩ := updateCurrentRegister_pair hafe hltL hback hword
      exact hpacked word hwordH hwordL

theorem noFlags_sameFormat : SameFormat .trim 0 4 100 0 200 false false :=
  (sameFormat_iff (by decide) (by decide) (by decide) 100 200).mpr (by decide)

/-- Channels 5 and 1 have chip channel 1, and the value 100 addresses chip channel 0. -/
theorem channel5_not_sameFormat : ¬∀ (kind : Kind) (afe chH chL : Nat) (valueH valueL : UInt32) (gain buffer : Bool), afe < 5 →
    (mapped chH).1 = some .H → chL = findCompanionChannelValue chH → SameFormat kind afe chH valueH chL valueL gain buffer := by
  intro h
  obtain ⟨word, hword⟩ := programs_idle (construct (fun _ => 0) (fun _ => 0) 0) .trim 0 5 1 100 200 false false
  have hdecodes := ((h .trim 0 5 1 100 200 false false (by decide) (by decide) (by decide)).atOnce idleBench _ word hword).high
  rw [(setDacTrimOffset_word hword).1] at hdecodes
  exact absurd hdecodes.address (by decide)

end Dac
end DaphneZmq
