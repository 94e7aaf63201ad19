import DaphneZmq.Dac
import Mathlib.Data.List.Induction

/-! What the trim and offset DACs hold after a sequence of calls. The halves that the driver keeps are those of the
    last calls, but a channel that was never named has the half 0, and this half addresses channel 0 of its chip. -/

namespace DaphneZmq
open Lib Lib.Device
namespace Dac

/-! ### Halves of words -/

theorem or_and (a b c : UInt32) : (a ||| b) &&& c = (a &&& c) ||| (b &&& c) :=
  BitField.eq_of_testBit fun i _ => by simp [Bool.and_or_distrib_right]

/-- The half without the value. -/
def flags (chipCh : Nat) (gain buffer : Bool) : UInt32 :=
  ((UInt32.ofNat chipCh &&& 0x3) <<< 14) ||| (gain.toUInt32 <<< 13) ||| (buffer.toUInt32 <<< 12)

theorem channelData_eq (ch : Nat) (value : UInt32) (gain buffer : Bool) :
    channelData ch value gain buffer = flags (mapped ch).2 gain buffer ||| (value &&& 0xFFF) := rfl

theorem channelData_and {ch : Nat} {value : UInt32} {gain buffer : Bool} {m : UInt32} (hmask : 0xFFF &&& m = 0) :
    channelData ch value gain buffer &&& m = flags (mapped ch).2 gain buffer &&& m := by
  rw [channelData_eq, or_and, UInt32.and_assoc, hmask, UInt32.and_zero, UInt32.or_zero]

theorem flags_spec : ∀ chipCh < 4, ∀ gain buffer : Bool,
    flags chipCh gain buffer &&& 0xFFF = 0 ∧ flags chipCh gain buffer &&& 0xFFFF = flags chipCh gain buffer ∧
      decide (flags chipCh gain buffer &&& 0x2000 ≠ 0) = gain ∧ decide (flags chipCh gain buffer &&& 0x1000 ≠ 0) = buffer ∧
      (flags chipCh gain buffer >>> 14).toNat % 4 = chipCh := by
  decide

variable {ch : Nat} {st : Setting}

theorem settingOf_channelData (st : Setting) (hch : (mapped ch).2 < 4) (hst : st.value < 0x1000) :
    settingOf (channelData ch st.value st.gain st.buffer) = st := by
  obtain ⟨hlow, -, hgain, hbuffer, -⟩ := flags_spec _ hch st.gain st.buffer
  have hvalue : st.value &&& 0xFFF = st.value := by
    have hmask : (BitField.mk 0 0 11 (by decide) (by decide)).mask = 0xFFF := by decide
    rw [← hmask]
    exact BitField.and_mask_of_lt (UInt32.lt_iff_toNat_lt.mp hst)
  rw [settingOf, channelData_and (m := 0x2000) (by decide), channelData_and (m := 0x1000) (by decide), hgain, hbuffer,
    channelData_eq, or_and, hlow, UInt32.and_assoc, UInt32.and_self, UInt32.zero_or, hvalue]

theorem addressOf_channelData (st : Setting) (hch : (mapped ch).2 < 4) :
    addressOf (channelData ch st.value st.gain st.buffer) = (mapped ch).2 := by
  obtain ⟨-, -, -, -, haddress⟩ := flags_spec _ hch st.gain st.buffer
  have hvalue : (st.value &&& 0xFFF) >>> 14 = 0 := by
    rw [UInt32.shiftRight_and, show (0xFFF : UInt32) >>> 14 = 0 by decide, UInt32.and_zero]
  rw [addressOf, channelData_eq, UInt32.shiftRight_or, hvalue, UInt32.or_zero, haddress]

theorem channelData_half (st : Setting) (hch : (mapped ch).2 < 4) :
    channelData ch st.value st.gain st.buffer &&& 0xFFFF = channelData ch st.value st.gain st.buffer := by
  obtain ⟨-, hflags, -⟩ := flags_spec _ hch st.gain st.buffer
  rw [channelData_eq, or_and, hflags, UInt32.and_assoc, show (0xFFF : UInt32) &&& 0xFFFF = 0xFFF by decide]

def highHalf : BitField := { addr := 0, low := 16, high := 31 }
def lowHalf : BitField := { addr := 0, low := 0, high := 15 }

theorem word_eq (high low : UInt32) :
    ((high &&& 0xFFFF) <<< 16) ||| (low &&& 0xFFFF) = highHalf.insert (low &&& 0xFFFF) high := by
  have hmask : highHalf.mask = 0xFFFF := by decide
  have hkeep : (0xFFFF : UInt32) &&& ~~~(0xFFFF <<< UInt32.ofNat highHalf.low) = 0xFFFF := by decide
  rw [BitField.insert, hmask, UInt32.and_assoc, hkeep, UInt32.or_comm]
  rfl

theorem halfOf_H (high low : UInt32) : halfOf (((high &&& 0xFFFF) <<< 16) ||| (low &&& 0xFFFF)) .H = high &&& 0xFFFF := by
  have hmask : highHalf.mask = 0xFFFF := by decide
  have hextract : ∀ word, halfOf word .H = highHalf.extract word := fun word => by
    refine (BitField.and_mask_of_lt ?_).symm
    show (word >>> 16).toNat < 2 ^ 16
    rw [UInt32.toNat_shiftRight, Nat.shiftRight_eq_div_pow]
    exact Nat.div_lt_of_lt_mul word.toNat_lt
  rw [hextract, word_eq, BitField.extract_insert, hmask]

theorem halfOf_L (high low : UInt32) : halfOf (((high &&& 0xFFFF) <<< 16) ||| (low &&& 0xFFFF)) .L = low &&& 0xFFFF := by
  have hmask : lowHalf.mask = 0xFFFF := by decide
  have hextract : ∀ word, halfOf word .L = lowHalf.extract word := fun word => by
    rw [BitField.extract, hmask, show UInt32.ofNat lowHalf.low = 0 from rfl, UInt32.shiftRight_zero]
    rfl
  rw [hextract, word_eq, BitField.extract_insert_of_disjoint (Or.inl (by decide)), ← hextract, halfOf, UInt32.and_assoc,
    UInt32.and_self]

end Dac

/-! ### SPI -/

namespace Spi
variable {D : Type} {b : SpiBench} {s : State Nat UInt32 D} {f : BitField}

def Busy (word : UInt32) : Prop := afeGlobalControlBusy.extract word ≠ 0

instance (word : UInt32) : Decidable (Busy word) := inferInstanceAs (Decidable (_ ≠ _))

/-- How often `afeGlobalControl` has been read. -/
def controlReads (s : State Nat UInt32 D) : Nat := s.reads afeGlobalControlBusy.addr

/-- The `k`-th poll from the state is the first one that finds the SPI idle. -/
def FirstIdle (b : SpiBench) (s : State Nat UInt32 D) (k : Nat) : Prop :=
  First (fun j => ¬Busy (b.control (controlReads s + j))) k

/-- A write of data from the state gets to the register: the SPI is idle within the polls, and no access up to the
    write throws. -/
def GetsThrough (b : SpiBench) (s : State Nat UInt32 D) : Prop :=
  ∃ k ≤ b.polls s.accesses, FirstIdle b s k ∧ b.env.Clear s.accesses (k + 1 + 2)

theorem driven_of_ne {a : Nat} (ha : a ≠ afeGlobalControlBusy.addr) : b.env.driven a = none := if_neg ha

theorem takes_isBusy :
    Takes b.env .quiet 1 (isBusy b.env) (fun busy t => (busy = true ↔ Busy (b.control (controlReads s))) ∧
      controlReads t = controlReads s + 1) s := by
  have hdriven : b.env.driven afeGlobalControlBusy.addr = some fun _ => b.control := rfl
  have hquiet : Effect.quiet.Rel s (s.afterRead afeGlobalControlBusy.addr) := ⟨rfl, rfl, rfl⟩
  have hread : Takes b.env .quiet 1 (Reg.readBits b.env afeGlobalControlBusy) (fun value t =>
      value = afeGlobalControlBusy.extract (b.control (controlReads s)) ∧ controlReads t = controlReads s + 1) s := by
    refine (takes_read_driven hdriven hquiet (R := fun word t =>
      word = b.control (controlReads s) ∧ controlReads t = controlReads s + 1) ⟨rfl, ?_⟩).bind (k := 0) ?_
    · rw [controlReads, State.afterRead_reads, Function.update_self, controlReads]
    · rintro _ t ⟨rfl, ht⟩
      exact takes_pure _ ⟨rfl, ht⟩
  refine hread.bind (k := 0) ?_
  rintro _ t ⟨rfl, ht⟩
  exact takes_pure _ ⟨bne_iff_ne, ht⟩

theorem does_quiet_pollNotBusy (env : Env Nat UInt32) : ∀ polls, Does .quiet (pollNotBusy env polls : Prog Nat UInt32 D Unit)
  | 0 => ((Reg.does_quiet_readBits _).bind fun _ => does_pure _).bind fun busy => by
    split
    · exact does_throw _
    · exact does_pure _
  | polls + 1 => ((Reg.does_quiet_readBits _).bind fun _ => does_pure _).bind fun busy => by
    split
    · exact does_quiet_pollNotBusy env polls
    · exact does_pure _

theorem does_quiet_waitNotBusy (env : Env Nat UInt32) : Does .quiet (waitNotBusy env : Prog Nat UInt32 D Unit) :=
  ⟨fun s => (does_quiet_pollNotBusy env (env.polls s.accesses)).run s⟩

theorem takes_pollNotBusy {k : Nat} : ∀ {polls : Nat} {s : State Nat UInt32 D}, k ≤ polls → FirstIdle b s k →
    Takes b.env .quiet (k + 1) (pollNotBusy b.env polls) (fun _ _ => True) s := by
  induction k with
  | zero =>
    intro polls s _ hfirst
    cases polls with
    | zero =>
      refine takes_isBusy.bind (k := 0) fun busy t ht => ?_
      rw [if_neg (mt ht.1.mp hfirst.holds)]
      exact takes_pure _ trivial
    | succ polls =>
      refine takes_isBusy.bind (k := 0) fun busy t ht => ?_
      rw [if_neg (mt ht.1.mp hfirst.holds)]
      exact takes_pure _ trivial
  | succ k ih =>
    rintro (_ | polls) s hle hfirst
    · omega
    · rw [Nat.add_comm (k + 1) 1]
      refine takes_isBusy.bind fun busy t ht => ?_
      rw [if_pos (ht.1.mpr (not_not.mp (hfirst.not_before 0 (by omega))))]
      refine ih (by omega) ?_
      have htail := First.tail hfirst
      simp only [FirstIdle, ht.2, Nat.add_assoc, Nat.add_comm 1]
      exact htail

theorem pollNotBusy_busy {polls : Nat} : ∀ {s : State Nat UInt32 D}, (∀ j ≤ polls, Busy (b.control (controlReads s + j))) →
    wp (pollNotBusy b.env polls) (fun _ _ => False) (fun _ t => Quiet s t) s := by
  induction polls with
  | zero =>
    intro s hbusy
    refine wp_bind.mpr (wp_mono takes_isBusy.run ?_ fun e t ht => ht.2)
    rintro busy t ⟨-, -, hquiet, ht⟩
    rw [if_pos (ht.1.mpr (hbusy 0 (Nat.le_refl 0)))]
    exact hquiet
  | succ polls ih =>
    intro s hbusy
    refine wp_bind.mpr (wp_mono takes_isBusy.run ?_ fun e t ht => ht.2)
    rintro busy t ⟨-, -, hquiet, ht⟩
    rw [if_pos (ht.1.mpr (hbusy 0 (Nat.zero_le _)))]
    refine wp_mono (ih fun j hj => ?_) (fun _ _ h => h) fun _ _ h => Effect.quiet.trans hquiet h
    rw [ht.2, Nat.add_assoc, Nat.add_comm 1 j]
    exact hbusy (j + 1) (by omega)

/-- What `setData` leaves: the word is written if it gets through. -/
structure Sent (b : SpiBench) (f : BitField) (value : UInt32) (s t : State Nat UInt32 D) : Prop where
  driver : t.driver = s.driver
  through : GetsThrough b s → ∃ before reads, t.writes = s.writes ++ [⟨before, reads, f.addr, value⟩]
  cut : ¬GetsThrough b s → t.writes = s.writes

theorem insert_all (hlow : f.low = 0) (hhigh : f.high = 31) (word data : UInt32) : f.insert word data = data := by
  refine BitField.eq_of_testBit fun i hi => ?_
  rw [BitField.testBit_insert hi, if_pos (by simp only [BitField.width]; omega), hlow, Nat.sub_zero]

theorem wp_setData (hf : f.addr ≠ afeGlobalControlBusy.addr) (hlow : f.low = 0) (hhigh : f.high = 31) (value : UInt32) :
    wp (setData b.env f value) (fun _ t => Sent b f value s t) (fun _ t => Sent b f value s t) s := by
  rcases First.exists_or (fun j => ¬Busy (b.control (controlReads s + j))) (b.polls s.accesses) with ⟨k, hk, hidle⟩ | hbusy
  · have hthrough : GetsThrough b s ↔ b.env.Clear s.accesses (k + 1 + 2) := by
      refine ⟨fun ⟨j, _, hj, hclear⟩ => ?_, fun hclear => ⟨k, hk, hidle, hclear⟩⟩
      rwa [First.unique hidle hj]
    have hwait : Takes b.env .quiet (k + 1) (waitNotBusy b.env) (fun _ _ => True) s := ⟨(takes_pollNotBusy hk hidle).run⟩
    refine wp_bind.mpr (wp_mono hwait.run ?_ ?_)
    · rintro _ t ⟨haccesses, hclear, hquiet, -⟩
      have hsplit : GetsThrough b s ↔ b.env.Clear t.accesses 2 := by
        rw [hthrough, haccesses]
        exact ⟨Env.Clear.drop, hclear.append⟩
      have hsent : ∀ {u v : State Nat UInt32 D}, Reg.Written b.env f value t u → Quiet u v → Sent b f value s v := by
        rintro u v (⟨hclear', hu⟩ | ⟨hcut, hu⟩) hv
        · refine ⟨hv.driver.trans (hu.driver.trans hquiet.driver), fun _ => ⟨t.cells, t.reads, ?_⟩,
            fun h => absurd (hsplit.mpr hclear') h⟩
          rw [hv.writes, hu.writes, Reg.afterWriteBits, insert_all hlow hhigh, hquiet.writes]
        · exact ⟨hv.driver.trans (hu.driver.trans hquiet.driver), fun h => absurd (hsplit.mp h) hcut,
            fun _ => hv.writes.trans (hu.writes.trans hquiet.writes)⟩
      refine wp_bind.mpr (wp_mono (Reg.written_writeBits (driven_of_ne hf) value) (fun _ u hu => ?_)
        fun _ u hu => hsent hu (Effect.quiet.refl u))
      refine wp_bind.mpr (wp_mono ((does_quiet_waitNotBusy b.env).run u) (fun _ v hv => ?_) fun _ v hv => hsent hu hv)
      exact hsent hu hv
    · rintro e t ⟨hbroke, hquiet⟩
      exact ⟨hquiet.driver, fun h => absurd ((hthrough.mp h).mono (by omega)) hbroke.not_clear, fun _ => hquiet.writes⟩
  · have hnot : ¬GetsThrough b s := fun ⟨k, hk, hidle, _⟩ => hbusy k hk hidle.holds
    have hwait : wp (waitNotBusy b.env) (fun _ _ => False) (fun _ t => Quiet s t) s :=
      pollNotBusy_busy fun j hj => not_not.mp (hbusy j hj)
    refine wp_bind.mpr (wp_mono hwait (fun _ _ h => h.elim) fun _ t hquiet => ?_)
    exact ⟨hquiet.driver, fun h => absurd h hnot, fun _ => hquiet.writes⟩

end Spi

/-! ### One call -/

namespace Dac
open Spi
variable {b : SpiBench} {s : DriverState} {ch : Nat} {c : Call}

def position (ch : Nat) : Position := if ch < 4 then .L else .H

theorem mapped_eq (hch : ch < 8) : mapped ch = (some (position ch), ch % 4) := by
  have h : ∀ ch < 8, mapped ch = (some (position ch), ch % 4) := by decide
  exact h ch hch

theorem companion_eq (hch : ch < 8) : findCompanionChannelValue ch = (ch + 4) % 8 := by
  have h : ∀ ch < 8, findCompanionChannelValue ch = (ch + 4) % 8 := by decide
  exact h ch hch

theorem position_companion (hch : ch < 8) : position ((ch + 4) % 8) = if position ch = .L then .H else .L := by
  have h : ∀ ch < 8, position ((ch + 4) % 8) = if position ch = .L then .H else .L := by decide
  exact h ch hch

theorem registerData_ne (kind : Kind) (afe : Nat) : (registerData kind afe).addr ≠ afeGlobalControlBusy.addr := by
  cases kind <;> simp [registerData, afeGlobalControlBusy]

theorem registerData_low (kind : Kind) (afe : Nat) : (registerData kind afe).low = 0 := by cases kind <;> rfl

theorem registerData_high (kind : Kind) (afe : Nat) : (registerData kind afe).high = 31 := by cases kind <;> rfl

/-- The half of a call. -/
def Call.data (c : Call) : UInt32 := channelData c.ch c.setting.value c.setting.gain c.setting.buffer

/-- What a call leaves. -/
structure Ran (b : SpiBench) (c : Call) (s t : DriverState) : Prop where
  driver : t.driver = s.driver.set c.kind c.afe c.ch c.data
  through : GetsThrough b s → ∃ before reads word, t.writes = s.writes ++ [⟨before, reads, (registerData c.kind c.afe).addr, word⟩] ∧
    halfOf word (position c.ch) = c.data &&& 0xFFFF ∧
    halfOf word (position ((c.ch + 4) % 8)) = s.driver c.kind c.afe ((c.ch + 4) % 8) &&& 0xFFFF
  cut : ¬GetsThrough b s → t.writes = s.writes

/-- The half of the channel is kept and a word with it and the half of its companion is sent. -/
theorem updateCurrentRegister_sends (env : Env Nat UInt32) (kind : Kind) {afe : Nat} (hafe : afe < 5) (hch : ch < 8)
    (value : UInt32) (gain buffer : Bool) (s : DriverState) :
    ∃ word, halfOf word (position ch) = channelData ch value gain buffer &&& 0xFFFF ∧
      halfOf word (position ((ch + 4) % 8)) = s.driver kind afe ((ch + 4) % 8) &&& 0xFFFF ∧
      updateCurrentRegister env kind afe ch value gain buffer s = setData env (registerData kind afe) word
        { s with driver := s.driver.set kind afe ch (channelData ch value gain buffer) } := by
  have hcomp : (ch + 4) % 8 < 8 := Nat.mod_lt _ (by decide)
  have hpos := position_companion hch
  have hcompData : ∀ data : UInt32, data &&& 0xFFFF &&& 0xFFFF = data &&& 0xFFFF := fun data => by
    rw [UInt32.and_assoc, UInt32.and_self]
  unfold updateCurrentRegister
  rw [companion_eq hch, if_neg (not_not.mpr hafe), if_neg (not_not.mpr hch), if_neg (not_not.mpr hcomp), mapped_eq hcomp]
  cases hch' : position ch with
  | L =>
    rw [hch', if_pos rfl] at hpos
    rw [hpos]
    refine ⟨_, ?_, ?_, rfl⟩
    · rw [halfOf_L]
    · rw [halfOf_H, hcompData]
  | H =>
    rw [hch', if_neg (by decide)] at hpos
    rw [hpos]
    refine ⟨_, ?_, ?_, rfl⟩
    · rw [halfOf_H]
    · rw [halfOf_L, hcompData]

theorem wp_updateCurrentRegister (c : Call) :
    wp (updateCurrentRegister b.env c.kind c.afe c.ch c.setting.value c.setting.gain c.setting.buffer)
      (fun _ t => Ran b c s t) (fun _ t => Ran b c s t) s := by
  obtain ⟨word, hhalf, hcomp, hsends⟩ := updateCurrentRegister_sends b.env c.kind c.afe_lt c.ch_lt c.setting.value
    c.setting.gain c.setting.buffer s
  have hran : ∀ t, Sent b (registerData c.kind c.afe) word { s with driver := s.driver.set c.kind c.afe c.ch c.data } t →
      Ran b c s t := fun t ht =>
    ⟨ht.driver, fun h => (ht.through h).elim fun before h => h.elim fun reads hwrites =>
      ⟨before, reads, word, hwrites, hhalf, hcomp⟩, ht.cut⟩
  rw [wp, hsends]
  exact wp_mono (wp_setData (registerData_ne c.kind c.afe) (registerData_low ..) (registerData_high ..) word) (fun _ t ht => hran t ht)
    fun _ t ht => hran t ht

theorem Call.ran (c : Call) (s : DriverState) : Ran b c s (c.run b.env s) := by
  have hprog : c.prog b.env = updateCurrentRegister b.env c.kind c.afe c.ch c.setting.value c.setting.gain c.setting.buffer := by
    unfold Call.prog
    cases c.kind <;> rfl
  have hwp := wp_updateCurrentRegister (b := b) (s := s) c
  unfold wp at hwp
  rw [Call.run, hprog]
  split at hwp <;> rename_i heq <;> rw [heq] <;> exact hwp

/-! ### The chips after a call -/

variable {chips : Chips}

theorem registerAt_register {kind : Kind} {afe : Nat} (hafe : afe < 5) :
    registerAt (registerData kind afe).addr = some (kind, afe) := by
  have h : ∀ afe < 5, registerAt (registerData .trim afe).addr = some (.trim, afe) ∧
      registerAt (registerData .offset afe).addr = some (.offset, afe) := by decide
  cases kind
  · exact (h afe hafe).1
  · exact (h afe hafe).2

theorem after_write {kind : Kind} {afe : Nat} (hafe : afe < 5) (writes : List (Write Nat UInt32)) (before : Nat → UInt32)
    (reads : Nat → Nat) (word : UInt32) : chips.after (writes ++ [⟨before, reads, (registerData kind afe).addr, word⟩]) =
      (chips.after writes).load kind afe word := by
  simp only [Chips.after, List.foldl_append, List.foldl_cons, List.foldl_nil, registerAt_register hafe]

theorem output_load {kind kind' : Kind} {afe a h : Nat} (hh : h < 8) (word : UInt32) :
    (chips.load kind afe word).output kind' a h =
      if kind' = kind ∧ a = afe ∧ h % 4 = addressOf (halfOf word (position h)) then some (settingOf (halfOf word (position h)))
      else chips.output kind' a h := by
  simp only [Chips.output, mapped_eq hh, Chips.load, Option.map_some]
  split <;> rfl

/-! ### Sequences of calls -/

theorem runCalls_append (calls : List Call) (c : Call) (s : DriverState) :
    runCalls b.env (calls ++ [c]) s = c.run b.env (runCalls b.env calls s) := by
  rw [runCalls, List.foldl_append]
  rfl

theorem lastNamed_append (calls : List Call) (c : Call) (kind : Kind) (afe ch : Nat) :
    lastNamed (calls ++ [c]) kind afe ch =
      if c.kind = kind ∧ c.afe = afe ∧ c.ch = ch then some c.setting else lastNamed calls kind afe ch := by
  rw [lastNamed, List.reverse_append, List.reverse_singleton, List.singleton_append, List.find?_cons]
  by_cases h : c.kind = kind ∧ c.afe = afe ∧ c.ch = ch
  · simp [h]
  · rw [if_neg h, decide_eq_false h, lastNamed]

theorem lastNamed_valid {calls : List Call} {kind : Kind} {afe ch : Nat} {st : Setting}
    (h : lastNamed calls kind afe ch = some st) : afe < 5 ∧ ch < 8 ∧ st.value < 0x1000 := by
  obtain ⟨c, hfind, rfl⟩ := Option.map_eq_some_iff.mp h
  have hnames := List.find?_some hfind
  simp only [decide_eq_true_eq] at hnames
  obtain ⟨-, rfl, rfl⟩ := hnames
  exact ⟨c.afe_lt, c.ch_lt, c.value_lt⟩

/-- The half that the driver keeps for a channel, if `last` is the setting of the last call that named it. -/
def keptHalf (ch : Nat) (last : Option Setting) : UInt32 :=
  match last with
  | some st => channelData ch st.value st.gain st.buffer
  | none => 0

theorem driver_runCalls (hstart : s.driver = fun _ _ _ => 0) (calls : List Call) (kind : Kind) (afe ch : Nat) :
    (runCalls b.env calls s).driver kind afe ch = keptHalf ch (lastNamed calls kind afe ch) := by
  induction calls using List.reverseRecOn with
  | nil =>
    show s.driver kind afe ch = 0
    rw [hstart]
  | append_singleton calls c ih =>
    rw [runCalls_append, (Call.ran c _).driver, ChannelValues.set, ih, lastNamed_append]
    by_cases hnames : c.kind = kind ∧ c.afe = afe ∧ c.ch = ch
    · obtain ⟨rfl, rfl, rfl⟩ := hnames
      simp [Call.data, keptHalf]
    · rw [if_neg hnames, if_neg fun h => hnames ⟨h.1.symm, h.2.1.symm, h.2.2.symm⟩]

/-- Each channel that was named holds the setting of the last call that named it. -/
def Holds (b : SpiBench) (chips : Chips) (start : DriverState) (calls : List Call) : Prop :=
  ∀ kind afe ch st, lastNamed calls kind afe ch = some st →
    (chips.after (runCalls b.env calls start).writes).output kind afe ch = some st

/-- Either the call gets through, and its companion was named before or sends a half that no channel minds: channel 0
    of the companion's chip was never named, or it was set to the half 0. Or the call does not get through, and its
    channel happens to hold the setting. -/
def Complies (b : SpiBench) (chips : Chips) (start : DriverState) (calls : List Call) (c : Call) : Prop :=
  (GetsThrough b (runCalls b.env calls start) ∧
    (lastNamed calls c.kind c.afe (findCompanionChannelValue c.ch) = none →
      ∀ z st, mapped z = ((mapped (findCompanionChannelValue c.ch)).1, 0) →
        lastNamed calls c.kind c.afe z = some st → st = ⟨0, false, false⟩)) ∨
  (¬GetsThrough b (runCalls b.env calls start) ∧
    (chips.after (runCalls b.env calls start).writes).output c.kind c.afe c.ch = some c.setting)

theorem eq_of_position {h : Nat} (hh : h < 8) (hch : ch < 8) (hpos : position h = position ch) (hmod : h % 4 = ch % 4) :
    h = ch := by
  have hall : ∀ h < 8, ∀ ch < 8, position h = position ch → h % 4 = ch % 4 → h = ch := by decide
  exact hall h hh ch hch hpos hmod

theorem position_eq_companion {h : Nat} (hch : ch < 8) (hne : position h ≠ position ch) :
    position h = position ((ch + 4) % 8) := by
  rw [position_companion hch]
  cases hp : position h <;> cases hq : position ch <;> simp_all

/-- What the half of a channel loads: the setting of the last call that named it, or the half 0. -/
theorem half_spec (hch : ch < 8) (last : Option Setting) (hvalue : ∀ st, last = some st → st.value < 0x1000) {half : UInt32}
    (hhalf : half = keptHalf ch last &&& 0xFFFF) :
    addressOf half = (if last = none then 0 else ch % 4) ∧ settingOf half = last.getD ⟨0, false, false⟩ := by
  have hmapped : (mapped ch).2 = ch % 4 := by rw [mapped_eq hch]
  have hlt : (mapped ch).2 < 4 := by rw [hmapped]; exact Nat.mod_lt _ (by decide)
  subst hhalf
  cases last with
  | none =>
    show addressOf (0 &&& 0xFFFF) = 0 ∧ settingOf (0 &&& 0xFFFF) = ⟨0, false, false⟩
    decide
  | some st =>
    rw [keptHalf, channelData_half _ hlt, addressOf_channelData _ hlt, settingOf_channelData _ hlt (hvalue st rfl), hmapped]
    exact ⟨rfl, rfl⟩

/-- The outputs after a call that gets through: the channel of the call is set, and the companion's half is loaded
    into the channel that it addresses. -/
theorem output_through (chips : Chips) (hstart : s.driver = fun _ _ _ => 0) {calls : List Call} (c : Call)
    (hthrough : GetsThrough b (runCalls b.env calls s)) (kind : Kind) (afe : Nat) {h : Nat} (hh : h < 8) :
    (chips.after (runCalls b.env (calls ++ [c]) s).writes).output kind afe h =
      if kind = c.kind ∧ afe = c.afe then
        if position h = position c.ch then
          if h % 4 = c.ch % 4 then some c.setting else (chips.after (runCalls b.env calls s).writes).output kind afe h
        else if h % 4 = if lastNamed calls kind afe ((c.ch + 4) % 8) = none then 0 else (c.ch + 4) % 8 % 4 then
          some ((lastNamed calls kind afe ((c.ch + 4) % 8)).getD ⟨0, false, false⟩)
        else (chips.after (runCalls b.env calls s).writes).output kind afe h
      else (chips.after (runCalls b.env calls s).writes).output kind afe h := by
  obtain ⟨before, reads, word, hwrites, hhalf, hcomp⟩ := (Call.ran c (runCalls b.env calls s)).through hthrough
  rw [runCalls_append, hwrites, after_write c.afe_lt, output_load hh]
  by_cases hreg : kind = c.kind ∧ afe = c.afe
  · obtain ⟨rfl, rfl⟩ := hreg
    simp only [true_and, if_true]
    by_cases hpos : position h = position c.ch
    · obtain ⟨haddress, hsetting⟩ := half_spec c.ch_lt (some c.setting) (fun st hst => by
        rw [← Option.some.inj hst]
        exact c.value_lt) hhalf
      rw [hpos, if_pos rfl, haddress, hsetting]
      simp
    · rw [if_neg hpos, position_eq_companion c.ch_lt hpos]
      rw [driver_runCalls hstart] at hcomp
      obtain ⟨haddress, hsetting⟩ := half_spec (Nat.mod_lt _ (by decide)) _ (fun st hst => (lastNamed_valid hst).2.2) hcomp
      rw [haddress, hsetting]
  · rw [if_neg hreg, if_neg fun h => hreg ⟨h.1, h.2.1⟩]

/-- A call that gets through keeps the channels, unless the half 0 that it sends clears one. -/
theorem holds_append_through (hstart : s.driver = fun _ _ _ => 0) {calls : List Call} (hholds : Holds b chips s calls) (c : Call)
    (hthrough : GetsThrough b (runCalls b.env calls s)) : Holds b chips s (calls ++ [c]) ↔
      (lastNamed calls c.kind c.afe (findCompanionChannelValue c.ch) = none →
        ∀ z st, mapped z = ((mapped (findCompanionChannelValue c.ch)).1, 0) →
          lastNamed calls c.kind c.afe z = some st → st = ⟨0, false, false⟩) := by
  have hcomp : (c.ch + 4) % 8 < 8 := Nat.mod_lt _ (by decide)
  have hmapped := mapped_eq hcomp
  rw [companion_eq c.ch_lt, hmapped]
  have houtput := output_through chips hstart c hthrough
  constructor
  · intro hafter hnone z st hz hlast
    have hzlt := (lastNamed_valid hlast).2.1
    rw [mapped_eq hzlt, Prod.mk.injEq, Option.some.injEq] at hz
    have hne : position z ≠ position c.ch := by
      rw [hz.1, position_companion c.ch_lt]
      cases position c.ch <;> decide
    have hnot : ¬(c.kind = c.kind ∧ c.afe = c.afe ∧ c.ch = z) := fun h => hne (by rw [h.2.2])
    have hz' := hafter c.kind c.afe z st (by rw [lastNamed_append, if_neg hnot]; exact hlast)
    rw [houtput c.kind c.afe hzlt, if_pos ⟨rfl, rfl⟩, if_neg hne, hnone, if_pos rfl, hz.2, if_pos rfl] at hz'
    exact (Option.some.inj hz').symm
  · intro hzero kind afe h st hlast
    obtain ⟨-, hh, -⟩ := lastNamed_valid hlast
    rw [lastNamed_append] at hlast
    rw [houtput kind afe hh]
    by_cases hreg : kind = c.kind ∧ afe = c.afe
    · obtain ⟨rfl, rfl⟩ := hreg
      rw [if_pos ⟨rfl, rfl⟩]
      by_cases hpos : position h = position c.ch
      -- the chip of the call
      · rw [if_pos hpos]
        by_cases hmod : h % 4 = c.ch % 4
        · rw [if_pos ⟨rfl, rfl, (eq_of_position hh c.ch_lt hpos hmod).symm⟩] at hlast
          rw [if_pos hmod]
          exact hlast
        · rw [if_neg fun h => hmod (by rw [h.2.2])] at hlast
          rw [if_neg hmod]
          exact hholds _ _ _ _ hlast
      -- the chip of the companion
      · rw [if_neg fun h => hpos (by rw [h.2.2])] at hlast
        rw [if_neg hpos]
        cases hcompanion : lastNamed calls c.kind c.afe ((c.ch + 4) % 8) with
        | none =>
          rw [if_pos rfl]
          by_cases haddress : h % 4 = 0
          · have hz : mapped h = (some (position ((c.ch + 4) % 8)), 0) := by
              rw [mapped_eq hh, position_eq_companion c.ch_lt hpos, haddress]
            rw [if_pos haddress, hzero hcompanion h st hz hlast]
            rfl
          · rw [if_neg haddress]
            exact hholds _ _ _ _ hlast
        | some companion =>
          rw [if_neg (Option.some_ne_none companion)]
          by_cases haddress : h % 4 = (c.ch + 4) % 8 % 4
          · have heq := eq_of_position hh hcomp (position_eq_companion c.ch_lt hpos) haddress
            rw [heq, hcompanion] at hlast
            rw [if_pos haddress]
            exact hlast
          · rw [if_neg haddress]
            exact hholds _ _ _ _ hlast
    · rw [if_neg fun h => hreg ⟨h.1.symm, h.2.1.symm⟩] at hlast
      rw [if_neg hreg]
      exact hholds _ _ _ _ hlast

theorem holds_append_cut {calls : List Call} (hholds : Holds b chips s calls) (c : Call)
    (hcut : ¬GetsThrough b (runCalls b.env calls s)) : Holds b chips s (calls ++ [c]) ↔
      (chips.after (runCalls b.env calls s).writes).output c.kind c.afe c.ch = some c.setting := by
  have hwrites : (runCalls b.env (calls ++ [c]) s).writes = (runCalls b.env calls s).writes := by
    rw [runCalls_append]
    exact (Call.ran c _).cut hcut
  constructor
  · intro hafter
    have hc := hafter c.kind c.afe c.ch c.setting (by rw [lastNamed_append, if_pos ⟨rfl, rfl, rfl⟩])
    rwa [hwrites] at hc
  · intro hc kind afe h st hlast
    rw [hwrites]
    rw [lastNamed_append] at hlast
    split at hlast
    · rename_i hnames
      obtain ⟨rfl, rfl, rfl⟩ := hnames
      rwa [← hlast]
    · exact hholds _ _ _ _ hlast

/-- What a call keeps of the outputs, exactly. -/
theorem holds_append_iff (hstart : s.driver = fun _ _ _ => 0) {calls : List Call} (hholds : Holds b chips s calls) (c : Call) :
    Holds b chips s (calls ++ [c]) ↔ Complies b chips s calls c := by
  by_cases hthrough : GetsThrough b (runCalls b.env calls s)
  · rw [holds_append_through hstart hholds c hthrough, Complies]
    simp [hthrough]
  · rw [holds_append_cut hholds c hthrough, Complies]
    simp [hthrough]

/-- Along a sequence of calls the outputs are kept exactly if every call complies. -/
theorem outputsKept_iff (b : SpiBench) (chips : Chips) (cells : Nat → UInt32) (reads : Nat → Nat) (accesses : Nat)
    (calls : List Call) : (∀ pre, pre <+: calls → Holds b chips (construct cells reads accesses) pre) ↔
      ∀ pre c, pre ++ [c] <+: calls → Complies b chips (construct cells reads accesses) pre c := by
  constructor
  · intro h pre c hpre
    exact (holds_append_iff rfl (h pre ((List.prefix_append _ _).trans hpre)) c).mp (h _ hpre)
  · intro h pre
    induction pre using List.reverseRecOn with
    | nil => exact fun _ _ _ _ _ hlast => absurd hlast (by simp [lastNamed])
    | append_singleton pre c ih =>
      exact fun hpre => (holds_append_iff rfl (ih ((List.prefix_append _ _).trans hpre)) c).mpr (h pre c hpre)

/-- Hardware on which nothing throws and the SPI is idle. -/
def idleBench : SpiBench where
  faults _ := none
  control _ := 0
  polls _ := 0

def blankChips : Chips := fun _ _ _ _ => ⟨0, false, false⟩

/-- Channel 5 of AFE 0 is set after channel 0: its companion was never named, and the half 0 that is sent with it
    clears channel 0. -/
theorem channel5_clears_channel0 : ¬Holds idleBench blankChips (construct (fun _ => 0) (fun _ => 0) 0)
    [{ kind := .trim, afe := 0, ch := 0, setting := ⟨100, false, false⟩ },
      { kind := .trim, afe := 0, ch := 5, setting := ⟨200, false, false⟩ }] := by
  intro h
  have hout := h .trim 0 0 ⟨100, false, false⟩ (by decide)
  exact absurd hout (by decide)

end Dac
end DaphneZmq
