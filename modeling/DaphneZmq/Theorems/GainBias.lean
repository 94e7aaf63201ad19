import DaphneZmq.Theorems.Frames

/-! Whether the chips of the gains and biases hold what the read requests answer. GO loads all three chips, so that the
chips that are not meant are loaded once more with what they hold. -/

namespace DaphneZmq
open Lib Lib.Device
namespace GainBias
open Dac Handlers

/-! ### The outputs -/

/-- What a channel of a chip drives, with PL indices of the AFEs. -/
inductive Output where
  | gain (afe : Nat)
  | bias (afe : Nat)
  | hv
  deriving DecidableEq

namespace Output

/-- The entry that `setDacGain`, `setDacBias` or `setDacHvBias` uses. -/
def entry : Output → MappingEntry
  | gain afe => entryOf gainMapping afe
  | bias afe => entryOf biasMapping afe
  | hv => (some .U5, 2, false, false)

/-- The chip and its channel, if there are any. -/
def place (o : Output) : Option (Chip × Nat) := o.entry.1.map fun chip => (chip, o.entry.2.1.toNat)

/-- The key of the value that is kept for an output. -/
def key : Output → StateKey
  | gain afe => .afeAttenuation afe
  | bias afe => .biasVoltage afe
  | hv => .biasControl

def level (o : Output) (levels : Levels) : Option UInt32 := o.place.map fun p => levels p.1 p.2

end Output

/-- A word in the log has the channel in its CHANNEL field. -/
def WrittenAt (p : Chip × Nat) (writes : List (Write Nat UInt32)) : Prop :=
  ∃ w ∈ writes, w.address = p.1.addr ∧ (p.1.channel.extract w.word).toNat = p.2

/-- The output was written. -/
def Output.Written (o : Output) (writes : List (Write Nat UInt32)) : Prop := ∃ p ∈ o.place, WrittenAt p writes

/-- The chip whose register is at an address. -/
def chipAt (a : Nat) : Option Chip := [Chip.U50, .U53, .U5].find? (·.addr = a)

/-- The chip and the channel that the last word for a chip is for. -/
def target (writes : List (Write Nat UInt32)) : Option (Chip × Nat) :=
  writes.reverse.findSome? fun w => (chipAt w.address).map fun chip => (chip, (chip.channel.extract w.word).toNat)

/-- No GO of the log changes a written output that it is not meant for. -/
def KeepsOthers (levels : Levels) (writes : List (Write Nat UInt32)) : Prop :=
  ∀ pre w, pre ++ [w] <+: writes → IsGo w → ∀ o : Output, o.Written pre → o.place ≠ target pre →
    o.level (levels.after (pre ++ [w])) = o.level (levels.after pre)

variable {b : Board} {s t u : ServerState} {levels : Levels} {writes ws : List (Write Nat UInt32)} {o : Output}
  {chip chip' : Chip}

theorem place_gain_lt {afe : Nat} {p : Chip × Nat} (h : (Output.gain afe).place = some p) : afe < 5 := by
  match afe with
  | 0 | 1 | 2 | 3 | 4 => decide
  | afe + 5 => cases h

theorem place_bias_lt {afe : Nat} {p : Chip × Nat} (h : (Output.bias afe).place = some p) : afe < 5 := by
  match afe with
  | 0 | 1 | 2 | 3 | 4 => decide
  | afe + 5 => cases h

/-- The outputs that have a place. -/
def outputs : List Output := (List.range 5).map .gain ++ (List.range 5).map .bias ++ [.hv]

theorem mem_outputs {p : Chip × Nat} (h : o.place = some p) : o ∈ outputs := by
  cases o with
  | gain afe => simp [outputs, place_gain_lt h]
  | bias afe => simp [outputs, place_bias_lt h]
  | hv => simp [outputs]

theorem place_inj {o o' : Output} {p : Chip × Nat} (h : o.place = some p) (h' : o'.place = some p) : o = o' := by
  have hall : ∀ o ∈ outputs, ∀ o' ∈ outputs, o.place = o'.place → o = o' := by decide
  exact hall o (mem_outputs h) o' (mem_outputs h') (h.trans h'.symm)

theorem entry_eq {p : Chip × Nat} (h : o.place = some p) :
    o.entry = (some p.1, UInt32.ofNat p.2, false, false) ∧ p.2 < 4 := by
  have hall : ∀ o ∈ outputs, ∀ p ∈ o.place, o.entry = (some p.1, UInt32.ofNat p.2, false, false) ∧ p.2 < 4 := by decide
  exact hall o (mem_outputs h) p h

theorem key_inj {o o' : Output} (h : o.key = o'.key) : o = o' := by
  cases o <;> cases o' <;> cases h <;> rfl

theorem addr_inj (h : chip.addr = chip'.addr) : chip = chip' := by
  cases chip <;> cases chip' <;> first | rfl | cases h

theorem addr_ne_control (chip : Chip) : chip.addr ≠ dacGainBiasControlGo.addr := by
  cases chip <;> decide

theorem chipAt_addr (chip : Chip) : chipAt chip.addr = some chip := by
  cases chip <;> rfl

/-! ### The log -/

theorem after_append : levels.after (writes ++ ws) = (levels.after writes).after ws := List.foldl_append

theorem after_snoc (w : Write Nat UInt32) :
    levels.after (writes ++ [w]) = if IsGo w then (levels.after writes).load w.before else levels.after writes := by
  rw [after_append]
  rfl

theorem after_of_not_go (h : ∀ w ∈ ws, ¬IsGo w) : levels.after ws = levels := by
  induction ws with
  | nil => rfl
  | cons w ws ih =>
    show Levels.after (if IsGo w then levels.load w.before else levels) ws = levels
    rw [if_neg (h w (List.mem_cons_self ..)), ih fun v hv => h v (List.mem_cons_of_mem w hv)]

theorem KeepsOthers.snoc {w : Write Nat UInt32} (h : KeepsOthers levels writes)
    (hw : IsGo w → ∀ o : Output, o.Written writes → o.place ≠ target writes →
      o.level ((levels.after writes).load w.before) = o.level (levels.after writes)) :
    KeepsOthers levels (writes ++ [w]) := by
  intro pre v hprefix hgo o ho hne
  rcases List.prefix_concat_iff.mp hprefix with heq | hprefix
  · obtain ⟨rfl, hv⟩ := List.append_inj' heq rfl
    cases hv
    rw [after_snoc, if_pos hgo]
    exact hw hgo o ho hne
  · exact h pre v hprefix hgo o ho hne

theorem KeepsOthers.append (h : KeepsOthers levels writes) (hws : ∀ w ∈ ws, ¬IsGo w) : KeepsOthers levels (writes ++ ws) := by
  induction ws generalizing writes with
  | nil => rwa [List.append_nil]
  | cons w ws ih =>
    rw [List.append_cons]
    refine ih (h.snoc fun hgo => absurd hgo (hws w (List.mem_cons_self ..))) fun v hv => ?_
    exact hws v (List.mem_cons_of_mem w hv)

theorem target_append {p : Chip × Nat} (hne : ws ≠ [])
    (hws : ∀ w ∈ ws, w.address = p.1.addr ∧ (p.1.channel.extract w.word).toNat = p.2) : target (writes ++ ws) = some p := by
  obtain ⟨init, w, rfl⟩ := (List.eq_nil_or_concat ws).resolve_left hne
  obtain ⟨haddr, hchannel⟩ := hws w (by simp)
  rw [target, List.concat_eq_append, ← List.append_assoc, List.reverse_append, List.reverse_singleton, List.singleton_append, List.findSome?_cons,
    haddr, chipAt_addr, Option.map_some, hchannel]

/-! ### A channel is loaded -/

/-- What the register of a chip holds in its fields. -/
def channelOf (chip : Chip) (cells : Nat → UInt32) : Nat := (chip.channel.extract (cells chip.addr)).toNat

def dataOf (chip : Chip) (cells : Nat → UInt32) : UInt32 := chip.data.extract (cells chip.addr)

theorem load_apply (chip : Chip) (ch : Nat) (cells : Nat → UInt32) :
    levels.load cells chip ch = if ch = channelOf chip cells then dataOf chip cells else levels chip ch := rfl

theorem load_congr {cells cells' : Nat → UInt32} (h : ∀ chip : Chip, cells chip.addr = cells' chip.addr) :
    levels.load cells = levels.load cells' := by
  funext chip ch
  simp only [Levels.load, h]

/-- Words for a channel are written into the register of its chip. -/
structure Addressed (p : Chip × Nat) (s t : ServerState) : Prop where
  driver : t.driver = s.driver
  channel : channelOf p.1 t.cells = p.2
  cells : ∀ a, a ≠ p.1.addr → t.cells a = s.cells a
  writes : ∃ ws, t.writes = s.writes ++ ws ∧ ws ≠ [] ∧
    ∀ w ∈ ws, w.address = p.1.addr ∧ (p.1.channel.extract w.word).toNat = p.2

theorem driven_chip (chip : Chip) : b.env.driven chip.addr = none := by
  cases chip <;> rfl

theorem Wrote.cell (chip : Chip) {f : BitField} {data : UInt32} (h : Reg.Wrote b.env f data s t) (hf : f.addr = chip.addr) :
    t.driver = s.driver ∧ t.cells chip.addr = f.insert (s.cells chip.addr) data ∧ (∀ a, a ≠ chip.addr → t.cells a = s.cells a) ∧
      ∃ reads, t.writes = s.writes ++ [⟨s.cells, reads, chip.addr, f.insert (s.cells chip.addr) data⟩] := by
  obtain ⟨old, reads, hold, hcells, hwrites⟩ := h.write
  rw [hf] at hold hcells hwrites
  rw [hold (driven_chip chip)] at hcells hwrites
  refine ⟨h.driver, ?_, fun a ha => ?_, reads, hwrites⟩
  · rw [hcells, Function.update_self]
  · rw [hcells, Function.update_of_ne ha]

theorem Addressed.field {p : Chip × Nat} (h : Addressed p s t) {f : BitField} {data : UInt32}
    (hw : Reg.Wrote b.env f data t u) (hf : f.addr = p.1.addr) (hhigh : f.high < 14) : Addressed p s u := by
  obtain ⟨hdriver, hcell, hothers, reads, hwrites⟩ := Wrote.cell p.1 hw hf
  obtain ⟨ws, hws, hne, hall⟩ := h.writes
  have hchannel : (p.1.channel.extract (f.insert (t.cells p.1.addr) data)).toNat = p.2 := by
    rw [BitField.extract_insert_of_disjoint (Or.inr hhigh)]
    exact h.channel
  refine ⟨hdriver.trans h.driver, ?_, fun a ha => (hothers a ha).trans (h.cells a ha),
    ws ++ [⟨t.cells, reads, p.1.addr, f.insert (t.cells p.1.addr) data⟩], ?_, ?_, fun w hw => ?_⟩
  · rw [channelOf, hcell, hchannel]
  · rw [hwrites, hws, List.append_assoc]
  · exact List.append_ne_nil_of_left_ne_nil hne _
  · rcases List.mem_append.mp hw with hw | hw
    · exact hall w hw
    · rw [List.mem_singleton.mp hw]
      exact ⟨rfl, hchannel⟩

theorem wp_setFields {p : Chip × Nat} (hp : p.2 < 4) {value : UInt32} (hvalue : value ≤ 4095) (s : ServerState) :
    wp (setFields b.env (some p.1) (UInt32.ofNat p.2) false false value)
      (fun _ t => Addressed p s t ∧ dataOf p.1 t.cells = value) (fun _ _ => False) s := by
  refine wp_bind.mpr (wp_mono (Reg.wp_writeBits_mapped b.faults_none _ _ s) (fun _ s1 h1 => ?_) fun _ _ h => h)
  refine wp_bind.mpr (wp_mono (Reg.wp_writeBits_mapped b.faults_none _ _ s1) (fun _ s2 h2 => ?_) fun _ _ h => h)
  refine wp_bind.mpr (wp_mono (Reg.wp_writeBits_mapped b.faults_none _ _ s2) (fun _ s3 h3 => ?_) fun _ _ h => h)
  refine wp_mono (Reg.wp_writeBits_mapped b.faults_none _ _ s3) (fun _ t h4 => ?_) fun _ _ h => h
  have haddressed : Addressed p s s1 := by
    obtain ⟨hdriver, hcell, hothers, reads, hwrites⟩ := Wrote.cell p.1 h1 rfl
    have hofNat : (UInt32.ofNat p.2).toNat = p.2 := Nat.mod_eq_of_lt (by omega)
    have hchannel : (p.1.channel.extract (p.1.channel.insert (s.cells p.1.addr) (UInt32.ofNat p.2))).toNat = p.2 := by
      rw [BitField.extract_insert, BitField.and_mask_of_lt (by rw [hofNat]; exact hp), hofNat]
    refine ⟨hdriver, ?_, hothers, [_], hwrites, List.cons_ne_nil _ _, fun w hw => ?_⟩
    · rw [channelOf, hcell, hchannel]
    · rw [List.mem_singleton.mp hw]
      exact ⟨rfl, hchannel⟩
  refine ⟨((haddressed.field h2 rfl (show 13 < 14 by decide)).field h3 rfl (show 12 < 14 by decide)).field h4 rfl
    (show 11 < 14 by decide), ?_⟩
  obtain ⟨-, hcell, -⟩ := Wrote.cell p.1 h4 rfl
  rw [dataOf, hcell, BitField.extract_insert, BitField.and_mask_of_lt]
  exact Nat.lt_succ_of_le (UInt32.le_iff_toNat_le.mp hvalue)

/-- The words of a chip are in the log, and then GO is set and cleared. -/
structure Loaded (p : Chip × Nat) (value : UInt32) (s t : ServerState) : Prop where
  driver : t.driver = s.driver
  channel : channelOf p.1 t.cells = p.2
  data : dataOf p.1 t.cells = value
  cells : ∀ chip, chip ≠ p.1 → t.cells chip.addr = s.cells chip.addr
  writes : ∃ ws go clear, t.writes = s.writes ++ ws ++ [go] ++ [clear] ∧ ws ≠ [] ∧
    (∀ w ∈ ws, w.address = p.1.addr ∧ (p.1.channel.extract w.word).toNat = p.2) ∧
    IsGo go ∧ (∀ chip : Chip, go.before chip.addr = t.cells chip.addr) ∧ clear.address = dacGainBiasControlGo.addr ∧ ¬IsGo clear

theorem wp_setDacGeneral {p : Chip × Nat} (hp : p.2 < 4) {value : UInt32} (hvalue : value ≤ 4095) (s : ServerState) :
    wp (setDacGeneral b.env (some p.1) (UInt32.ofNat p.2) false false value) (fun _ t => Loaded p value s t)
      (fun e t => e = timeout ∧ (Quiet s t ∨ Loaded p value s t)) s := by
  refine wp_bind.mpr (wp_mono (Dac.wp_waitNotBusy b.faults_none s) (fun _ s1 h1 => ?_) fun _ _ h => ⟨h.1, Or.inl h.2⟩)
  refine wp_bind.mpr (wp_mono (wp_setFields hp hvalue s1) (fun _ s2 h2 => ?_) fun _ _ h => h.elim)
  refine wp_bind.mpr (wp_bind.mpr ?_)
  refine wp_mono (Reg.wp_writeBits_mapped b.faults_none _ _ s2) (fun _ s3 h3 => ?_) fun _ _ h => h.elim
  refine wp_mono (Reg.wp_writeBits_mapped b.faults_none _ _ s3) (fun _ s4 h4 => ?_) fun _ _ h => h.elim
  obtain ⟨old3, reads3, -, hc3, hw3⟩ := h3.write
  obtain ⟨old4, reads4, -, hc4, hw4⟩ := h4.write
  obtain ⟨h2, hdata⟩ := h2
  obtain ⟨ws, hws, hne, hall⟩ := h2.writes
  -- The second wait changes nothing, whether it ends or times out.
  have hloaded : ∀ t, Quiet s4 t → Loaded p value s t := fun t h5 => by
    have hcells : ∀ chip : Chip, t.cells chip.addr = s2.cells chip.addr := fun chip => by
      have hne : chip.addr ≠ dacGainBiasControlGo.addr := addr_ne_control chip
      rw [h5.cells, hc4, Function.update_of_ne hne, hc3, Function.update_of_ne hne]
    refine ⟨?_, ?_, ?_, fun chip hchip => ?_, ws, ⟨s2.cells, reads3, _, dacGainBiasControlGo.insert old3 1⟩,
      ⟨s3.cells, reads4, _, dacGainBiasControlGo.insert old4 0⟩, ?_, hne, hall, ⟨rfl, ?_⟩, fun chip => (hcells chip).symm, rfl, ?_⟩
    · rw [h5.driver, h4.driver, h3.driver, h2.driver, h1.driver]
    · rw [channelOf, hcells]
      exact h2.channel
    · rw [dataOf, hcells]
      exact hdata
    · rw [hcells, h2.cells _ fun h => hchip (addr_inj h), h1.cells]
    · rw [h5.writes, hw4, hw3, hws, h1.writes]
    · rw [BitField.extract_insert]
      decide
    · rintro ⟨-, hgo⟩
      rw [BitField.extract_insert] at hgo
      exact absurd hgo (by decide)
  refine wp_bind.mpr (wp_mono (Dac.wp_waitNotBusy b.faults_none s4) (fun _ t h5 => ?_) fun _ t h5 => ?_)
  · exact hloaded t h5
  · exact ⟨h5.1, Or.inr (hloaded t h5.2)⟩

/-- The log ends with the load of the chips. -/
theorem Loaded.after {p : Chip × Nat} {value : UInt32} (ht : Loaded p value s t) :
    levels.after t.writes = (levels.after s.writes).load t.cells := by
  obtain ⟨ws, go, clear, hwrites, -, hws, hgo, hbefore, -, hnotGo⟩ := ht.writes
  have hnot : ∀ w ∈ ws, ¬IsGo w := fun w hw h => addr_ne_control p.1 ((hws w hw).1.symm.trans h.1)
  have hmid : levels.after (s.writes ++ ws) = levels.after s.writes := by rw [after_append, after_of_not_go hnot]
  have hload : (levels.after s.writes).load go.before = (levels.after s.writes).load t.cells := load_congr hbefore
  rw [hwrites, after_snoc, if_neg hnotGo, after_snoc, if_pos hgo, hmid, hload]

/-! ### The invariant -/

/-- The chips that were written are settled, and the outputs that were written hold the kept values. -/
structure Coherent (levels : Levels) (s : ServerState) : Prop where
  /-- A further GO loads what is there. -/
  settled : ∀ chip, (∃ w ∈ s.writes, w.address = chip.addr) →
    levels.after s.writes chip (channelOf chip s.cells) = dataOf chip s.cells
  kept : ∀ o : Output, o.Written s.writes → o.level (levels.after s.writes) = some (s.driver.stateValue o.key)
  others : KeepsOthers levels s.writes

/-- A load for a channel leaves the other channels that were written. -/
theorem Coherent.load_other (hs : Coherent levels s) {p q : Chip × Nat} {value : UInt32} (ht : Loaded p value s t)
    (hq : WrittenAt q s.writes) (hne : q ≠ p) :
    (levels.after s.writes).load t.cells q.1 q.2 = levels.after s.writes q.1 q.2 := by
  rw [load_apply]
  by_cases hchip : q.1 = p.1
  · rw [hchip, ht.channel, if_neg fun h => hne (Prod.ext hchip h)]
  · have hcell := ht.cells q.1 hchip
    have hchannel : channelOf q.1 t.cells = channelOf q.1 s.cells := by rw [channelOf, hcell, channelOf]
    have hdata : dataOf q.1 t.cells = dataOf q.1 s.cells := by rw [dataOf, hcell, dataOf]
    obtain ⟨w, hw, haddr, -⟩ := hq
    rw [hchannel, hdata]
    split
    · rename_i hch
      rw [hch, hs.settled q.1 ⟨w, hw, haddr⟩]
    · rfl

theorem writtenAt_append {p q : Chip × Nat} (hws : ∀ w ∈ ws, w.address = p.1.addr ∧ (p.1.channel.extract w.word).toNat = p.2)
    (h : WrittenAt q (writes ++ ws)) (hne : q ≠ p) : WrittenAt q writes := by
  obtain ⟨w, hw, haddr, hchannel⟩ := h
  rcases List.mem_append.mp hw with hw | hw
  · exact ⟨w, hw, haddr, hchannel⟩
  · obtain ⟨haddr', hchannel'⟩ := hws w hw
    have hchip : q.1 = p.1 := addr_inj (haddr.symm.trans haddr')
    rw [hchip] at hchannel
    exact absurd (Prod.ext hchip (hchannel.symm.trans hchannel')) hne

theorem writtenAt_control {q : Chip × Nat} {w : Write Nat UInt32} (hw : w.address = dacGainBiasControlGo.addr)
    (h : WrittenAt q (writes ++ [w])) : WrittenAt q writes := by
  obtain ⟨v, hv, haddr, hchannel⟩ := h
  rcases List.mem_append.mp hv with hv | hv
  · exact ⟨v, hv, haddr, hchannel⟩
  · rw [List.mem_singleton.mp hv, hw] at haddr
    exact absurd haddr.symm (addr_ne_control _)

theorem Coherent.load (hs : Coherent levels s) {p : Chip × Nat} (ho : o.place = some p) {value : UInt32}
    (ht : Loaded p value s t) : Coherent levels
      (t.withDriver { t.driver with state := Function.update t.driver.state o.key (some value) }) := by
  obtain ⟨ws, go, clear, hwrites, hne, hws, hgo, hbefore, hclear, hnotGo⟩ := ht.writes
  have hnot : ∀ w ∈ ws, ¬IsGo w := fun w hw h => addr_ne_control p.1 ((hws w hw).1.symm.trans h.1)
  have hmid : levels.after (s.writes ++ ws) = levels.after s.writes := by rw [after_append, after_of_not_go hnot]
  have hload : (levels.after s.writes).load go.before = (levels.after s.writes).load t.cells := load_congr hbefore
  have hafter : levels.after t.writes = (levels.after s.writes).load t.cells := ht.after
  have hold : ∀ q, q ≠ p → WrittenAt q t.writes → WrittenAt q s.writes := fun q hq h => by
    rw [hwrites] at h
    exact writtenAt_append hws (writtenAt_control hgo.1 (writtenAt_control hclear h)) hq
  have hown : (levels.after s.writes).load t.cells p.1 p.2 = value := by
    rw [load_apply, ht.channel, if_pos rfl, ht.data]
  refine ⟨fun chip _ => ?_, fun o' ho' => ?_, ?_⟩
  · show levels.after t.writes chip (channelOf chip t.cells) = _
    rw [hafter, load_apply, if_pos rfl]
    rfl
  · obtain ⟨q, hq, hwritten⟩ := ho'
    show o'.level (levels.after t.writes) = some ((Function.update t.driver.state o.key (some value) o'.key).getD 0)
    rw [hafter, Output.level, hq, Option.map_some]
    by_cases hqp : q = p
    · subst hqp
      cases place_inj hq ho
      rw [hown, Function.update_self]
      rfl
    · have hkey : o'.key ≠ o.key := fun h => by
        cases key_inj h
        exact hqp (Option.some.inj (hq.symm.trans ho))
      have hkept := hs.kept o' ⟨q, hq, hold q hqp hwritten⟩
      rw [Output.level, hq, Option.map_some] at hkept
      rw [hs.load_other ht (hold q hqp hwritten) hqp, hkept, Function.update_of_ne hkey, ht.driver]
      rfl
  · show KeepsOthers levels t.writes
    rw [hwrites]
    refine KeepsOthers.snoc ((hs.others.append hnot).snoc fun _ o' ho' htarget => ?_) fun h => absurd h hnotGo
    obtain ⟨q, hq, hwritten⟩ := ho'
    have hqp : q ≠ p := fun h => htarget (by rw [target_append hne hws, hq, h])
    rw [hmid, hload, Output.level, Output.level, hq, Option.map_some, Option.map_some,
      hs.load_other ht (writtenAt_append hws hwritten hqp) hqp]

/-! ### Runs -/

/-- The registers of the chips and their control. -/
def IsLevel (a : Nat) : Prop := a = dacGainBiasControlGo.addr ∨ ∃ chip : Chip, a = chip.addr

def view (d : Daphne) : Output → Option UInt32 := fun o => d.state o.key

theorem Coherent.of_apart (h : Apart IsLevel view s t) (hs : Coherent levels s) : Coherent levels t := by
  obtain ⟨ws, hws, hnot⟩ := h.writes
  have hstate : ∀ o : Output, t.driver.state o.key = s.driver.state o.key := congrFun h.view_eq
  have hnotGo : ∀ w ∈ ws, ¬IsGo w := fun w hw hgo => hnot w hw (Or.inl hgo.1)
  have hafter : levels.after t.writes = levels.after s.writes := by rw [hws, after_append, after_of_not_go hnotGo]
  have hin : ∀ w ∈ t.writes, ∀ chip : Chip, w.address = chip.addr → w ∈ s.writes := fun w hw chip haddr => by
    rw [hws] at hw
    rcases List.mem_append.mp hw with hw | hw
    · exact hw
    · exact absurd (Or.inr ⟨chip, haddr⟩) (hnot w hw)
  refine ⟨fun chip ⟨w, hw, haddr⟩ => ?_, fun o ⟨q, hq, w, hw, haddr, hchannel⟩ => ?_, ?_⟩
  · have hcell : t.cells chip.addr = s.cells chip.addr := h.cells _ (Or.inr ⟨chip, rfl⟩)
    rw [hafter, channelOf, dataOf, hcell]
    exact hs.settled chip ⟨w, hin w hw chip haddr, haddr⟩
  · rw [hafter, Daphne.stateValue, hstate]
    exact hs.kept o ⟨q, hq, w, hin w hw q.1 haddr, haddr, hchannel⟩
  · rw [hws]
    exact hs.others.append hnotGo

theorem exists_place {afe : Nat} (hafe : afe < 5) :
    (∃ p, (Output.gain afe).place = some p) ∧ ∃ p, (Output.bias afe).place = some p := by
  have h : ∀ afe < 5, (Output.gain afe).place.isSome ∧ (Output.bias afe).place.isSome := by decide
  exact ⟨Option.isSome_iff_exists.mp (h afe hafe).1, Option.isSome_iff_exists.mp (h afe hafe).2⟩

/-- The write of an output and the value that is kept afterwards. -/
theorem Coherent.write (hs : Coherent levels s) {p : Chip × Nat} (ho : o.place = some p) {value : UInt32} (hvalue : value ≤ 4095) :
    wp (setDacGeneral b.env o.entry.1 o.entry.2.1 o.entry.2.2.1 o.entry.2.2.2 value)
      (fun _ t => Coherent levels (t.withDriver { t.driver with state := Function.update t.driver.state o.key (some value) }))
      (fun e t => ¬e = timeout → Coherent levels t) s := by
  obtain ⟨hentry, hp⟩ := entry_eq ho
  rw [hentry]
  exact wp_mono (wp_setDacGeneral hp hvalue s) (fun _ t ht => hs.load ho ht) fun _ _ he hne => absurd he.1 hne

theorem maintains_setGain {afe : Nat} (hafe : afe < 5) {value : UInt32} (hvalue : value ≤ 4095) :
    Maintains (· = timeout) (Coherent levels) (setGain b afe value) := by
  obtain ⟨p, hp⟩ := (exists_place hafe).1
  refine ⟨fun s hs => wp_bind.mpr (wp_bind.mpr (wp_mono (hs.write hp hvalue) (fun _ t ht => ?_) fun _ _ h => h))⟩
  rw [wp_pure, Daphne.setAfeAttenuationDictValue, Daphne.checkAfe, if_neg (by omega)]
  exact ht

theorem maintains_setBias {afe : Nat} (hafe : afe < 5) {value : UInt32} (hvalue : value ≤ 4095) :
    Maintains (· = timeout) (Coherent levels) (setBias b afe value) := by
  obtain ⟨p, hp⟩ := (exists_place hafe).2
  refine ⟨fun s hs => wp_bind.mpr (wp_bind.mpr (wp_mono (hs.write hp hvalue) (fun _ t ht => ?_) fun _ _ h => h))⟩
  rw [wp_pure, Daphne.setBiasVoltageDictValue, Daphne.checkAfe, if_neg (by omega)]
  exact ht

theorem maintains_setBiasControl {value : UInt32} (hvalue : value ≤ 4095) (enable : Bool) :
    Maintains (· = timeout) (Coherent levels) (setBiasControl b value enable) := by
  refine ⟨fun s hs => wp_bind.mpr (wp_mono (hs.write (o := .hv) rfl hvalue) (fun _ t ht => ?_) fun _ _ h => h)⟩
  refine wp_bind.mpr (wp_mono (Reg.wp_writeBits_mapped b.faults_none _ _ t) (fun _ u hu => ?_) fun _ _ h => h.elim)
  -- The enable bit is written before the value is kept.
  obtain ⟨old, reads, -, hcells, hwrites⟩ := hu.write
  have henable : ¬IsLevel biasEnable.addr := by
    rintro (h | ⟨chip, h⟩)
    · cases h
    · cases chip <;> cases h
  have happart (d : Daphne) : Apart IsLevel view (t.withDriver d) (u.withDriver d) := by
    refine ⟨fun a ha => ?_, rfl, [_], hwrites, fun w hw => ?_⟩
    · show u.cells a = t.cells a
      rw [hcells, Function.update_of_ne]
      rintro rfl
      exact henable ha
    · rw [List.mem_singleton.mp hw]
      exact henable
  show Coherent levels (u.withDriver { u.driver with state := Function.update u.driver.state .biasControl (some value) })
  rw [hu.driver]
  exact Coherent.of_apart (happart _) ht

theorem avoidsChannels : AvoidsChannels IsLevel view where
  words kind afe hafe := by
    rintro (h | ⟨chip, h⟩)
    · cases kind <;> simp only [registerData, dacGainBiasControlGo] at h <;> omega
    · cases chip <;> cases kind <;> simp only [Chip.addr, registerData] at h <;> omega
  values _ _ := rfl
  trims d ch value := funext fun o => Function.update_of_ne (by cases o <;> simp [Output.key]) _ _
  offsets d ch value := funext fun o => Function.update_of_ne (by cases o <;> simp [Output.key]) _ _

theorem avoidsAfes : AvoidsAfes IsLevel view where
  words afe hafe := by
    rintro (h | ⟨chip, h⟩)
    · simp only [Afe.afeControl, dacGainBiasControlGo] at h
      omega
    · cases chip <;> simp only [Chip.addr, Afe.afeControl] at h <;> omega
  regs d afe reg value := funext fun o => Function.update_of_ne (by cases o <;> simp [Output.key]) _ _

theorem avoidsControls : AvoidsControls b IsLevel where
  power _ := by
    rintro (h | ⟨chip, h⟩)
    · cases h
    · cases chip <;> cases h
  triggers a ha := by
    rintro (h | ⟨chip, h⟩)
    · simp only [dacGainBiasControlGo] at h
      omega
    · cases chip <;> simp only [Chip.addr] at h <;> omega

theorem survives : Survives b (· = timeout) (Coherent levels) where
  channels _ _ _ _ _ _ hmap _ := .of_does (avoidsChannels.setChannel (afeBoard2PLMap_lt hmap) _ _ _ _) fun _ _ => Coherent.of_apart
  gains _ hafe _ hvalue := maintains_setGain hafe hvalue
  biases _ hafe _ hvalue := maintains_setBias hafe hvalue
  hv _ hvalue enable := maintains_setBiasControl hvalue enable

theorem Coherent.step (hs : Coherent levels s) {r : Request} (hthrows : ¬r.Throws b timeout s) : Coherent levels (r.step b s) := by
  have hframe (s t : ServerState) : Apart IsLevel view s t → Coherent levels s → Coherent levels t := Coherent.of_apart
  refine Request.step_of_wp (survives.request hs (fun cfg _ => ?_) (fun afe reg value _ => ?_) fun afe function value _ => ?_) hthrows
  · exact (survives.configureDaphne hframe avoidsControls avoidsAfes fun config _ =>
      .of_does (avoidsChannels.configureChannel config) hframe).run s hs
  · exact (Maintains.of_does (avoidsAfes.writeAFERegister afe reg value) hframe).run s hs
  · exact (Maintains.of_does (avoidsAfes.writeAFEFunction afe function value) hframe).run s hs

theorem Coherent.start (levels : Levels) (cells : Nat → UInt32) (reads : Nat → Nat) (accesses : Nat) :
    Coherent levels (.start cells reads accesses) where
  settled _ := by
    rintro ⟨_, hw, -⟩
    cases hw
  kept _ := by
    rintro ⟨_, _, _, hw, -⟩
    cases hw
  others pre w h := absurd (List.prefix_nil.mp h) (by simp)

end GainBias
end DaphneZmq
