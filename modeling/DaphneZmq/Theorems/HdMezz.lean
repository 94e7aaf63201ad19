import DaphneZmq.HdMezz
import Mathlib.Data.List.Induction

/-! The power-off of the monitor. A pass handles a block by what it knows of it: its alerts, its output port and the
    power status, which the driver keeps once for all blocks. The accesses of a block leave the others alone. -/

namespace DaphneZmq
open Lib Lib.Device
namespace HdMezz

/-! ### What a pass knows of a block -/

/-- What the handling of a block reads and changes. -/
structure Block where
  alert : Rail → Bool
  powered : Rail → Bool
  port : UInt16
  /-- How often the alert of each rail has been read. -/
  alertReads : Rail → Nat
  powerStatus : Rail → Bool

variable {i : Nat} {s t u : MezzState} {bus : Bus} {α β : Type}

def powerStatus (d : Driver) : Rail → Bool
  | .v5 => d.powerStatus5V
  | .v3v3 => d.powerStatus3V3

theorem powerStatus_congr {d d' : Driver} (h5V : d'.powerStatus5V = d.powerStatus5V)
    (h3V3 : d'.powerStatus3V3 = d.powerStatus3V3) : powerStatus d' = powerStatus d := by
  funext rail
  cases rail
  · exact h5V
  · exact h3V3

def block (i : Nat) (s : MezzState) : Block where
  alert rail := s.driver.HDMezz_alert rail i
  powered rail := s.driver.HDMezz_is_powered rail i
  port := s.cells (outputPort i)
  alertReads rail := s.reads (.ina232 i rail 0x6)
  powerStatus := powerStatus s.driver

/-- The state has the same of a block, its power status apart. -/
structure Kept (i : Nat) (s t : MezzState) : Prop where
  alert : ∀ rail, t.driver.HDMezz_alert rail i = s.driver.HDMezz_alert rail i
  port : t.cells (outputPort i) = s.cells (outputPort i)
  alertReads : ∀ rail, t.reads (.ina232 i rail 0x6) = s.reads (.ina232 i rail 0x6)

theorem Kept.trans (h : Kept i s t) (h' : Kept i t u) : Kept i s u where
  alert rail := (h'.alert rail).trans (h.alert rail)
  port := h'.port.trans h.port
  alertReads rail := (h'.alertReads rail).trans (h.alertReads rail)

/-- The other blocks are the same. -/
structure Frame (i : Nat) (s t : MezzState) : Prop where
  enabled : t.driver.enabled_afeBlocks = s.driver.enabled_afeBlocks
  others : ∀ j ≠ i, Kept j s t

theorem Frame.refl (i : Nat) (s : MezzState) : Frame i s s := ⟨rfl, fun _ _ => ⟨fun _ => rfl, rfl, fun _ => rfl⟩⟩

theorem Frame.trans (h : Frame i s t) (h' : Frame i t u) : Frame i s u where
  enabled := h'.enabled.trans h.enabled
  others j hj := (h.others j hj).trans (h'.others j hj)

/-- On a block that is enabled, the program does `f` and nothing else, unless an access throws. -/
def Steps (bus : Bus) (i : Nat) (m : MezzProg α) (f : Block → Block) : Prop :=
  ∀ s, s.driver.enabled_afeBlocks i = true →
    Returns bus.env m (fun _ t => Frame i s t ∧ block i t = f (block i s)) s

theorem Steps.bind {m : MezzProg α} {m' : α → MezzProg β} {f g : Block → Block} (h : Steps bus i m f)
    (h' : ∀ a, Steps bus i (m' a) g) : Steps bus i (m >>= m') (g ∘ f) := by
  intro s hs
  refine (h s hs).bind fun a t ⟨hframe, hblock⟩ => ?_
  refine (h' a t (by rw [hframe.enabled]; exact hs)).mono fun b u ⟨hframe', hblock'⟩ => ?_
  exact ⟨hframe.trans hframe', by rw [hblock', hblock, Function.comp]⟩

/-! ### The accesses of a block -/

theorem returns_selectAfeBlock (hi : i < 5) (hs : s.driver.enabled_afeBlocks i = true) {R : Unit → MezzState → Prop}
    (hR : R () (s.afterWrite .switch (1 <<< UInt16.ofNat i))) : Returns bus.env (selectAfeBlock bus.env i) R s := by
  refine (returns_getDriver (R := fun d t => d = s.driver ∧ s = t) ⟨rfl, rfl⟩).bind ?_
  rintro _ _ ⟨rfl, rfl⟩
  rw [if_neg (by omega), hs, if_neg (by decide)]
  exact returns_write hR

theorem returns_readINA232Function (hi : i < 5) (hs : s.driver.enabled_afeBlocks i = true) (rail : Rail) (addr msb lsb : Nat)
    {R : UInt16 → MezzState → Prop}
    (hR : R ((bus.ina232 i rail addr (s.reads (.ina232 i rail addr)) >>> UInt16.ofNat lsb) &&& UInt16.ofNat (2 ^ (msb - lsb + 1) - 1))
      ((s.afterWrite .switch (1 <<< UInt16.ofNat i)).afterRead (.ina232 i rail addr))) :
    Returns bus.env (readINA232Function bus.env i rail addr msb lsb) R s := by
  refine (returns_selectAfeBlock hi hs (R := fun _ t => t = s.afterWrite .switch (1 <<< UInt16.ofNat i)) rfl).bind ?_
  rintro _ _ rfl
  have hdriven : bus.env.driven (.ina232 i rail addr) = some fun _ => bus.ina232 i rail addr := rfl
  exact (returns_read_driven hdriven (R := fun v t =>
    R ((v >>> UInt16.ofNat lsb) &&& UInt16.ofNat (2 ^ (msb - lsb + 1) - 1)) t) hR).bind fun v t ht => returns_pure _ ht

/-- The reads that are only reported. -/
theorem steps_readINA232Function (hi : i < 5) (rail : Rail) {addr msb lsb : Nat} (haddr : addr ≠ 0x6) :
    Steps bus i (readINA232Function bus.env i rail addr msb lsb) id := by
  intro s hs
  have hreads : ∀ j r, ((s.afterWrite .switch (1 <<< UInt16.ofNat i)).afterRead (.ina232 i rail addr)).reads (.ina232 j r 0x6) =
      s.reads (.ina232 j r 0x6) := fun j r => by simp [haddr.symm]
  have hcells : ∀ j, ((s.afterWrite .switch (1 <<< UInt16.ofNat i)).afterRead (.ina232 i rail addr)).cells (outputPort j) =
      s.cells (outputPort j) := fun j => by simp [outputPort]
  refine returns_readINA232Function hi hs rail addr msb lsb ⟨⟨rfl, fun j _ => ⟨fun _ => rfl, hcells j, hreads j⟩⟩, ?_⟩
  simp only [block, hreads, hcells]
  rfl

/-- The alert bit of the word that a current monitor gives. -/
def raised (word : UInt16) : Bool := ((word >>> 4) &&& 1) &&& 0x1 != 0

def Block.store (b : Block) (rail : Rail) : Block :=
  { b with powered := fun r => if r = rail then b.powerStatus rail else b.powered r }

/-- The alert of a rail is latched. -/
def Block.latch (bus : Bus) (i : Nat) (b : Block) (rail : Rail) : Block :=
  if b.alert rail then b
  else
    { b with
      alert := fun r => if r = rail then raised (bus.ina232 i rail 0x6 (b.alertReads rail)) else b.alert r
      alertReads := fun r => if r = rail then b.alertReads rail + 1 else b.alertReads r }

/-- A rail is switched off. -/
def Block.off (b : Block) (rail : Rail) : Block :=
  { b with
    port := (switched b.port.toUInt8 rail false).toUInt16
    powerStatus := fun r => if r = rail then false else b.powerStatus r }

theorem steps_storePowered (rail : Rail) : Steps bus i (storePowered i rail) fun b => b.store rail := by
  intro s _
  have hpowered : Returns bus.env (isPowerOn i rail) (fun p t => p = powerStatus s.driver rail ∧ s = t) s := by
    refine (returns_getDriver (R := fun d t => d = s.driver ∧ s = t) ⟨rfl, rfl⟩).bind ?_
    rintro _ _ ⟨rfl, rfl⟩
    cases rail <;> exact returns_pure _ ⟨rfl, rfl⟩
  refine hpowered.bind ?_
  rintro _ _ ⟨rfl, rfl⟩
  refine returns_modifyDriver ⟨⟨rfl, fun _ _ => ⟨fun _ => rfl, rfl, fun _ => rfl⟩⟩, ?_⟩
  simp only [block, Block.store, storeFlag, and_true, Block.mk.injEq, true_and]
  exact powerStatus_congr rfl rfl

theorem steps_latchAlert (hi : i < 5) (rail : Rail) : Steps bus i (latchAlert bus.env i rail) fun b => b.latch bus i rail := by
  intro s hs
  refine (returns_getDriver (R := fun d t => d = s.driver ∧ s = t) ⟨rfl, rfl⟩).bind ?_
  rintro _ _ ⟨rfl, rfl⟩
  cases hlatched : s.driver.HDMezz_alert rail i with
  | true =>
    have hblock : (block i s).alert rail = true := hlatched
    rw [if_neg (by decide)]
    dsimp only
    rw [Block.latch, if_pos hblock]
    exact returns_pure _ ⟨Frame.refl i s, rfl⟩
  | false =>
    have hblock : (block i s).alert rail ≠ true := by
      simp [block, hlatched]
    rw [if_pos (by decide)]
    dsimp only
    rw [Block.latch, if_neg hblock]
    refine Returns.bind (R := fun alert t => alert = raised (bus.ina232 i rail 0x6 (s.reads (.ina232 i rail 0x6))) ∧
      (s.afterWrite .switch (1 <<< UInt16.ofNat i)).afterRead (.ina232 i rail 0x6) = t) ?_ ?_
    · refine (returns_readINA232Function hi hs rail 0x6 4 4 (R := fun v t =>
        v = (bus.ina232 i rail 0x6 (s.reads (.ina232 i rail 0x6)) >>> 4) &&& 1 ∧
          (s.afterWrite .switch (1 <<< UInt16.ofNat i)).afterRead (.ina232 i rail 0x6) = t) ⟨rfl, rfl⟩).bind ?_
      rintro _ _ ⟨rfl, rfl⟩
      exact returns_pure _ ⟨rfl, rfl⟩
    · rintro _ _ ⟨rfl, rfl⟩
      refine returns_modifyDriver ⟨⟨rfl, fun j hj => ⟨fun r => ?_, ?_, fun r => ?_⟩⟩, ?_⟩
      · exact if_neg fun h => hj h.2
      · simp [outputPort]
      · simp [hj]
      · simp only [block, storeFlag, and_true, Block.mk.injEq]
        refine ⟨rfl, rfl, by simp [outputPort], funext fun r => ?_, powerStatus_congr rfl rfl⟩
        by_cases hr : r = rail
        · simp [hr]
        · simp [hr]

/-- The state after the port of the block has been written and read back. -/
def afterWritePort (i : Nat) (s : MezzState) (port : UInt8) : MezzState :=
  ((s.afterWrite .switch (1 <<< UInt16.ofNat i)).afterWrite (outputPort i) port.toUInt16).tick

theorem returns_writeTCA9536Register (hi : i < 5) (hs : s.driver.enabled_afeBlocks i = true) (port : UInt8) :
    Returns bus.env (writeTCA9536Register bus.env i 0x1 port) (fun _ t => t = afterWritePort i s port) s := by
  refine (returns_selectAfeBlock hi hs (R := fun _ t => s.afterWrite .switch (1 <<< UInt16.ofNat i) = t) rfl).bind ?_
  rintro _ _ rfl
  refine (returns_write (R := fun _ t =>
    (s.afterWrite .switch (1 <<< UInt16.ofNat i)).afterWrite (outputPort i) port.toUInt16 = t) rfl).bind ?_
  rintro _ _ rfl
  refine (returns_read_cell rfl (R := fun v t => v = port.toUInt16 ∧ afterWritePort i s port = t) ⟨?_, rfl⟩).bind ?_
  · exact Function.update_self ..
  rintro _ _ ⟨rfl, rfl⟩
  rw [if_neg (by simp)]
  exact returns_pure _ rfl

theorem steps_powerOff (hi : i < 5) (rail : Rail) :
    Steps bus i (powerOn_HDMezzAfeBlock bus.env i false rail) fun b => b.off rail := by
  intro s hs
  -- the port is read
  refine Returns.bind (R := fun port t => port = (s.cells (outputPort i)).toUInt8 ∧
    (s.afterWrite .switch (1 <<< UInt16.ofNat i)).tick = t) ?_ ?_
  · refine (returns_selectAfeBlock hi hs (R := fun _ t => s.afterWrite .switch (1 <<< UInt16.ofNat i) = t) rfl).bind ?_
    rintro _ _ rfl
    refine (returns_read_cell rfl (R := fun v t => v = s.cells (outputPort i) ∧
      (s.afterWrite .switch (1 <<< UInt16.ofNat i)).tick = t) ⟨by simp [outputPort], rfl⟩).bind ?_
    rintro _ _ ⟨rfl, rfl⟩
    exact returns_pure _ ⟨rfl, rfl⟩
  rintro _ _ ⟨rfl, rfl⟩
  -- it is written with the rail switched off
  refine returns_rethrow ((returns_writeTCA9536Register (s := (s.afterWrite .switch _).tick) hi hs _).bind ?_)
  rintro _ _ rfl
  refine returns_modifyDriver ?_
  have hports : ∀ port j, (afterWritePort i (s.afterWrite .switch (1 <<< UInt16.ofNat i)).tick port).cells (outputPort j) =
      if j = i then port.toUInt16 else s.cells (outputPort j) := by
    intro port j
    by_cases hj : j = i
    · subst hj
      exact (Function.update_self ..).trans (if_pos rfl).symm
    · simp [afterWritePort, State.tick, outputPort, Function.update, hj]
  cases rail <;>
    refine ⟨⟨rfl, fun j hj => ⟨fun _ => rfl, (hports _ j).trans (if_neg hj), fun _ => rfl⟩⟩, ?_⟩ <;>
    simp only [block, Block.off, Block.mk.injEq] <;>
    refine ⟨rfl, rfl, (hports _ i).trans (if_pos rfl), rfl, funext fun r => ?_⟩ <;>
    cases r <;> rfl

/-! ### A block in a pass -/

def Block.alerting (b : Block) : Bool := b.alert .v5 || b.alert .v3v3

/-- Whether a rail is on, as the driver has it; the block does not matter. -/
def Block.statusOn (b : Block) : Bool := b.powerStatus .v5 || b.powerStatus .v3v3

/-- The power status is stored and the alerts are latched. -/
def Block.latched (bus : Bus) (i : Nat) (b : Block) : Block :=
  (((b.store .v5).store .v3v3).latch bus i .v5).latch bus i .v3v3

/-- What a pass does to a block. -/
def Block.monitored (bus : Bus) (i : Nat) (b : Block) : Block :=
  let b := b.latched bus i
  if b.alerting && (b.powered .v5 || b.powered .v3v3) then (b.off .v5).off .v3v3 else b

/-- The alert of a rail after a pass: it was latched, or the pass read it raised. -/
def Block.alertAfter (bus : Bus) (i : Nat) (b : Block) (rail : Rail) : Bool :=
  b.alert rail || raised (bus.ina232 i rail 0x6 (b.alertReads rail))

section
variable (bus : Bus) (i : Nat) (b : Block)

theorem latched_alert (rail : Rail) : (b.latched bus i).alert rail = b.alertAfter bus i rail := by
  cases rail <;> cases h5 : b.alert .v5 <;> cases h3 : b.alert .v3v3 <;>
    simp [Block.latched, Block.latch, Block.store, Block.alertAfter, h5, h3]

theorem latched_alertReads (rail : Rail) :
    (b.latched bus i).alertReads rail = if b.alert rail then b.alertReads rail else b.alertReads rail + 1 := by
  cases rail <;> cases h5 : b.alert .v5 <;> cases h3 : b.alert .v3v3 <;>
    simp [Block.latched, Block.latch, Block.store, h5, h3]

theorem latch_port (rail : Rail) : (b.latch bus i rail).port = b.port := by
  unfold Block.latch
  split <;> rfl

theorem latch_powered (rail : Rail) : (b.latch bus i rail).powered = b.powered := by
  unfold Block.latch
  split <;> rfl

theorem latch_powerStatus (rail : Rail) : (b.latch bus i rail).powerStatus = b.powerStatus := by
  unfold Block.latch
  split <;> rfl

theorem latched_powered (rail : Rail) : (b.latched bus i).powered rail = b.powerStatus rail := by
  rw [Block.latched, latch_powered, latch_powered]
  cases rail <;> simp [Block.store]

theorem latched_port : (b.latched bus i).port = b.port := by
  rw [Block.latched, latch_port, latch_port]
  rfl

theorem latched_powerStatus : (b.latched bus i).powerStatus = b.powerStatus := by
  rw [Block.latched, latch_powerStatus, latch_powerStatus]
  rfl

end

/-- Both rails are off in the word of an output port. -/
def RailsOff (port : UInt16) : Prop := ∀ rail, port.toUInt8 &&& railBit rail = 0

theorem railsOff_off (b : Block) : RailsOff ((b.off .v5).off .v3v3).port := by
  intro rail
  have hbits : ∀ port : UInt8, (port &&& ~~~railBit .v5) &&& ~~~railBit .v3v3 &&& railBit rail = 0 := by
    intro port
    cases rail <;> rw [UInt8.and_assoc, UInt8.and_assoc]
    · exact UInt8.and_zero
    · exact UInt8.and_zero
  show (switched (switched b.port.toUInt8 .v5 false).toUInt16.toUInt8 .v3v3 false).toUInt16.toUInt8 &&& railBit rail = 0
  rw [UInt8.toUInt8_toUInt16, UInt8.toUInt8_toUInt16]
  exact hbits b.port.toUInt8

/-- The rails of a block are off after a pass if it has no alert, if they were off, or if the driver had a rail on. -/
structure Monitored (bus : Bus) (i : Nat) (b b' : Block) : Prop where
  alert : b'.alert = b.alertAfter bus i
  alertReads : b'.alertReads = fun rail => if b.alert rail then b.alertReads rail else b.alertReads rail + 1
  statusOn : b'.statusOn = (b.statusOn && !b'.alerting)
  railsOff : b'.alerting → (RailsOff b'.port ↔ RailsOff b.port ∨ b.statusOn = true)

theorem monitored_spec (bus : Bus) (i : Nat) (b : Block) : Monitored bus i b (b.monitored bus i) := by
  have hpowered : ((b.latched bus i).powered .v5 || (b.latched bus i).powered .v3v3) = b.statusOn := by
    rw [latched_powered, latched_powered, Block.statusOn]
  have hstatus : (b.latched bus i).statusOn = b.statusOn := by
    rw [Block.statusOn, latched_powerStatus, Block.statusOn]
  have halerts : (b.latched bus i).alert = b.alertAfter bus i := funext (latched_alert bus i b)
  have hreads := funext (latched_alertReads bus i b)
  rw [Block.monitored, hpowered]
  cases hoff : (b.latched bus i).alerting && b.statusOn with
  | false =>
    rw [if_neg (by decide)]
    refine ⟨halerts, hreads, ?_, fun halert => ?_⟩
    · cases hon : b.statusOn with
      | false => rw [hstatus, hon, Bool.false_and]
      | true =>
        rw [hon, Bool.and_true] at hoff
        rw [hstatus, hon, hoff, Bool.not_false, Bool.and_true]
    · rw [halert, Bool.true_and] at hoff
      rw [latched_port, hoff]
      simp
  | true =>
    obtain ⟨halert, hon⟩ := Bool.and_eq_true_iff.mp hoff
    rw [if_pos rfl]
    refine ⟨halerts, hreads, ?_, fun _ => iff_of_true (railsOff_off _) (Or.inr hon)⟩
    show false = (b.statusOn && !(b.latched bus i).alerting)
    rw [halert, Bool.not_true, Bool.and_false]

theorem returns_isAfeBlockEnabled (hi : i < 5) :
    Returns bus.env (isAfeBlockEnabled i) (fun enabled t => enabled = s.driver.enabled_afeBlocks i ∧ s = t) s := by
  rw [isAfeBlockEnabled, if_neg (by omega)]
  exact (returns_getDriver (R := fun d t => d = s.driver ∧ s = t) ⟨rfl, rfl⟩).bind fun _ _ ⟨hd, ht⟩ =>
    returns_pure _ ⟨by rw [hd], ht⟩

theorem steps_powerOffOnAlert (hi : i < 5) :
    Steps bus i (do
      let d ← getDriver
      if (d.HDMezz_alert .v5 i || d.HDMezz_alert .v3v3 i) && (d.HDMezz_is_powered .v5 i || d.HDMezz_is_powered .v3v3 i) then
        powerOn_HDMezzAfeBlock bus.env i false .v5
        powerOn_HDMezzAfeBlock bus.env i false .v3v3
      else return ())
    fun b => if b.alerting && (b.powered .v5 || b.powered .v3v3) then (b.off .v5).off .v3v3 else b := by
  intro s hs
  refine (returns_getDriver (R := fun d t => d = s.driver ∧ s = t) ⟨rfl, rfl⟩).bind ?_
  rintro _ _ ⟨rfl, rfl⟩
  show Returns _ _ (fun _ t => Frame i s t ∧ block i t = if (s.driver.HDMezz_alert .v5 i || s.driver.HDMezz_alert .v3v3 i) &&
    (s.driver.HDMezz_is_powered .v5 i || s.driver.HDMezz_is_powered .v3v3 i) then ((block i s).off .v5).off .v3v3 else block i s) _
  split
  · exact (steps_powerOff hi .v5).bind (fun _ => steps_powerOff hi .v3v3) s hs
  · exact returns_pure _ ⟨Frame.refl i s, rfl⟩

theorem steps_monitorBlock (hi : i < 5) : Steps bus i (monitorBlock bus.env i) fun b => b.monitored bus i := by
  intro s hs
  refine (returns_isAfeBlockEnabled hi).bind ?_
  rintro _ _ ⟨rfl, rfl⟩
  rw [hs]
  have hread : ∀ rail (addr msb lsb : Nat), addr ≠ 0x6 → Steps bus i (readINA232Function bus.env i rail addr msb lsb) id :=
    fun rail _ _ _ => steps_readINA232Function hi rail
  exact ((steps_storePowered .v5).bind fun _ => (steps_storePowered .v3v3).bind fun _ =>
    (hread .v5 0x2 14 0 (by decide)).bind fun _ => (hread .v5 0x4 15 0 (by decide)).bind fun _ =>
    (hread .v3v3 0x2 14 0 (by decide)).bind fun _ => (hread .v3v3 0x4 15 0 (by decide)).bind fun _ =>
    (hread .v5 0x3 15 0 (by decide)).bind fun _ => (hread .v3v3 0x3 15 0 (by decide)).bind fun _ =>
    (steps_latchAlert hi .v5).bind fun _ => (steps_latchAlert hi .v3v3).bind fun _ => steps_powerOffOnAlert hi) s hs

theorem monitorBlock_of_not_enabled (hi : i < 5) (hs : s.driver.enabled_afeBlocks i = false) :
    Returns bus.env (monitorBlock bus.env i) (fun _ t => s = t) s := by
  refine (returns_isAfeBlockEnabled hi).bind ?_
  rintro _ _ ⟨rfl, rfl⟩
  rw [hs]
  exact returns_pure _ rfl

/-! ### A pass -/

/-- A block has an alert after a pass from the state: one was latched, or the pass reads it raised. -/
def Alerts (bus : Bus) (s : MezzState) (i : Nat) : Prop :=
  s.driver.enabled_afeBlocks i = true ∧ ∃ rail, (block i s).alertAfter bus i rail = true

/-- Whether the driver has a rail on, on any block. -/
def StatusOn (s : MezzState) : Prop := s.driver.powerStatus5V = true ∨ s.driver.powerStatus3V3 = true

theorem statusOn_block : (block i s).statusOn = true ↔ StatusOn s := Bool.or_eq_true_iff

/-- What a pass from `s` has done with a block. -/
structure Done (bus : Bus) (s : MezzState) (i : Nat) (t : MezzState) : Prop where
  alert : ∀ rail, t.driver.HDMezz_alert rail i = (block i s).alertAfter bus i rail
  alertReads : ∀ rail, t.reads (.ina232 i rail 0x6) =
    if s.driver.HDMezz_alert rail i then s.reads (.ina232 i rail 0x6) else s.reads (.ina232 i rail 0x6) + 1
  railsOff : Alerts bus s i → (RailsOff (t.cells (outputPort i)) ↔
    RailsOff (s.cells (outputPort i)) ∨ StatusOn s ∧ ∀ j < i, ¬Alerts bus s j)

theorem Done.kept (h : Done bus s i t) (h' : Kept i t u) : Done bus s i u where
  alert rail := (h'.alert rail).trans (h.alert rail)
  alertReads rail := (h'.alertReads rail).trans (h.alertReads rail)
  railsOff halerts := by
    rw [h'.port]
    exact h.railsOff halerts

/-- A pass from `s` has handled the blocks below `k`. -/
structure Handled (bus : Bus) (s : MezzState) (k : Nat) (t : MezzState) : Prop where
  enabled : t.driver.enabled_afeBlocks = s.driver.enabled_afeBlocks
  statusOn : StatusOn t ↔ StatusOn s ∧ ∀ j < k, ¬Alerts bus s j
  done : ∀ j < k, s.driver.enabled_afeBlocks j = true → Done bus s j t
  rest : ∀ j, k ≤ j → Kept j s t

theorem handled_start (bus : Bus) (s : MezzState) : Handled bus s 0 s where
  enabled := rfl
  statusOn := by simp
  done j hj := absurd hj (Nat.not_lt_zero j)
  rest _ _ := ⟨fun _ => rfl, rfl, fun _ => rfl⟩

theorem alertAfter_kept (h : Kept i s t) (rail : Rail) :
    (block i t).alertAfter bus i rail = (block i s).alertAfter bus i rail := by
  show (t.driver.HDMezz_alert rail i || raised (bus.ina232 i rail 0x6 (t.reads (.ina232 i rail 0x6)))) = _
  rw [h.alert, h.alertReads]
  rfl

theorem Handled.step {k : Nat} (hk : k < 5) (h : Handled bus s k t) :
    Returns bus.env (monitorBlock bus.env k) (fun _ u => Handled bus s (k + 1) u) t := by
  have hkept := h.rest k (Nat.le_refl k)
  cases henabled : s.driver.enabled_afeBlocks k with
  | false =>
    refine (monitorBlock_of_not_enabled hk (by rw [h.enabled]; exact henabled)).mono ?_
    rintro _ _ rfl
    have hnot : ¬Alerts bus s k := fun ⟨hon, _⟩ => by simp [henabled] at hon
    refine ⟨h.enabled, ?_, fun j hj hon => ?_, fun j hj => h.rest j (by omega)⟩
    · rw [h.statusOn, Nat.forall_lt_succ_right]
      simp [hnot]
    · rcases Nat.lt_succ_iff_lt_or_eq.mp hj with hj | rfl
      · exact h.done j hj hon
      · simp [henabled] at hon
  | true =>
    refine (steps_monitorBlock hk t (by rw [h.enabled]; exact henabled)).mono ?_
    rintro _ u ⟨hframe, hblock⟩
    have hspec : Monitored bus k (block k t) (block k u) := hblock ▸ monitored_spec bus k (block k t)
    have halert : ∀ rail, u.driver.HDMezz_alert rail k = (block k s).alertAfter bus k rail := fun rail =>
      (congrFun hspec.alert rail).trans (alertAfter_kept hkept rail)
    have halerting : (block k u).alerting = true ↔ Alerts bus s k := by
      show (u.driver.HDMezz_alert .v5 k || u.driver.HDMezz_alert .v3v3 k) = true ↔ _
      rw [halert, halert, Bool.or_eq_true_iff, Alerts, henabled]
      exact ⟨fun h => ⟨rfl, h.elim (fun h => ⟨_, h⟩) fun h => ⟨_, h⟩⟩, fun ⟨_, rail, h⟩ => by cases rail <;> simp [h]⟩
    refine ⟨hframe.enabled.trans h.enabled, ?_, fun j hj hon => ?_, fun j hj => ?_⟩
    · have hstatus := hspec.statusOn
      rw [← statusOn_block (i := k), hstatus, Bool.and_eq_true_iff, statusOn_block, h.statusOn, Nat.forall_lt_succ_right,
        Bool.not_eq_true', ← Bool.not_eq_true, halerting, and_assoc]
    · rcases Nat.lt_succ_iff_lt_or_eq.mp hj with hj | rfl
      · exact (h.done j hj hon).kept (hframe.others j (by omega))
      · refine ⟨halert, fun rail => ?_, fun halerts => ?_⟩
        · have hreads := congrFun hspec.alertReads rail
          have hread : (block j t).alertReads rail = s.reads (.ina232 j rail 0x6) := hkept.alertReads rail
          have hlatched : (block j t).alert rail = s.driver.HDMezz_alert rail j := hkept.alert rail
          rw [hread, hlatched] at hreads
          exact hreads
        · have hoff := hspec.railsOff (halerting.mpr halerts)
          rw [statusOn_block, h.statusOn] at hoff
          exact hkept.port ▸ hoff
    · exact (h.rest j (by omega)).trans (hframe.others j (by omega))

theorem handled_pass (bus : Bus) (s : MezzState) :
    Returns bus.env ((List.range 5).mapM (monitorBlock bus.env)) (fun _ t => Handled bus s 5 t) s :=
  returns_mapM_range (Handled bus s) (handled_start bus s) fun _ hk _ ht => ht.step hk

theorem handled_monitorPass (hclean : bus.env.Clean s (monitorPass bus.env s)) : Handled bus s 5 (monitorPass bus.env s) := by
  have hrun := (handled_pass bus s).run
  unfold monitorPass at hclean ⊢
  unfold wp at hrun
  split at hrun
  · rename_i heq
    rw [heq]
    exact hrun.2
  · rename_i heq
    rw [heq] at hclean
    exact absurd hclean hrun

/-! ### Runs -/

/-- In a pass from `s` to `t`, an alert was raised on a rail of the block, or one is latched. -/
def AlertSeen (bus : Bus) (s t : MezzState) (i : Nat) : Prop :=
  ∃ rail, t.driver.HDMezz_alert rail i = true ∨ ∃ n, s.reads (.ina232 i rail 0x6) ≤ n ∧ n < t.reads (.ina232 i rail 0x6) ∧
    raised (bus.ina232 i rail 0x6 n) = true

/-- After a pass from `s` to `t` both rails of every enabled block with an alert are off. -/
def PoweredOff (bus : Bus) (s t : MezzState) : Prop :=
  ∀ i < 5, t.driver.enabled_afeBlocks i = true → AlertSeen bus s t i → RailsOff (t.cells (outputPort i))

/-- The state before a pass: on each block that has an alert the rails are off, or the driver has a rail on and no
    earlier block has an alert. -/
def Ready (bus : Bus) (s : MezzState) : Prop :=
  ∀ i < 5, Alerts bus s i → RailsOff (s.cells (outputPort i)) ∨ StatusOn s ∧ ∀ j < i, ¬Alerts bus s j

theorem alertSeen_iff (h : Done bus s i t) (hi : s.driver.enabled_afeBlocks i = true) :
    AlertSeen bus s t i ↔ Alerts bus s i := by
  constructor
  · rintro ⟨rail, hlatched | ⟨n, hle, hlt, hraised⟩⟩
    · exact ⟨hi, rail, (h.alert rail).symm.trans hlatched⟩
    · refine ⟨hi, rail, Bool.or_eq_true_iff.mpr (Or.inr ?_)⟩
      rw [h.alertReads rail] at hlt
      split at hlt
      · omega
      · rw [show n = s.reads (.ina232 i rail 0x6) by omega] at hraised
        exact hraised
  · rintro ⟨-, rail, halert⟩
    exact ⟨rail, Or.inl ((h.alert rail).trans halert)⟩

theorem poweredOff_iff_ready (h : Handled bus s 5 t) : PoweredOff bus s t ↔ Ready bus s := by
  constructor
  · intro hoff i hi halerts
    have hdone := h.done i hi halerts.1
    have hon : t.driver.enabled_afeBlocks i = true := by
      rw [h.enabled]
      exact halerts.1
    exact (hdone.railsOff halerts).mp (hoff i hi hon ((alertSeen_iff hdone halerts.1).mpr halerts))
  · intro hready i hi hon hseen
    rw [h.enabled] at hon
    have hdone := h.done i hi hon
    have halerts := (alertSeen_iff hdone hon).mp hseen
    exact (hdone.railsOff halerts).mpr (hready i hi halerts)

/-- The state before each pass of a run in which no access throws has a property. -/
def BeforePasses (bus : Bus) (actions : List Action) (s : MezzState) (p : MezzState → Prop) : Prop :=
  ∀ pre, pre ++ [.monitorPass] <+: actions →
    bus.env.Clean (runActions bus.env pre s) (monitorPass bus.env (runActions bus.env pre s)) → p (runActions bus.env pre s)

/-- Along a run, the passes switch the rails off exactly if the states before them are ready. -/
theorem powersOff_iff (bus : Bus) (cells : Reg → UInt16) (reads : Reg → Nat) (accesses : Nat) (actions : List Action) :
    BeforePasses bus actions (serverStart cells reads accesses) (fun s => PoweredOff bus s (monitorPass bus.env s)) ↔
      BeforePasses bus actions (serverStart cells reads accesses) (Ready bus) :=
  forall_congr' fun _ => forall_congr' fun _ => forall_congr' fun hclean => poweredOff_iff_ready (handled_monitorPass hclean)

/-- A bus on which nothing throws and only the 5 V monitor of block 1 raises its alert. -/
def alertBus : Bus where
  faults _ := none
  ina232 afeBlock rail addr _ := if afeBlock = 1 ∧ rail = .v5 ∧ addr = 0x6 then 0x10 else 0

/-- Block 1 is switched on and block 0 off; the alert of block 1 then does not switch it off. -/
theorem block0_off_keeps_block1_on : ¬BeforePasses alertBus
    [.setBlockEnable 0 true, .setBlockEnable 1 true, .setPowerStates 1 true true, .setPowerStates 0 false false, .monitorPass]
    (serverStart (fun _ => 0) (fun _ => 0) 0) (fun s => PoweredOff alertBus s (monitorPass alertBus.env s)) := by
  intro h
  have hpass := h [.setBlockEnable 0 true, .setBlockEnable 1 true, .setPowerStates 1 true true, .setPowerStates 0 false false]
    List.prefix_rfl (fun _ _ _ => rfl) 1 (by decide) (by decide +kernel) ⟨.v5, Or.inl (by decide +kernel)⟩ .v5
  exact absurd hpass (by decide +kernel)

end HdMezz
end DaphneZmq
