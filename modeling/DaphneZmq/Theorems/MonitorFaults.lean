import DaphneZmq.Theorems.HdMezz
import DaphneZmq.Lib.Frame

/-! # What a failure in a pass of the monitor leaves undone

The `try` of the monitor is around the whole pass, so the first failure ends it. The blocks in front have been handled by
then, and nothing that is done or fails behind them changes that; the blocks behind are left to the next pass. -/

namespace DaphneZmq
open Lib Lib.Device
namespace HdMezz

variable {i j : Nat} {s t u : MezzState} {bus : Bus} {α β : Type}

/-! ### Beside a block -/

/-- Nothing that the monitor keeps of block `i` changes. -/
structure Beside (i : Nat) (s t : MezzState) : Prop extends Kept i s t where
  enabled : t.driver.enabled_afeBlocks = s.driver.enabled_afeBlocks
  powered : ∀ rail, t.driver.HDMezz_is_powered rail i = s.driver.HDMezz_is_powered rail i

theorem Beside.refl (i : Nat) (s : MezzState) : Beside i s s := ⟨⟨fun _ => rfl, rfl, fun _ => rfl⟩, rfl, fun _ => rfl⟩

def Effect.beside (i : Nat) : Effect Reg UInt16 Driver where
  Rel := Beside i
  refl := Beside.refl i
  trans h h' := ⟨h.toKept.trans h'.toKept, h'.enabled.trans h.enabled, fun rail => (h'.powered rail).trans (h.powered rail)⟩
  tick _ := ⟨⟨fun _ => rfl, rfl, fun _ => rfl⟩, rfl, fun _ => rfl⟩

theorem does_beside_read {reg : Reg} (h : ∀ rail, reg ≠ .ina232 i rail 0x6) :
    Does (Effect.beside i) (read bus.env reg : MezzProg UInt16) := by
  refine ⟨fun s => ?_⟩
  unfold wp Device.read
  cases bus.env.faults s.accesses with
  | some e => exact (Effect.beside i).tick s
  | none =>
    cases bus.env.driven reg with
    | none => exact (Effect.beside i).tick s
    | some values => exact ⟨⟨fun _ => rfl, rfl, fun rail => Function.update_of_ne (h rail).symm _ _⟩, rfl, fun _ => rfl⟩

theorem does_beside_write {reg : Reg} (h : reg ≠ outputPort i) (w : UInt16) :
    Does (Effect.beside i) (write bus.env reg w : MezzProg Unit) := by
  refine ⟨fun s => wp_write.mpr ?_⟩
  cases bus.env.faults s.accesses with
  | some e => exact (Effect.beside i).tick s
  | none => exact ⟨⟨fun _ => rfl, Function.update_of_ne h.symm _ _, fun _ => rfl⟩, rfl, fun _ => rfl⟩

theorem does_beside_selectAfeBlock : Does (Effect.beside i) (selectAfeBlock bus.env j) := by
  refine does_getDriver.bind fun d => ?_
  split
  · exact does_throw _
  · split
    · exact does_throw _
    · exact does_beside_write (fun h : Reg.switch = outputPort i => nomatch h) _

theorem does_beside_readINA232Function (hij : i ≠ j) (rail : Rail) (addr msb lsb : Nat) :
    Does (Effect.beside i) (readINA232Function bus.env j rail addr msb lsb) := by
  have hreg : ∀ r, Reg.ina232 j rail addr ≠ .ina232 i r 0x6 := fun r h => hij (by cases h; rfl)
  exact does_beside_selectAfeBlock.bind fun _ => (does_beside_read hreg).bind fun _ => does_pure _

theorem does_beside_storePowered (hij : i ≠ j) (rail : Rail) : Does (Effect.beside i) (storePowered j rail) := by
  have hpowered : Does (Effect.beside i) (isPowerOn j rail) := does_getDriver.bind fun d => by cases rail <;> exact does_pure _
  exact hpowered.bind fun powered => does_modifyDriver fun s => ⟨⟨fun _ => rfl, rfl, fun _ => rfl⟩, rfl,
    fun r => if_neg fun h => hij h.2⟩

theorem does_beside_latchAlert (hij : i ≠ j) (rail : Rail) : Does (Effect.beside i) (latchAlert bus.env j rail) := by
  refine does_getDriver.bind fun d => ?_
  split
  · have halert : Does (Effect.beside i) (checkAlertStatus bus.env j rail) :=
      (does_beside_readINA232Function hij rail 0x6 4 4).bind fun _ => does_pure _
    exact halert.bind fun alert => does_modifyDriver fun s => ⟨⟨fun r => if_neg fun h => hij h.2, rfl, fun _ => rfl⟩, rfl, fun _ => rfl⟩
  · exact does_pure _

theorem does_beside_powerOn (hij : i ≠ j) (powerOn : Bool) (rail : Rail) :
    Does (Effect.beside i) (powerOn_HDMezzAfeBlock bus.env j powerOn rail) := by
  have hport : outputPort j ≠ outputPort i := fun h => hij (by cases h; rfl)
  have hread : Does (Effect.beside i) (read bus.env (outputPort j) : MezzProg UInt16) := does_beside_read nofun
  refine (does_beside_selectAfeBlock.bind fun _ => hread.bind fun _ => does_pure _).bind fun port => does_rethrow ?_
  refine Does.bind (does_beside_selectAfeBlock.bind fun _ => (does_beside_write hport _).bind fun _ => hread.bind fun readback => ?_) ?_
  · split
    · exact does_throw _
    · exact does_pure _
  · exact fun _ => does_modifyDriver fun s => by cases rail <;> exact ⟨⟨fun _ => rfl, rfl, fun _ => rfl⟩, rfl, fun _ => rfl⟩

/-- Handling another block leaves block `i` alone, also when an access throws. -/
theorem does_beside_monitorBlock (hij : i ≠ j) : Does (Effect.beside i) (monitorBlock bus.env j) := by
  have henabled : Does (Effect.beside i) (isAfeBlockEnabled j) := by
    unfold isAfeBlockEnabled
    split
    · exact does_throw _
    · exact does_getDriver.bind fun d => does_pure _
  have hread (rail : Rail) (addr msb lsb : Nat) : Does (Effect.beside i) (readINA232Function bus.env j rail addr msb lsb) :=
    does_beside_readINA232Function hij rail addr msb lsb
  refine henabled.bind fun enabled => ?_
  split
  · refine (does_beside_storePowered hij .v5).bind fun _ => (does_beside_storePowered hij .v3v3).bind fun _ =>
      (hread .v5 0x2 14 0).bind fun _ => (hread .v5 0x4 15 0).bind fun _ => (hread .v3v3 0x2 14 0).bind fun _ =>
      (hread .v3v3 0x4 15 0).bind fun _ => (hread .v5 0x3 15 0).bind fun _ => (hread .v3v3 0x3 15 0).bind fun _ =>
      (does_beside_latchAlert hij .v5).bind fun _ => (does_beside_latchAlert hij .v3v3).bind fun _ =>
      does_getDriver.bind fun d => ?_
    split
    · exact (does_beside_powerOn hij false .v5).bind fun _ => does_beside_powerOn hij false .v3v3
    · exact does_pure _
  · exact does_pure _

/-! ### The blocks in front of a failure -/

/-- A pass from `s` to `t` has checked the alert of each rail of the block, and has switched its rails off if there is an alert and
the driver says that a rail is on. -/
structure Guarded (bus : Bus) (s t : MezzState) (i : Nat) : Prop where
  checked : ∀ rail, t.driver.HDMezz_alert rail i =
    (s.driver.HDMezz_alert rail i || raised (bus.ina232 i rail 0x6 (s.reads (.ina232 i rail 0x6))))
  poweredOff : (∃ rail, t.driver.HDMezz_alert rail i = true) → (∃ rail, t.driver.HDMezz_is_powered rail i = true) →
    RailsOff (t.cells (outputPort i))

/-- A block that has an alert and a rail on, as the driver has it, has its rails off after it has been handled. -/
theorem railsOff_monitored {b : Block} {rail : Rail} (halerting : (b.monitored bus i).alerting = true)
    (hpowered : (b.monitored bus i).powered rail = true) : RailsOff (b.monitored bus i).port := by
  have hboth : ∀ b' : Block, b'.powered rail = true → (b'.powered .v5 || b'.powered .v3v3) = true := by
    intro b' h
    cases rail <;> simp [h]
  unfold Block.monitored at halerting hpowered ⊢
  dsimp only at halerting hpowered ⊢
  split at halerting
  · rename_i hoff
    rw [if_pos hoff]
    exact railsOff_off _
  · rename_i hkeep
    rw [if_neg hkeep] at hpowered
    rw [halerting, hboth _ hpowered] at hkeep
    exact absurd rfl hkeep

theorem guarded_monitorBlock {a : Unit} (hi : i < 5) (hs : s.driver.enabled_afeBlocks i = true)
    (h : monitorBlock bus.env i s = .ok a t) : Guarded bus s t i := by
  have hsteps : Steps bus i (monitorBlock bus.env i) (Block.monitored bus i) := steps_monitorBlock hi
  obtain ⟨-, -, hblock⟩ := wp_ok (hsteps s hs).run h
  have hspec := monitored_spec bus i (block i s)
  refine ⟨fun rail => ?_, ?_⟩
  · have halert := congrFun hspec.alert rail
    rw [← hblock] at halert
    exact halert
  · rintro ⟨r, halert⟩ ⟨r', hpowered⟩
    have halerting : ((block i s).monitored bus i).alerting = true := by
      rw [← hblock, Block.alerting, Bool.or_eq_true]
      cases r
      · exact Or.inl halert
      · exact Or.inr halert
    have hport : t.cells (outputPort i) = ((block i s).monitored bus i).port := congrArg Block.port hblock
    have hstored : ((block i s).monitored bus i).powered r' = true := by
      rw [← hblock]
      exact hpowered
    rw [hport]
    exact railsOff_monitored halerting hstored

theorem Guarded.beside (h : Guarded bus s t i) (h' : Beside i t u) : Guarded bus s u i where
  checked rail := (h'.alert rail).trans (h.checked rail)
  poweredOff := by
    rintro ⟨r, halert⟩ ⟨r', hpowered⟩
    rw [h'.port]
    exact h.poweredOff ⟨r, (h'.alert r).symm.trans halert⟩ ⟨r', (h'.powered r').symm.trans hpowered⟩

theorem Guarded.of_beside (h : Guarded bus t u i) (h' : Beside i s t) : Guarded bus s u i where
  checked rail := by
    rw [h.checked, h'.alert, h'.alertReads]
  poweredOff := h.poweredOff

/-- No access of a pass from `s` fails before block `i` has been handled. -/
def Through (bus : Bus) (s : MezzState) (i : Nat) : Prop :=
  ∃ as t, (List.range (i + 1)).mapM (monitorBlock bus.env) s = .ok as t

theorem does_beside_blocks {js : List Nat} (h : i ∉ js) : Does (Effect.beside i) (js.mapM (monitorBlock bus.env)) := by
  induction js with
  | nil => exact does_pure []
  | cons j js ih =>
    rw [List.mapM_cons]
    have hij : i ≠ j := fun hij => h (hij ▸ List.mem_cons_self)
    refine (does_beside_monitorBlock hij).bind fun a => ?_
    exact (ih fun hmem => h (List.mem_cons_of_mem j hmem)).bind fun as => does_pure _

theorem beside_of_ok {m : MezzProg α} {a : α} (h : Does (Effect.beside i) m) (hm : m s = .ok a t) : Beside i s t := by
  have hrun := wp_ok (h.run s) hm
  exact hrun

/-- Whatever fails in a pass, each enabled block that has been handled before is checked, and switched off if it has an alert. -/
theorem monitorPass_guards (bus : Bus) (s : MezzState) (i : Nat) (hi : i < 5) (henabled : s.driver.enabled_afeBlocks i = true)
    (hthrough : Through bus s i) : Guarded bus s (monitorPass bus.env s) i := by
  obtain ⟨as, u, hthrough⟩ := hthrough
  -- the pass: the blocks in front, block `i`, and the blocks behind
  have hsplit : List.range 5 = List.range (i + 1) ++ (List.range (4 - i)).map (i + 1 + ·) := by
    rw [← List.range_add]
    congr 1
    omega
  have hbehind : i ∉ (List.range (4 - i)).map (i + 1 + ·) := fun h => by
    obtain ⟨k, -, hk⟩ := List.mem_map.mp h
    omega
  have hu : Guarded bus s u i := by
    rw [List.range_succ, List.mapM_append] at hthrough
    obtain ⟨front, t, hfront, hthrough⟩ := bind_eq_ok hthrough
    obtain ⟨last, u', hlast, hthrough⟩ := bind_eq_ok hthrough
    cases hthrough
    rw [List.mapM_cons] at hlast
    obtain ⟨a, u', hblock, hlast⟩ := bind_eq_ok hlast
    cases hlast
    have hbeside : Beside i s t := beside_of_ok (does_beside_blocks List.not_mem_range_self) hfront
    have hguarded := guarded_monitorBlock hi (hbeside.enabled.symm ▸ henabled) hblock
    exact hguarded.of_beside hbeside
  refine hu.beside ?_
  have hrest : Does (Effect.beside i) (((List.range (4 - i)).map (i + 1 + ·)).mapM (monitorBlock bus.env)) :=
    does_beside_blocks hbehind
  have hrun := (hrest.bind fun bs => does_pure (as ++ bs)).run u
  unfold monitorPass
  rw [hsplit, List.mapM_append, bind_ok hthrough]
  unfold wp at hrun
  split at hrun
  · rename_i heq
    rw [heq]
    exact hrun
  · rename_i heq
    rw [heq]
    exact hrun

/-! ### The blocks behind a failure -/

/-- A bus on which the `n`-th access fails and the 5 V monitor of block 1 raises its alert. -/
def failingBus (n : Nat) : Bus where
  faults m := if m = n then some "I2C transfer failed" else none
  ina232 := alertBus.ina232

/-- Two blocks are enabled, and block 1 is switched on; the bus has had ten accesses then. -/
def poweredState (other n : Nat) : MezzState :=
  runActions (failingBus n).env [.setBlockEnable other true, .setBlockEnable 1 true, .setPowerStates 1 true true]
    (serverStart (fun _ => 0) (fun _ => 0) 0)

/-- The first access of block 0 fails and nothing else does; the alert of block 1 is not checked. -/
theorem block0_failure_hides_block1 : ¬∀ (bus : Bus) (s : MezzState) (j : Nat) (front : List Unit) (t u : MezzState) (e : String),
    (List.range j).mapM (monitorBlock bus.env) s = .ok front t → monitorBlock bus.env j t = .error e u →
      (∀ n, u.accesses ≤ n → bus.faults n = none) →
      ∀ i < 5, i ≠ j → s.driver.enabled_afeBlocks i = true → Guarded bus s (monitorPass bus.env s) i := by
  intro h
  have hguarded := h (failingBus 10) (poweredState 0 10) 0 [] (poweredState 0 10) _ _ rfl rfl
    (fun n hn => if_neg (Nat.ne_of_gt hn)) 1 (by decide) (by decide) (by decide +kernel)
  exact absurd (hguarded.checked .v5) (by decide +kernel)

/-- The first access of block 2 fails; block 1 has been checked and is switched off. -/
theorem block2_failure_guards_block1 : Guarded (failingBus 36) (poweredState 2 36) (monitorPass (failingBus 36).env (poweredState 2 36)) 1 :=
  monitorPass_guards (failingBus 36) (poweredState 2 36) 1 (by decide) (by decide +kernel) ⟨_, _, rfl⟩

end HdMezz
end DaphneZmq
