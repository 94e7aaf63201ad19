import Mathlib.Data.Set.List
import DaphneZmq.Theorems.MezzBus

/-! # The threads take turns

Each access reaches its block, so it can be taken as one of a register of that block. Then a request or a pass of the
monitor changes the registers and the members as its program in `HdMezz` does, and what the threads do in any interleaving is
what these programs do one after the other. -/

namespace DaphneZmq
open Lib.Device Lib.Threads

namespace MezzBus
open HdMezz (Rail Driver MezzState MezzProg Action)

/-! ### Scripts on registers -/

/-- The registers with all members. -/
abbrev BusState := State HdMezz.Reg UInt16 Members

def Register.reg (register : Register) : HdMezz.Reg := match register.chip with
  | .tca9536 => .tca9536 register.afeBlock register.addr.toNat
  | .ina232 rail => .ina232 register.afeBlock rail register.addr.toNat

/-- What a program gives, and the state after it. -/
def outcome {σ α : Type} : EStateM.Result String σ α → Except String α × σ
  | .ok a s => (.ok a, s)
  | .error what s => (.error what, s)

/-- An operation when each access is one of the register that it names. -/
def Op.act (env : Env HdMezz.Reg UInt16) : (o : Op) → BusState → o.Res × BusState
  | .transact (.select switch), s => outcome (write env HdMezz.Reg.switch switch.toUInt16 s)
  | .transact (.point _), s => (.ok (), s)
  | .transact (.fetch register), s => outcome (read env register.reg s)
  | .transact (.store register word), s => outcome (write env register.reg word s)
  | .members, s => (s.driver, s)
  | .update f, s => ((), { s with driver := f s.driver })
  | .load, s => (s.driver, s)

/-- Without the members that `HdMezz` leaves out. -/
def driverState (s : BusState) : MezzState := ⟨s.cells, s.reads, s.accesses, s.writes, s.driver.toDriver⟩

theorem driverState_accesses (s : BusState) : (driverState s).accesses = s.accesses := rfl

variable {env : Env HdMezz.Reg UInt16} {α β γ δ : Type}

/-- The same result, up to `R`, and the same state. -/
def Agrees (R : α → β → Prop) : Except String α × BusState → EStateM.Result String MezzState β → Prop
  | (.ok a, s), .ok b t => R a b ∧ driverState s = t
  | (.error what, s), .error what' t => what = what' ∧ driverState s = t
  | _, _ => False

theorem Agrees.cases {R : α → β → Prop} {x : Except String α × BusState} {y : EStateM.Result String MezzState β} (h : Agrees R x y) :
    (∃ a b s, x = (.ok a, s) ∧ y = .ok b (driverState s) ∧ R a b) ∨ ∃ what s, x = (.error what, s) ∧ y = .error what (driverState s) := by
  obtain ⟨r, s⟩ := x
  cases r with
  | ok a =>
    cases y with
    | ok b t => exact .inl ⟨a, b, s, rfl, by rw [h.2], h.1⟩
    | error what t => exact h.elim
  | error what =>
    cases y with
    | ok b t => exact h.elim
    | error what' t => exact .inr ⟨what, s, rfl, by rw [h.1, h.2]⟩

/-- The script does what the program does. -/
def Plays (env : Env HdMezz.Reg UInt16) (R : α → β → Prop) (m : MezzScript α) (p : MezzProg β) : Prop :=
  ∀ s, Agrees R (m.run.alone (Op.act env) s) (p (driverState s))

namespace Plays
variable {R : α → β → Prop} {R' : γ → δ → Prop} {m : MezzScript α} {p : MezzProg β} {f : α → MezzScript γ} {g : β → MezzProg δ}

theorem pure {a : α} {b : β} (h : R a b) : Plays env R (pure a) (pure b) := fun _ => ⟨h, rfl⟩

theorem throw {what : String} : Plays env R (throw what) (throw what) := fun _ => ⟨rfl, rfl⟩

theorem bind (h : Plays env R m p) (hf : ∀ a b, R a b → Plays env R' (f a) (g b)) : Plays env R' (m >>= f) (p >>= g) := by
  intro s
  have halone : (m >>= f).run.alone (Op.act env) s = _ := Script.alone_bind m.run _ s
  rcases (h s).cases with ⟨a, b, t, hx, hy, hR⟩ | ⟨what, t, hx, hy⟩
  · rw [halone, hx, bind_ok hy]
    exact hf a b hR t
  · rw [halone, hx, bind_error hy]
    exact ⟨rfl, rfl⟩

theorem rethrow {g : String → String} (h : Plays env R m p) : Plays env R (MezzBus.rethrow g m) (Lib.Device.rethrow g p) := by
  intro s
  have halone : (MezzBus.rethrow g m).run.alone (Op.act env) s = _ := Script.alone_bind m.run _ s
  rw [halone]
  unfold Lib.Device.rethrow
  rcases (h s).cases with ⟨a, b, t, hx, hy, hR⟩ | ⟨what, t, hx, hy⟩
  · rw [hx, hy]
    exact ⟨hR, rfl⟩
  · rw [hx, hy]
    exact ⟨rfl, rfl⟩

theorem members : Plays env (fun (m : Members) (d : Driver) => m.toDriver = d) members getDriver := fun _ => ⟨rfl, rfl⟩

theorem load : Plays env (fun (m : Members) (d : Driver) => m.toDriver = d) load getDriver := fun _ => ⟨rfl, rfl⟩

theorem update {f : Members → Members} {g : Driver → Driver} (h : ∀ m, (f m).toDriver = g m.toDriver) :
    Plays env (fun _ _ => True) (update f) (modifyDriver g) := by
  refine fun s => ⟨trivial, ?_⟩
  unfold driverState
  simp only [Op.act, h]

/-- The driver has no such members. -/
theorem update_other {f : Members → Members} (h : ∀ m, (f m).toDriver = m.toDriver) :
    Plays env (fun _ _ => True) (MezzBus.update f) (Pure.pure ()) := by
  refine fun s => ⟨trivial, ?_⟩
  unfold driverState
  simp only [Op.act, h]

/-- What a script does at its end to no member of the driver. -/
theorem tail (h : Plays env R m p) (hf : ∀ a, Plays env (fun _ _ => True) (f a) (Pure.pure ())) :
    Plays env (fun _ _ => True) (m >>= f) p := by
  intro s
  have halone : (m >>= f).run.alone (Op.act env) s = _ := Script.alone_bind m.run _ s
  rcases (h s).cases with ⟨a, b, t, hx, hy, -⟩ | ⟨what, t, hx, hy⟩
  · rw [halone, hx, hy]
    rcases (hf a t).cases with ⟨c, u, t', hx', hy', -⟩ | ⟨what, t', -, hy'⟩
    · have hstate : driverState t = driverState t' := (EStateM.Result.ok.inj hy').2
      change Agrees _ ((f a).run.alone (Op.act env) t) _
      rw [hx', hstate]
      exact ⟨trivial, rfl⟩
    · cases hy'
  · rw [halone, hx, hy]
    exact ⟨rfl, rfl⟩

/-- A program goes on to another result. -/
theorem result {g : β → δ} {S : α → δ → Prop} (h : Plays env R m p) (hS : ∀ a b, R a b → S a (g b)) :
    Plays env S m (p >>= fun b => Pure.pure (g b)) := by
  intro s
  rcases (h s).cases with ⟨a, b, t, hx, hy, hR⟩ | ⟨what, t, hx, hy⟩
  · rw [hx, bind_ok hy]
    exact ⟨hS a b hR, rfl⟩
  · rw [hx, bind_error hy]
    exact ⟨rfl, rfl⟩

end Plays

theorem agrees_read (reg : HdMezz.Reg) (s : BusState) :
    Agrees (· = ·) (outcome (read env reg s)) (read env reg (driverState s)) := by
  unfold Lib.Device.read
  rw [driverState_accesses]
  cases env.faults s.accesses with
  | some what => exact ⟨rfl, rfl⟩
  | none => cases env.driven reg <;> exact ⟨rfl, rfl⟩

theorem agrees_write (reg : HdMezz.Reg) (word : UInt16) (s : BusState) :
    Agrees (· = ·) (outcome (write env reg word s)) (write env reg word (driverState s)) := by
  unfold write
  rw [driverState_accesses]
  cases env.faults s.accesses <;> exact ⟨rfl, rfl⟩

/-! ### The driver -/

theorem toUInt16_encoder {afeBlock : Nat} (h : ¬afeBlock > 4) :
    ∃ switch, HDMezzExpanderEncoder[afeBlock]? = some switch ∧ switch.toUInt16 = 1 <<< UInt16.ofNat afeBlock := by
  match afeBlock, h with
  | 0, _ | 1, _ | 2, _ | 3, _ | 4, _ => exact ⟨_, rfl, rfl⟩
  | n + 5, h => omega

theorem plays_selectAfeBlock (afeBlock : Nat) :
    Plays env (· = ·) (selectAfeBlock afeBlock) (HdMezz.selectAfeBlock env afeBlock) := by
  unfold selectAfeBlock HdMezz.selectAfeBlock
  split
  · exact fun s => ⟨rfl, rfl⟩
  · rename_i hblock
    obtain ⟨switch, hswitch, hword⟩ := toUInt16_encoder hblock
    refine Plays.members.bind fun m d hd => ?_
    subst hd
    rw [hswitch, ← hword]
    split
    · exact Plays.throw
    · exact fun s => agrees_write .switch switch.toUInt16 s

theorem plays_readDevice (register : Register) : Plays env (· = ·) (readDevice register) (read env register.reg) :=
  fun s => agrees_read register.reg s

theorem plays_store (register : Register) (word : UInt16) :
    Plays env (· = ·) (transact (.store register word)) (write env register.reg word) := fun s => agrees_write register.reg word s

theorem plays_readINA232Function (afeBlock : Nat) (rail : Rail) (f : INA232Function) : Plays env (· = ·)
    (readINA232Function afeBlock rail f)
    (HdMezz.readINA232Function env afeBlock rail f.bitField.registerAddr.toNat f.bitField.msb_pos f.bitField.lsb_pos) := by
  unfold HdMezz.readINA232Function
  rw [← bind_assoc]
  refine ((plays_selectAfeBlock afeBlock).bind fun _ _ _ => plays_readDevice ⟨afeBlock, .ina232 rail, _⟩).bind fun word word' hword => ?_
  subst hword
  exact Plays.pure rfl

theorem plays_readTCA9536Register (afeBlock : Nat) (addr : UInt8) :
    Plays env (· = ·) (readTCA9536Register afeBlock addr) (HdMezz.readTCA9536Register env afeBlock addr.toNat) := by
  refine (plays_selectAfeBlock afeBlock).bind fun _ _ _ => (plays_readDevice ⟨afeBlock, .tca9536, addr⟩).bind fun word word' hword => ?_
  subst hword
  exact Plays.pure rfl

theorem plays_writeTCA9536Register (afeBlock : Nat) (addr value : UInt8) :
    Plays env (· = ·) (writeTCA9536Register afeBlock addr value) (HdMezz.writeTCA9536Register env afeBlock addr.toNat value) := by
  let register : Register := ⟨afeBlock, .tca9536, addr⟩
  refine (plays_selectAfeBlock afeBlock).bind fun _ _ _ => (plays_store register _).bind fun _ _ _ =>
    (plays_readDevice register).bind fun readback readback' hreadback => ?_
  subst hreadback
  rw [UInt8.ofNat_toNat]
  dsimp only
  split
  · exact Plays.throw
  · exact Plays.pure rfl

theorem plays_powerOn_HDMezzAfeBlock (afeBlock : Nat) (powerOn : Bool) (rail : Rail) : Plays env (fun _ _ => True)
    (powerOn_HDMezzAfeBlock afeBlock powerOn rail) (HdMezz.powerOn_HDMezzAfeBlock env afeBlock powerOn rail) := by
  refine (plays_readTCA9536Register afeBlock 0x1).bind fun port port' hport => Plays.rethrow ?_
  subst hport
  refine (plays_writeTCA9536Register afeBlock 0x1 _).bind fun _ _ _ => Plays.update fun m => ?_
  cases rail <;> rfl

/-! ### The monitor -/

theorem plays_isPowerOn (i : Nat) (rail : Rail) : Plays env (· = ·) (isPowerOn i rail) (HdMezz.isPowerOn i rail) := by
  refine Plays.members.bind fun m d hd => ?_
  subst hd
  cases rail <;> exact Plays.pure rfl

theorem plays_isAfeBlockEnabled (i : Nat) : Plays env (· = ·) (isAfeBlockEnabled i) (HdMezz.isAfeBlockEnabled i) := by
  unfold isAfeBlockEnabled HdMezz.isAfeBlockEnabled
  split
  · exact Plays.throw
  · refine Plays.members.bind fun m d hd => ?_
    subst hd
    exact Plays.pure rfl

theorem plays_storePowered (i : Nat) (rail : Rail) : Plays env (fun _ _ => True) (storePowered i rail) (HdMezz.storePowered i rail) := by
  refine (plays_isPowerOn i rail).bind fun powered powered' hpowered => ?_
  subst hpowered
  exact Plays.update fun _ => rfl

theorem plays_latchAlert (i : Nat) (rail : Rail) : Plays env (fun _ _ => True) (latchAlert i rail) (HdMezz.latchAlert env i rail) := by
  refine Plays.load.bind fun m d hd => ?_
  subst hd
  split
  · refine Plays.bind (R := (· = ·)) ?_ fun alert alert' halert => ?_
    · refine (plays_readINA232Function i rail .AFF).bind fun value value' hvalue => ?_
      subst hvalue
      exact Plays.pure rfl
    · subst halert
      exact Plays.update fun _ => rfl
  · exact Plays.pure trivial

theorem alone_loadEither (flag : Members → Rail → Nat → Bool) (i : Nat) (s : BusState) :
    (loadEither flag i).run.alone (Op.act env) s = (.ok (flag s.driver .v5 i || flag s.driver .v3v3 i), s) := by
  change (if flag s.driver .v5 i then pure true else do return flag (← load) .v3v3 i : MezzScript Bool).run.alone (Op.act env) s = _
  cases flag s.driver .v5 i <;> rfl

/-- The flags are loaded one by one, but nothing comes in between. -/
theorem plays_poweredInAlert (i : Nat) : Plays env (fun off (d : Driver) => off = ((d.HDMezz_alert .v5 i || d.HDMezz_alert .v3v3 i) &&
    (d.HDMezz_is_powered .v5 i || d.HDMezz_is_powered .v3v3 i))) (poweredInAlert i) getDriver := by
  intro s
  have halone : (poweredInAlert i).run.alone (Op.act env) s = _ := Script.alone_bind (loadEither _ i).run _ s
  rw [halone, alone_loadEither]
  change Agrees _ ((if (s.driver.HDMezz_alert .v5 i || s.driver.HDMezz_alert .v3v3 i) then loadEither (·.HDMezz_is_powered) i
    else pure false : MezzScript Bool).run.alone (Op.act env) s) _
  split
  · rename_i halert
    rw [alone_loadEither]
    refine ⟨?_, rfl⟩
    change _ = ((s.driver.HDMezz_alert .v5 i || s.driver.HDMezz_alert .v3v3 i) && _)
    rw [halert, Bool.true_and]
    rfl
  · rename_i halert
    refine ⟨?_, rfl⟩
    change _ = ((s.driver.HDMezz_alert .v5 i || s.driver.HDMezz_alert .v3v3 i) && _)
    rw [Bool.eq_false_of_not_eq_true halert, Bool.false_and]

theorem plays_monitorBlock (i : Nat) : Plays env (fun _ _ => True) (monitorBlock i) (HdMezz.monitorBlock env i) := by
  have hmeasured {f : UInt16 → MezzScript Float} {g : Float → Members → Members} (rail : Rail) (function : INA232Function)
      (hf : ∀ value, Plays env (fun _ _ => True) (f value) (Pure.pure ())) (hg : ∀ x m, (g x m).toDriver = m.toDriver) :
      Plays env (fun _ _ => True) ((readINA232Function i rail function >>= f) >>= fun x => update (g x))
        (HdMezz.readINA232Function env i rail function.bitField.registerAddr.toNat function.bitField.msb_pos function.bitField.lsb_pos) :=
    ((plays_readINA232Function i rail function).tail hf).tail fun x => Plays.update_other (hg x)
  have hscaled (scale : Members → UInt16 → Float) (value : UInt16) : Plays env (fun _ _ => True)
      (members >>= fun m => (pure (scale m value) : MezzScript Float)) (Pure.pure ()) := fun s => ⟨trivial, rfl⟩
  have hvoltage (rail : Rail) : Plays env (fun _ _ => True) (storeVoltage i rail) (HdMezz.readRailVoltage env i rail) :=
    hmeasured rail .VBUS (fun _ => Plays.pure trivial) fun _ _ => rfl
  have hcurrent (rail : Rail) : Plays env (fun _ _ => True) (storeCurrent i rail) (HdMezz.readRailCurrent env i rail) :=
    hmeasured rail .CURRENT (hscaled _) fun _ _ => rfl
  have hpower (rail : Rail) : Plays env (fun _ _ => True) (storePower i rail) (HdMezz.readRailPower env i rail) :=
    hmeasured rail .POWER (hscaled _) fun _ _ => rfl
  refine (plays_isAfeBlockEnabled i).bind fun enabled enabled' henabled => ?_
  subst henabled
  split
  · refine (plays_storePowered i .v5).bind fun _ _ _ => (plays_storePowered i .v3v3).bind fun _ _ _ => (hvoltage .v5).bind fun _ _ _ =>
      (hcurrent .v5).bind fun _ _ _ => (hvoltage .v3v3).bind fun _ _ _ => (hcurrent .v3v3).bind fun _ _ _ =>
      (hpower .v5).bind fun _ _ _ => (hpower .v3v3).bind fun _ _ _ => (plays_latchAlert i .v5).bind fun _ _ _ =>
      (plays_latchAlert i .v3v3).bind fun _ _ _ => (plays_poweredInAlert i).bind fun off d hoff => ?_
    subst hoff
    split
    · exact (plays_powerOn_HDMezzAfeBlock i false .v5).bind fun _ _ _ => plays_powerOn_HDMezzAfeBlock i false .v3v3
    · exact Plays.pure trivial
  · exact Plays.pure trivial

theorem plays_blocks (l : List Nat) : Plays env (fun _ _ => True) (l.forM monitorBlock) (l.mapM (HdMezz.monitorBlock env)) := by
  induction l with
  | nil => exact Plays.pure trivial
  | cons i l ih =>
    rw [List.mapM_cons]
    exact (plays_monitorBlock i).bind fun _ _ _ => ih.result fun _ _ _ => trivial

/-! ### Turns -/

/-- The script of an action. -/
def job : Action → Script Op Op.Res Unit
  | .setBlockEnable afeBlock enable => (Request.setHDMezzBlockEnable afeBlock enable).serve true
  | .setPowerStates afeBlock power_5v power_3v3 => (Request.setHDMezzPowerStates afeBlock power_5v power_3v3).serve true
  | .clearAlertFlag afeBlock => (Request.clearHDMezzAlertFlag afeBlock).serve true
  | .monitorPass => monitorPass true

/-- A handler leaves what its program leaves. -/
theorem agrees_answer {empty : α} {failure : String} {m : MezzScript (String × α)} {p : MezzProg (String × α)}
    (h : Plays env (· = ·) m p) (s : BusState) : driverState ((discard (answer empty failure m)).alone (Op.act env) s).2 =
      (HdMezz.answer empty failure p (driverState s)).2 := by
  have hdiscard : (discard (answer empty failure m)).alone (Op.act env) s = _ := Script.alone_bind (answer empty failure m) _ s
  have hanswer : (answer empty failure m).alone (Op.act env) s = _ := Script.alone_bind m.run _ s
  rw [hdiscard, hanswer]
  unfold HdMezz.answer
  rcases (h s).cases with ⟨a, b, t, hx, hy, rfl⟩ | ⟨what, t, hx, hy⟩
  · rw [hx, hy]
    rfl
  · rw [hx, hy]
    rfl

/-- The flag that the guard sets and clears is not one of the driver's members. -/
theorem plays_busGuard {R : α → β → Prop} {m : MezzScript α} {p : MezzProg β} (h : Plays env R m p) : Plays env R (busGuard m) p := by
  intro s
  let s₁ : BusState := { s with driver := { s.driver with isI2C_2_device_configuring := true } }
  have halone : (busGuard m).run.alone (Op.act env) s = _ := Script.alone_bind m.run _ s₁
  change Agrees R _ (p (driverState s₁))
  rw [halone]
  rcases (h s₁).cases with ⟨a, b, t, hx, hy, hR⟩ | ⟨what, t, hx, hy⟩
  · rw [hx, hy]
    exact ⟨hR, rfl⟩
  · rw [hx, hy]
    exact ⟨rfl, rfl⟩

theorem alone_monitorPass (s : BusState) :
    driverState ((monitorPass true).alone (Op.act env) s).2 = HdMezz.monitorPass env (driverState s) := by
  have halone : (monitorPass true).alone (Op.act env) s = _ := Script.alone_bind ((List.range 5).forM monitorBlock).run _ s
  rw [halone]
  unfold HdMezz.monitorPass
  rcases (plays_blocks (List.range 5) s).cases with ⟨a, b, t, hx, hy, -⟩ | ⟨what, t, hx, hy⟩
  · rw [hx, hy]
    rfl
  · rw [hx, hy]
    rfl

theorem alone_job (a : Action) (s : BusState) : driverState ((job a).alone (Op.act env) s).2 = a.run env (driverState s) := by
  have hcheck (afeBlock : Nat) : Plays env (fun _ _ => True) (checkRequest true afeBlock) (HdMezz.checkBlock afeBlock) := by
    unfold checkRequest HdMezz.checkBlock
    split
    · exact Plays.throw
    · exact Plays.pure trivial
  cases a with
  | setBlockEnable afeBlock enable =>
    refine agrees_answer ((hcheck afeBlock).bind fun _ _ _ => plays_busGuard ?_) s
    refine Plays.bind (R := fun _ _ => True) ?_ fun _ _ _ => Plays.pure rfl
    unfold enableAfeBlock HdMezz.enableAfeBlock
    split
    · exact Plays.throw
    · exact Plays.update fun _ => rfl
  | setPowerStates afeBlock power_5v power_3v3 =>
    refine agrees_answer ((hcheck afeBlock).bind fun _ _ _ => plays_busGuard ?_) s
    exact (plays_powerOn_HDMezzAfeBlock afeBlock power_5v .v5).bind fun _ _ _ =>
      (plays_powerOn_HDMezzAfeBlock afeBlock power_3v3 .v3v3).bind fun _ _ _ => Plays.pure rfl
  | clearAlertFlag afeBlock =>
    refine agrees_answer ((hcheck afeBlock).bind fun _ _ _ => plays_busGuard ?_) s
    exact (Plays.update fun _ => rfl).bind fun _ _ _ => (Plays.update fun _ => rfl).bind fun _ _ _ => Plays.pure rfl
  | monitorPass => exact alone_monitorPass s

/-- Actions one after the other, as scripts and as programs. -/
theorem driverState_serial (actions : List Action) (s : BusState) :
    driverState (serial (Op.act env) (actions.map job) s) = HdMezz.runActions env actions (driverState s) := by
  induction actions generalizing s with
  | nil => rfl
  | cons a actions ih =>
    change driverState (serial (Op.act env) (actions.map job) ((job a).alone (Op.act env) s).2) = _
    rw [ih, alone_job]
    rfl

theorem job_job (a : Action) : (job a).Job rules := by
  cases a with
  | setBlockEnable afeBlock enable => exact job_serve true (.setHDMezzBlockEnable afeBlock enable)
  | setPowerStates afeBlock power_5v power_3v3 => exact job_serve true (.setHDMezzPowerStates afeBlock power_5v power_3v3)
  | clearAlertFlag afeBlock => exact job_serve true (.clearHDMezzAlertFlag afeBlock)
  | monitorPass => exact job_monitorPass true

/-- Whenever no thread has the bus, what the threads have made of the registers and the members in any interleaving is what
some actions make of them one after the other. -/
theorem exists_runActions {s₀ : BusState} {c : Config Thread Op Op.Res BusState}
    (hc : Reachable (fun _ s o r s' => Op.act env o s = (r, s')) (fun _ script => ∃ a, script = job a) (· = s₀) c) (hfree : c.owner = none) :
    ∃ actions, driverState c.shared = HdMezz.runActions env actions (driverState s₀) := by
  have hjobs : ∀ (_ : Thread) script, (∃ a, script = job a) → script.Job rules := by
    rintro t script ⟨a, rfl⟩
    exact job_job a
  obtain ⟨done, hturn⟩ := inTurn_of_reachable (fun o s ho => by cases ho; rfl) hjobs hc
  have hactions : done ∈ Set.range (List.map job) := by
    rw [Set.range_list_map]
    intro script hmem
    obtain ⟨t, a, rfl⟩ := hturn.made script hmem
    exact ⟨a, rfl⟩
  obtain ⟨actions, rfl⟩ := hactions
  exact ⟨actions, by rw [hturn.free hfree, driverState_serial]⟩

end MezzBus
end DaphneZmq
