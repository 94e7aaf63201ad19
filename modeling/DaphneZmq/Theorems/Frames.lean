import DaphneZmq.Handlers
import DaphneZmq.Theorems.Dac

/-! What the parts of the handlers leave alone. The trims and offsets, the gains and biases, and the AFE registers have
addresses and keys of their own, so that a handler of one of them is apart from the others. -/

namespace DaphneZmq
open Lib Lib.Device

/-! ### Registers -/

section Registers
variable {D V : Type} {mine : Nat → Prop} {view : D → V} {env : Env Nat UInt32}

theorem Reg.does_apart_readBits (f : BitField) : Does (.apart mine view) (readBits env f : Prog Nat UInt32 D UInt32) :=
  does_apart_of_quiet (does_quiet_readBits f)

theorem Reg.does_apart_writeBits {f : BitField} (hf : ¬mine f.addr) (data : UInt32) :
    Does (.apart mine view) (writeBits env f data : Prog Nat UInt32 D UInt32) :=
  (does_apart_read f.addr).bind fun _ =>
    ((does_apart_write hf _).bind fun _ => does_apart_read f.addr).bind fun _ => does_apart_readBits f

theorem Spi.does_apart_waitNotBusy : Does (.apart mine view) (waitNotBusy env : Prog Nat UInt32 D Unit) :=
  does_apart_of_quiet (does_quiet_waitNotBusy env)

theorem Spi.does_apart_setData {f : BitField} (hf : ¬mine f.addr) (value : UInt32) :
    Does (.apart mine view) (setData env f value : Prog Nat UInt32 D UInt32) :=
  does_apart_waitNotBusy.bind fun _ => (Reg.does_apart_writeBits hf value).bind fun _ =>
    does_apart_waitNotBusy.bind fun _ => does_pure _

theorem Spi.does_quiet_getData (f : BitField) : Does .quiet (getData env f : Prog Nat UInt32 D UInt32) :=
  (does_quiet_waitNotBusy env).bind fun _ => (Reg.does_quiet_readBits f).bind fun _ =>
    (does_quiet_waitNotBusy env).bind fun _ => does_pure _

theorem Dac.does_quiet_waitNotBusy : Does .quiet (waitNotBusy env : Prog Nat UInt32 D Unit) :=
  ⟨fun s => (does_pollWhile ((Reg.does_quiet_readBits _).bind fun _ => does_pure _) (env.polls s.accesses)).run s⟩

theorem Spi.pollNotBusy_eq : ∀ polls, pollNotBusy env polls = (pollWhile (isBusy env) timeout polls : Prog Nat UInt32 D Unit)
  | 0 => rfl
  | polls + 1 => by
    rw [pollNotBusy, pollWhile, Spi.pollNotBusy_eq polls]

/-! Registers that are mapped do not throw. -/

/-- A field is written: the word that was read, with the field replaced, is at the end of the log. -/
structure Reg.Wrote (env : Env Nat UInt32) (f : BitField) (data : UInt32) (s t : State Nat UInt32 D) : Prop where
  driver : t.driver = s.driver
  write : ∃ old reads, (env.driven f.addr = none → old = s.cells f.addr) ∧
    t.cells = Function.update s.cells f.addr (f.insert old data) ∧
    t.writes = s.writes ++ [⟨s.cells, reads, f.addr, f.insert old data⟩]

theorem Reg.Wrote.of_quiet {f : BitField} {data : UInt32} {s s' t t' : State Nat UInt32 D} (h : Wrote env f data s' t)
    (hs : Quiet s s') (ht : Quiet t t') : Wrote env f data s t' := by
  obtain ⟨old, reads, hold, hcells, hwrites⟩ := h.write
  refine ⟨ht.driver.trans (h.driver.trans hs.driver), old, reads, ?_, ?_, ?_⟩
  · rwa [← hs.cells]
  · rw [ht.cells, hcells, hs.cells]
  · rw [ht.writes, hwrites, hs.cells, hs.writes]

section Mapped
variable (hfaults : ∀ n, env.faults n = none)
include hfaults

theorem wp_read_mapped (a : Nat) (s : State Nat UInt32 D) :
    wp (Device.read env a) (fun v t => Quiet s t ∧ (env.driven a = none → v = s.cells a)) (fun _ _ => False) s := by
  unfold wp Device.read
  rw [hfaults]
  cases env.driven a with
  | none => exact ⟨⟨rfl, rfl, rfl⟩, fun _ => rfl⟩
  | some values => exact ⟨⟨rfl, rfl, rfl⟩, nofun⟩

theorem Reg.wp_readBits_mapped (f : BitField) (s : State Nat UInt32 D) :
    wp (readBits env f) (fun _ t => Quiet s t) (fun _ _ => False) s :=
  wp_bind.mpr (wp_mono (wp_read_mapped hfaults f.addr s) (fun _ _ h => h.1) fun _ _ h => h)

theorem Reg.wp_writeBits_mapped (f : BitField) (data : UInt32) (s : State Nat UInt32 D) :
    wp (writeBits env f data) (fun _ t => Wrote env f data s t) (fun _ _ => False) s := by
  have hprog : writeBits env f data = (read env f.addr >>= fun value =>
      write env f.addr (f.insert value data) >>= fun _ => readRegister env f.addr >>= fun _ => readBits env f : Prog _ _ D _) := by
    simp only [writeBits, writeRegister, bind_assoc]
  rw [hprog]
  refine wp_bind.mpr (wp_mono (wp_read_mapped hfaults f.addr s) (fun old t ht => ?_) fun _ _ h => h)
  obtain ⟨hquiet, hold⟩ := ht
  refine wp_bind.mpr (wp_write.mpr ?_)
  rw [hfaults]
  have hwrote : Wrote env f data s (t.afterWrite f.addr (f.insert old data)) := by
    refine ⟨hquiet.driver, old, t.reads, hold, ?_, ?_⟩
    · rw [State.afterWrite_cells, hquiet.cells]
    · rw [State.afterWrite, hquiet.cells, hquiet.writes]
  refine wp_bind.mpr (wp_mono (wp_read_mapped hfaults f.addr _) (fun _ u hu => ?_) fun _ _ h => h)
  refine wp_mono (wp_readBits_mapped hfaults f u) (fun _ v hv => ?_) fun _ _ h => h
  exact hwrote.of_quiet ⟨rfl, rfl, rfl⟩ (Effect.quiet.trans hu.1 hv)

theorem Spi.wp_isBusy (s : State Nat UInt32 D) : wp (isBusy env) (fun _ t => Quiet s t) (fun _ _ => False) s :=
  wp_bind.mpr (wp_mono (Reg.wp_readBits_mapped hfaults _ s) (fun _ _ h => h) fun _ _ h => h)

theorem Spi.wp_waitNotBusy (s : State Nat UInt32 D) :
    wp (waitNotBusy env) (fun _ t => Quiet s t) (fun e t => e = timeout ∧ Quiet s t) s := by
  have h : wp (pollWhile (isBusy env) timeout _) _ _ s := wp_pollWhile (Spi.wp_isBusy hfaults) (env.polls s.accesses) s
  rwa [← Spi.pollNotBusy_eq] at h

theorem Spi.wp_setData_mapped (f : BitField) (value : UInt32) (s : State Nat UInt32 D) :
    wp (setData env f value) (fun _ t => Reg.Wrote env f value s t) (fun e _ => e = timeout) s := by
  refine wp_bind.mpr (wp_mono (Spi.wp_waitNotBusy hfaults s) (fun _ t ht => ?_) fun _ _ h => h.1)
  refine wp_bind.mpr (wp_mono (Reg.wp_writeBits_mapped hfaults f value t) (fun _ u hu => ?_) fun _ _ h => h.elim)
  refine wp_bind.mpr (wp_mono (Spi.wp_waitNotBusy hfaults u) (fun _ v hv => ?_) fun _ _ h => h.1)
  exact hu.of_quiet ht hv

theorem Dac.wp_isBusy (s : State Nat UInt32 D) : wp (isBusy env) (fun _ t => Quiet s t) (fun _ _ => False) s :=
  wp_bind.mpr (wp_mono (Reg.wp_readBits_mapped hfaults _ s) (fun _ _ h => h) fun _ _ h => h)

theorem Dac.wp_waitNotBusy (s : State Nat UInt32 D) :
    wp (waitNotBusy env) (fun _ t => Quiet s t) (fun e t => e = timeout ∧ Quiet s t) s :=
  wp_pollWhile (Dac.wp_isBusy hfaults) (env.polls s.accesses) s

end Mapped
end Registers

/-! ### Parts of the server -/

section Avoids
variable {V : Type}

/-- Neither the addresses nor the view are of the trims and offsets. -/
structure AvoidsChannels (mine : Nat → Prop) (view : Daphne → V) : Prop where
  words : ∀ kind, ∀ afe < 5, ¬mine (Dac.registerData kind afe).addr
  values : ∀ d values, view { d with channelValues := values } = view d
  trims : ∀ d ch value, view { d with state := Function.update d.state (.channelTrim ch) value } = view d
  offsets : ∀ d ch value, view { d with state := Function.update d.state (.channelOffset ch) value } = view d

/-- Neither the addresses nor the view are of the gains and biases. -/
structure AvoidsLevels (mine : Nat → Prop) (view : Daphne → V) : Prop where
  chips : ∀ chip : Dac.Chip, ¬mine chip.addr
  control : ¬mine Dac.dacGainBiasControlGo.addr
  enable : ¬mine Dac.biasEnable.addr
  gains : ∀ d afe value, view { d with state := Function.update d.state (.afeAttenuation afe) value } = view d
  biases : ∀ d afe value, view { d with state := Function.update d.state (.biasVoltage afe) value } = view d
  hv : ∀ d value, view { d with state := Function.update d.state .biasControl value } = view d

/-- Neither the addresses nor the view are of the AFE registers. -/
structure AvoidsAfes (mine : Nat → Prop) (view : Daphne → V) : Prop where
  words : ∀ afe < 5, ¬mine (Afe.afeControl afe).addr
  regs : ∀ d afe reg value, view { d with state := Function.update d.state (.afeReg afe reg) value } = view d

/-- The addresses are not those of the registers for the triggers and, if the resets are enabled, of the power control. -/
structure AvoidsControls (b : Board) (mine : Nat → Prop) : Prop where
  power : b.resets = true → ¬mine Afe.afeGlobalControlReset.addr
  triggers : ∀ a, 0x14000020 ≤ a → ¬mine a

variable {mine : Nat → Prop} {view : Daphne → V} {b : Board} {α : Type}

theorem does_setState {key : StateKey}
    (h : ∀ d value, view { d with state := Function.update d.state key value } = view d) (value : UInt32) :
    Does (.apart mine view) (Daphne.setState key value) :=
  does_apart_modifyDriver fun d => h d (some value)

theorem does_checkAfe {G : Effect Nat UInt32 Daphne} {m : Prog Nat UInt32 Daphne α} (h : Does G m) (afe : Nat) :
    Does G (Daphne.checkAfe afe m) := by
  unfold Daphne.checkAfe
  split
  · exact does_throw _
  · exact h

theorem does_checkChannel {G : Effect Nat UInt32 Daphne} {m : Prog Nat UInt32 Daphne α} (h : Does G m) (ch : Nat) :
    Does G (Daphne.checkChannel ch m) := by
  unfold Daphne.checkChannel
  split
  · exact does_throw _
  · exact h

open Handlers

theorem afeBoard2PLMap_lt {board afe : Nat} (h : Chunker.afeBoard2PLMap board = some afe) : afe < 5 := by
  unfold Chunker.afeBoard2PLMap at h
  split at h <;> cases h <;> decide

theorem afePL_cases {f : Nat → Prog Nat UInt32 Daphne α} {board : Nat} (P : Prog Nat UInt32 Daphne α → Prop)
    (hsome : ∀ afe < 5, Chunker.afeBoard2PLMap board = some afe → P (f afe)) (hnone : P (throw "unordered_map::at")) :
    P (afePL board >>= f) := by
  unfold afePL
  cases hmap : Chunker.afeBoard2PLMap board with
  | some afe => exact hsome afe (afeBoard2PLMap_lt hmap) hmap
  | none => exact hnone

theorem does_afePL_bind {G : Effect Nat UInt32 Daphne} {f : Nat → Prog Nat UInt32 Daphne α} {board : Nat}
    (h : ∀ afe < 5, Does G (f afe)) : Does G (afePL board >>= f) :=
  afePL_cases (Does G) (fun afe hafe _ => h afe hafe) (does_throw _)

/-! Trims and offsets. -/

theorem does_apart_setChannel {kind : Dac.Kind} {afe idx ch : Nat} (hword : ¬mine (Dac.registerData kind afe).addr)
    (hvalues : ∀ d data, view { d with channelValues := d.channelValues.set kind afe idx data } = view d)
    (htrim : kind = .trim → ∀ d value, view { d with state := Function.update d.state (.channelTrim ch) value } = view d)
    (hoffset : kind = .offset → ∀ d value, view { d with state := Function.update d.state (.channelOffset ch) value } = view d)
    (value : UInt32) (gain : Bool) : Does (.apart mine view) (setChannel b kind afe idx ch value gain) := by
  refine Does.bind (does_apart_zoom (fun _ => rfl) fun d => ?_) fun _ => ?_
  · have hsend (word : UInt32) : Does (.apart mine fun values => view { d with channelValues := values })
        (Spi.setData b.env (Dac.registerData kind afe) word) := Spi.does_apart_setData hword word
    unfold Dac.updateCurrentRegister
    dsimp only
    split
    · exact does_throw _
    split
    · exact does_throw _
    split
    · exact does_throw _
    refine does_getDriver.bind fun values => ?_
    refine (does_apart_modifyDriver fun values => ?_).bind fun _ => ?_
    · exact hvalues { d with channelValues := values } _
    split
    · exact hsend _
    · exact hsend _
    · exact does_throw _
  · cases kind
    · exact does_checkChannel (does_setState (htrim rfl) value) ch
    · exact does_checkChannel (does_setState (hoffset rfl) value) ch

theorem AvoidsChannels.setChannel (h : AvoidsChannels mine view) {kind : Dac.Kind} {afe : Nat} (hafe : afe < 5)
    (idx ch : Nat) (value : UInt32) (gain : Bool) : Does (.apart mine view) (setChannel b kind afe idx ch value gain) :=
  does_apart_setChannel (h.words kind afe hafe) (fun d _ => h.values d _) (fun _ d value => h.trims d ch value)
    (fun _ d value => h.offsets d ch value) value gain

theorem AvoidsChannels.configureChannel (h : AvoidsChannels mine view) (config : ChannelConfig) :
    Does (.apart mine view) (configureChannel b config) := by
  unfold Handlers.configureChannel
  split
  · exact does_throw _
  · exact does_afePL_bind fun afe hafe => (h.setChannel hafe _ _ _ _).bind fun _ => h.setChannel hafe _ _ _ _

/-! Gains and biases. -/

theorem does_apart_setDacGeneral {chip : Option Dac.Chip} (hchip : ∀ c ∈ chip, ¬mine c.addr)
    (hcontrol : ¬mine Dac.dacGainBiasControlGo.addr) (channel : UInt32) (gain buffer : Bool) (value : UInt32) :
    Does (.apart mine view) (Dac.setDacGeneral b.env chip channel gain buffer value) := by
  have hwait : Does (.apart mine view) (Dac.waitNotBusy b.env) := does_apart_of_quiet Dac.does_quiet_waitNotBusy
  have hfields : Does (.apart mine view) (Dac.setFields b.env chip channel gain buffer value) := by
    cases chip with
    | none => exact does_pure _
    | some chip =>
      have hfield : ¬mine chip.addr := hchip chip rfl
      exact (Reg.does_apart_writeBits hfield _).bind fun _ => (Reg.does_apart_writeBits hfield _).bind fun _ =>
        (Reg.does_apart_writeBits hfield _).bind fun _ => Reg.does_apart_writeBits hfield _
  have htrigger : Does (.apart mine view) (Dac.triggerWrite b.env) :=
    (Reg.does_apart_writeBits hcontrol _).bind fun _ => Reg.does_apart_writeBits hcontrol _
  exact hwait.bind fun _ => hfields.bind fun _ => htrigger.bind fun _ => hwait.bind fun _ => does_pure _

theorem AvoidsLevels.setDacGeneral (h : AvoidsLevels mine view) (chip : Option Dac.Chip) (channel : UInt32)
    (gain buffer : Bool) (value : UInt32) : Does (.apart mine view) (Dac.setDacGeneral b.env chip channel gain buffer value) :=
  does_apart_setDacGeneral (fun chip _ => h.chips chip) h.control channel gain buffer value

theorem AvoidsLevels.setGain (h : AvoidsLevels mine view) (afe : Nat) (value : UInt32) :
    Does (.apart mine view) (setGain b afe value) :=
  ((h.setDacGeneral _ _ _ _ _).bind fun _ => does_pure _).bind fun _ =>
    does_checkAfe (does_setState (fun d value => h.gains d afe value) value) afe

theorem AvoidsLevels.setBias (h : AvoidsLevels mine view) (afe : Nat) (value : UInt32) :
    Does (.apart mine view) (setBias b afe value) :=
  ((h.setDacGeneral _ _ _ _ _).bind fun _ => does_pure _).bind fun _ =>
    does_checkAfe (does_setState (fun d value => h.biases d afe value) value) afe

theorem AvoidsLevels.setBiasControl (h : AvoidsLevels mine view) (value : UInt32) (enable : Bool) :
    Does (.apart mine view) (setBiasControl b value enable) :=
  (h.setDacGeneral _ _ _ _ _).bind fun _ => (Reg.does_apart_writeBits h.enable _).bind fun _ =>
    (does_setState (fun d value => h.hv d value) value).bind fun _ => does_pure _

theorem AvoidsLevels.configureBiasControl (h : AvoidsLevels mine view) (cfg : ConfigureRequest) :
    Does (.apart mine view) (configureBiasControl b cfg) := by
  unfold Handlers.configureBiasControl
  split
  · exact (h.setBiasControl _ _).bind fun _ => does_pure _
  split
  · exact (h.setBiasControl _ _).bind fun _ => does_pure _
  · exact does_pure _

theorem AvoidsLevels.configureLevels (h : AvoidsLevels mine view) (afe : Nat) (config : AFEConfig) :
    Does (.apart mine view) (configureLevels b afe config) := by
  unfold Handlers.configureLevels
  split
  · exact does_throw _
  refine (h.setGain afe _).bind fun _ => ?_
  split
  · exact does_throw _
  split
  · exact h.setBias afe _
  · exact does_pure _

/-! AFE registers. -/

theorem AvoidsAfes.getRegister (h : AvoidsAfes mine view) {afe : Nat} (hafe : afe < 5) (register : UInt32) :
    Does (.apart mine view) (Afe.getRegister b.env afe register) := by
  have hsend (word : UInt32) : Does (.apart mine view) (Spi.setData b.env (Afe.afeControl afe) word) :=
    Spi.does_apart_setData (h.words afe hafe) word
  unfold Afe.getRegister
  split
  · exact does_throw _
  · exact (hsend _).bind fun _ => (hsend _).bind fun _ => (does_apart_of_quiet (Spi.does_quiet_getData _)).bind fun _ =>
      (hsend _).bind fun _ => does_pure _

theorem AvoidsAfes.setRegister (h : AvoidsAfes mine view) {afe : Nat} (hafe : afe < 5) (register value : UInt32) :
    Does (.apart mine view) (Afe.setRegister b.env afe register value) := by
  have hsend (word : UInt32) : Does (.apart mine view) (Spi.setData b.env (Afe.afeControl afe) word) :=
    Spi.does_apart_setData (h.words afe hafe) word
  unfold Afe.setRegister
  split
  · exact does_throw _
  · exact (hsend _).bind fun _ => (hsend _).bind fun _ => (hsend _).bind fun _ =>
      (does_apart_of_quiet (Spi.does_quiet_getData _)).bind fun _ => (hsend _).bind fun _ => does_pure _

theorem AvoidsAfes.setAFEFunction (h : AvoidsAfes mine view) {afe : Nat} (hafe : afe < 5) (functionName : String)
    (value : UInt16) : Does (.apart mine view) (Afe.setAFEFunction b.env b.undefinedMask afe functionName value) := by
  unfold Afe.setAFEFunction
  split
  · exact does_throw _
  split
  · exact does_throw _
  split
  · exact does_throw _
  · exact (h.getRegister hafe _).bind fun _ => (h.setRegister hafe _ _).bind fun _ => (h.getRegister hafe _).bind fun _ =>
      does_pure _

theorem AvoidsAfes.writeAFERegister (h : AvoidsAfes mine view) (afeBlock regAddress regValue : UInt32) :
    Does (.apart mine view) (writeAFERegister b afeBlock regAddress regValue) :=
  does_afePL_bind fun afe hafe => (h.setRegister hafe _ _).bind fun returned =>
    (does_checkAfe (does_setState (fun d value => h.regs d afe regAddress value) returned) afe).bind fun _ => does_pure _

theorem AvoidsAfes.writeAFEFunction (h : AvoidsAfes mine view) (afeBlock : UInt32) (function : String) (configValue : UInt32) :
    Does (.apart mine view) (writeAFEFunction b afeBlock function configValue) := by
  refine does_afePL_bind fun afe hafe => ?_
  split
  · exact does_throw _
  · exact h.setAFEFunction hafe _ _

theorem AvoidsAfes.applySettings (h : AvoidsAfes mine view) {afe : Nat} (hafe : afe < 5) (settings : List (String × UInt32)) :
    Does (.apart mine view) (settings.forM (applySetting b afe)) :=
  does_forM fun _ _ => (h.setAFEFunction hafe _ _).bind fun _ => does_pure _

/-! The power control and the triggers. -/

theorem AvoidsControls.configureReset (h : AvoidsControls b mine) : Does (.apart mine view) (configureReset b) := by
  unfold Handlers.configureReset
  split
  · rename_i hresets
    have hpower := h.power hresets
    exact ((Reg.does_apart_writeBits hpower _).bind fun _ => Reg.does_apart_writeBits hpower _).bind fun _ =>
      (Reg.does_apart_writeBits (f := Afe.afeGlobalControlPowerstate) hpower _).bind fun _ => does_pure _
  · exact does_pure _

theorem AvoidsControls.configurePower (h : AvoidsControls b mine) : Does (.apart mine view) (configurePower b) := by
  unfold Handlers.configurePower
  split
  · rename_i hresets
    exact (Reg.does_apart_writeBits (f := Afe.afeGlobalControlPowerstate) (h.power hresets) _).bind fun _ => does_pure _
  · exact does_pure _

theorem AvoidsControls.writeU32 (h : AvoidsControls b mine) {mem : DevMem} (hbase : 0x94000000 ≤ mem.base) {offset : Nat}
    (hoffset : 0x94000020 ≤ mem.base + offset) (value : UInt32) :
    Does (.apart mine view) (mem.writeU32 offset value) := by
  unfold DevMem.writeU32
  split
  · exact does_throw _
  split
  · exact does_throw _
  · refine ⟨fun s => apart_afterWrite (h.triggers _ ?_)⟩
    unfold fpgaBase
    omega

theorem does_mapMemory_bind {G : Effect Nat UInt32 Daphne} {f : DevMem → Prog Nat UInt32 Daphne α} {base length : Nat}
    (h : ∀ mem : DevMem, mem.base = base → Does G (f mem)) : Does G (DevMem.mapMemory b.mapFails base length >>= f) := by
  refine ⟨fun s => ?_⟩
  rw [wp_bind, wp, DevMem.mapMemory]
  cases b.mapFails s.accesses with
  | some e => exact G.tick s
  | none => exact wp_mono ((h _ rfl).run _) (fun _ _ ht => G.trans (G.tick s) ht) fun _ _ ht => G.trans (G.tick s) ht

theorem AvoidsControls.writeMask (h : AvoidsControls b mine) {reg : Nat} (hreg : 0x94000020 ≤ reg) (mask : UInt32) :
    Does (.apart mine view) (SelfTrigger.writeMask b.mapFails reg mask) :=
  does_mapMemory_bind fun mem hmem => h.writeU32 (by omega) (by omega) mask

theorem AvoidsControls.writeTriggerThresholds (h : AvoidsControls b mine) (cfg : ConfigureRequest) :
    Does (.apart mine view) (SelfTrigger.writeTriggerThresholds b.mapFails cfg) := by
  have hthresholds (channels : List UInt32) (value : UInt32) :
      Does (.apart mine view) (SelfTrigger.writeThresholds b.mapFails channels value) :=
    does_mapMemory_bind fun mem hmem => does_forM fun ch _ => by
      unfold SelfTrigger.thresholdBase at hmem
      exact h.writeU32 (by omega) (by omega) value
  have hmasks (channels : List UInt32) : Does (.apart mine view) (SelfTrigger.writeMasks b.mapFails channels) :=
    (does_attempt (h.writeMask (by decide) _)).bind fun _ => (does_attempt (h.writeMask (by decide) _)).bind fun _ =>
      does_pure _
  unfold SelfTrigger.writeTriggerThresholds
  split
  · exact does_pure _
  split
  · exact does_pure _
  · refine (does_attempt (hthresholds _ _)).bind fun result => ?_
    split
    · exact does_pure _
    · exact (hmasks _).bind fun _ => does_pure _

theorem AvoidsControls.writeSelfTriggerControls (h : AvoidsControls b mine) (cfg : ConfigureRequest) :
    Does (.apart mine view) (SelfTrigger.writeSelfTriggerControls b.mapFails cfg) := by
  have hcontrols : Does (.apart mine view) (SelfTrigger.writeControls b.mapFails cfg) := by
    refine does_mapMemory_bind fun mem hmem => ?_
    have hwrite (offset : Nat) (hoffset : 0x20 ≤ offset) (value : UInt32) :
        Does (.apart mine view) (mem.writeU32 offset value) := by
      unfold SelfTrigger.stuffBase at hmem
      exact h.writeU32 (by omega) (by omega) value
    refine Does.bind ?_ fun _ => (hwrite _ (by decide) _).bind fun _ => (hwrite _ (by decide) _).bind fun _ =>
      (hwrite _ (by decide) _).bind fun _ => (hwrite _ (by decide) _).bind fun _ => does_pure _
    unfold SelfTrigger.writeTpConf
    split
    · exact (hwrite _ (by decide) _).bind fun _ => (hwrite _ (by decide) _).bind fun _ => (hwrite _ (by decide) _).bind fun _ =>
        does_pure _
    · exact does_pure _
  refine (does_attempt hcontrols).bind fun result => ?_
  split <;> exact does_pure _

theorem AvoidsControls.configureBoard (h : AvoidsControls b mine) (hchannels : AvoidsChannels mine view)
    (hlevels : AvoidsLevels mine view) (cfg : ConfigureRequest) : Does (.apart mine view) (configureBoard b cfg) :=
  h.configureReset.bind fun _ => (h.writeTriggerThresholds cfg).bind fun _ => (h.writeSelfTriggerControls cfg).bind fun _ =>
    (does_forM fun config _ => hchannels.configureChannel config).bind fun _ => (hlevels.configureBiasControl cfg).bind fun _ =>
      does_pure _

/-- The channels of a configuration whose first part returns are there. -/
theorem wp_configureBoard_channels (cfg : ConfigureRequest) (s : ServerState) :
    wp (configureBoard b cfg) (fun _ _ => ∀ config ∈ cfg.channels, ¬config.id > 39) (fun _ _ => True) s := by
  have hchannel (config : ChannelConfig) (s : ServerState) :
      wp (configureChannel b config) (fun _ _ => ¬config.id > 39) (fun _ _ => True) s := by
    unfold configureChannel
    split
    · trivial
    · rename_i hid
      exact wp_mono wp_true (fun _ _ _ => hid) fun _ _ h => h
  refine wp_bind.mpr (wp_mono wp_true (fun _ s1 _ => ?_) fun _ _ h => h)
  refine wp_bind.mpr (wp_mono wp_true (fun _ s2 _ => ?_) fun _ _ h => h)
  refine wp_bind.mpr (wp_mono wp_true (fun _ s3 _ => ?_) fun _ _ h => h)
  refine wp_bind.mpr (wp_mono (wp_forM_all hchannel cfg.channels s3) (fun _ s4 h => ?_) fun _ _ h => h)
  exact wp_bind.mpr (wp_mono wp_true (fun _ _ _ => h) fun _ _ h => h)

theorem wp_configureLevels_range (afe : Nat) (config : AFEConfig) (s : ServerState) : wp (configureLevels b afe config)
    (fun _ _ => ¬(config.attenuators > 4095 ∨ config.v_bias > 4095)) (fun _ _ => True) s := by
  unfold configureLevels
  split
  · trivial
  rename_i hgain
  refine wp_bind.mpr (wp_mono wp_true (fun _ t _ => ?_) fun _ _ h => h)
  split
  · trivial
  rename_i hbias
  exact wp_mono wp_true (fun _ _ _ h => h.elim hgain hbias) fun _ _ h => h

end Avoids

/-! ### Requests -/

section Requests
open Handlers
variable {b : Board} {stop : String → Prop} {P : ServerState → Prop} {s : ServerState}

theorem maintains_afePL_bind {α : Type} {f : Nat → Prog Nat UInt32 Daphne α} {board : Nat}
    (h : ∀ afe < 5, Chunker.afeBoard2PLMap board = some afe → Maintains stop P (f afe)) :
    Maintains stop P (afePL board >>= f) :=
  afePL_cases (Maintains stop P) h (maintains_throw _)

/-- What the reads of an AFE answer. -/
theorem readAfeState_eq {board afe : Nat} (hmap : Chunker.afeBoard2PLMap board = some afe) (key : Nat → StateKey) (s : ServerState) :
    (afePL board >>= fun afe => Daphne.checkAfe afe (Daphne.getState (key afe))) s = .ok (s.driver.stateValue (key afe)) s := by
  have hafe : afe < 5 := afeBoard2PLMap_lt hmap
  rw [afePL, hmap]
  show Daphne.checkAfe afe (Daphne.getState (key afe)) s = _
  rw [Daphne.checkAfe, if_neg (by omega)]
  rfl

theorem maintains_getState {key : StateKey} : Maintains stop P (Daphne.getState key) :=
  ⟨fun _ h => h⟩

theorem maintains_checkAfe {α : Type} {m : Prog Nat UInt32 Daphne α} (h : Maintains stop P m) (afe : Nat) :
    Maintains stop P (Daphne.checkAfe afe m) := by
  unfold Daphne.checkAfe
  split
  · exact maintains_throw _
  · exact h

theorem maintains_getChDictValue (kind : Dac.Kind) (ch : Nat) : Maintains stop P (getChDictValue kind ch) := by
  have hget (key : StateKey) : Maintains stop P (Daphne.checkChannel ch (Daphne.getState key)) := by
    unfold Daphne.checkChannel
    split
    · exact maintains_throw _
    · exact maintains_getState
  cases kind <;> exact hget _

theorem maintains_mapM {ι α : Type} {f : ι → Prog Nat UInt32 Daphne α} (h : ∀ x, Maintains stop P (f x)) : ∀ xs : List ι,
    Maintains stop P (xs.mapM f)
  | [] => maintains_pure []
  | x :: xs => by
    rw [List.mapM_cons]
    exact (h x).bind fun _ => (maintains_mapM h xs).bind fun _ => maintains_pure _

/-- A property that survives each part of the handlers of the DACs. -/
structure Survives (b : Board) (stop : String → Prop) (P : ServerState → Prop) : Prop where
  channels : ∀ kind ch afe value gain, ch < 40 → Chunker.afeBoard2PLMap (ch / 8) = some afe → value ≤ 4095 →
    Maintains stop P (setChannel b kind afe (ch % 8) ch value gain)
  gains : ∀ afe < 5, ∀ value ≤ 4095, Maintains stop P (setGain b afe value)
  biases : ∀ afe < 5, ∀ value ≤ 4095, Maintains stop P (setBias b afe value)
  hv : ∀ value ≤ 4095, ∀ enable, Maintains stop P (setBiasControl b value enable)

namespace Survives
variable (h : Survives b stop P)
include h

theorem writeChannel (kind : Dac.Kind) (valueText channelText : String) (ch value : UInt32) (gain : Bool) :
    Maintains stop P (writeChannel b kind valueText channelText ch value gain) := by
  unfold Handlers.writeChannel
  split
  · exact maintains_throw _
  split
  · exact maintains_throw _
  · rename_i hvalue hch
    refine maintains_afePL_bind fun afe _ hmap => ?_
    have hlt : ch.toNat < 40 := Nat.lt_succ_of_le (UInt32.le_iff_toNat_le.mp (UInt32.not_lt.mp hch))
    exact (h.channels kind _ _ _ _ hlt hmap (UInt32.not_lt.mp hvalue)).bind fun _ => maintains_getChDictValue kind _

theorem writeAllChannels (kind : Dac.Kind) (valueText : String) (value : UInt32) (gain : Bool) :
    Maintains stop P (writeAllChannels b kind valueText value gain) := by
  unfold Handlers.writeAllChannels
  split
  · exact maintains_throw _
  · rename_i hvalue
    refine maintains_forM fun ch hch => maintains_afePL_bind fun afe _ hmap => ?_
    exact h.channels kind _ _ _ _ (List.mem_range.mp hch) hmap (UInt32.not_lt.mp hvalue)

theorem writeAllAFE (kind : Dac.Kind) (valueText : String) (afeBlock value : UInt32) (gain : Bool) :
    Maintains stop P (writeAllAFE b kind valueText afeBlock value gain) := by
  unfold Handlers.writeAllAFE
  split
  · exact maintains_throw _
  split
  · exact maintains_throw _
  · rename_i hvalue hblock
    have hle : afeBlock.toNat ≤ 4 := UInt32.le_iff_toNat_le.mp (UInt32.not_lt.mp hblock)
    refine maintains_afePL_bind fun afe _ hmap => maintains_forM fun idx hidx => ?_
    have hidx := List.mem_range.mp hidx
    have hset := h.channels kind (afeBlock.toNat * 8 + idx) afe value gain (by omega)
      (by rwa [show (afeBlock.toNat * 8 + idx) / 8 = afeBlock.toNat by omega]) (UInt32.not_lt.mp hvalue)
    rwa [show (afeBlock.toNat * 8 + idx) % 8 = idx by omega] at hset

theorem writeGain (valueText : String) (afeBlock value : UInt32) : Maintains stop P (writeGain b valueText afeBlock value) := by
  refine maintains_afePL_bind fun afe hafe _ => ?_
  split
  · exact maintains_throw _
  · rename_i hvalue
    exact (h.gains afe hafe _ (UInt32.not_lt.mp hvalue)).bind fun _ => maintains_checkAfe maintains_getState afe

theorem writeAFEBiasVoltage (afeBlock value : UInt32) : Maintains stop P (writeAFEBiasVoltage b afeBlock value) := by
  refine maintains_afePL_bind fun afe hafe _ => ?_
  split
  · exact maintains_throw _
  · rename_i hvalue
    exact (h.biases afe hafe _ (UInt32.not_lt.mp hvalue)).bind fun _ => maintains_checkAfe maintains_getState afe

theorem writeBiasVoltageControl (value : UInt32) (enable : Bool) :
    Maintains stop P (writeBiasVoltageControl b value enable) := by
  unfold Handlers.writeBiasVoltageControl
  split
  · exact maintains_throw _
  · rename_i hvalue
    exact h.hv _ (UInt32.not_lt.mp hvalue) enable

theorem configureBiasControl (cfg : ConfigureRequest) : Maintains stop P (configureBiasControl b cfg) := by
  unfold Handlers.configureBiasControl
  split
  · rename_i hvalue
    exact (h.hv _ hvalue true).bind fun _ => maintains_pure ()
  split
  · exact (h.hv 4095 (by decide) true).bind fun _ => maintains_pure ()
  · exact maintains_pure ()

theorem configureLevels {afe : Nat} (hafe : afe < 5) (config : AFEConfig) :
    Maintains stop P (configureLevels b afe config) := by
  unfold Handlers.configureLevels
  split
  · exact maintains_throw _
  rename_i hgain
  refine (h.gains afe hafe _ (UInt32.not_lt.mp hgain)).bind fun _ => ?_
  split
  · exact maintains_throw _
  rename_i hbias
  split
  · exact h.biases afe hafe _ (UInt32.not_lt.mp hbias)
  · exact maintains_pure ()

section Configure
variable {V : Type} {mine : Nat → Prop} {view : Daphne → V} (hframe : ∀ s t, Apart mine view s t → P s → P t)
include hframe

omit h in
theorem of_avoids (hchannels : AvoidsChannels mine view) (hlevels : AvoidsLevels mine view) : Survives b stop P where
  channels _ _ _ _ _ _ hmap _ := .of_does (hchannels.setChannel (afeBoard2PLMap_lt hmap) _ _ _ _) hframe
  gains afe _ value _ := .of_does (hlevels.setGain afe value) hframe
  biases afe _ value _ := .of_does (hlevels.setBias afe value) hframe
  hv value _ enable := .of_does (hlevels.setBiasControl value enable) hframe

theorem configureBoard (hcontrols : AvoidsControls b mine) {cfg : ConfigureRequest}
    (hchannels : ∀ config ∈ cfg.channels, Maintains stop P (configureChannel b config)) :
    Maintains stop P (Handlers.configureBoard b cfg) :=
  (Maintains.of_does hcontrols.configureReset hframe).bind fun _ =>
    (Maintains.of_does (hcontrols.writeTriggerThresholds cfg) hframe).bind fun _ =>
      (Maintains.of_does (hcontrols.writeSelfTriggerControls cfg) hframe).bind fun _ =>
        (maintains_forM hchannels).bind fun _ => (h.configureBiasControl cfg).bind fun _ => maintains_pure _

theorem configureDaphne (hcontrols : AvoidsControls b mine) (hafes : AvoidsAfes mine view) {cfg : ConfigureRequest}
    (hchannels : ∀ config ∈ cfg.channels, Maintains stop P (configureChannel b config)) :
    Maintains stop P (Handlers.configureDaphne b cfg) := by
  refine (h.configureBoard hframe hcontrols hchannels).bind fun ok => ?_
  refine (maintains_forM fun config _ => ?_).bind fun _ => ?_
  · refine maintains_afePL_bind fun afe hafe _ => (h.configureLevels hafe config).bind fun _ => ?_
    exact .of_does (hafes.applySettings hafe _) hframe
  · exact (Maintains.of_does hcontrols.configurePower hframe).bind fun _ => maintains_pure ok

end Configure

/-- A request of another kind than these three is a part, or it reads. -/
theorem request {r : Request} (hs : P s)
    (hconfigure : ∀ cfg, r = .configure cfg → wp (Handlers.configureDaphne b cfg) (fun _ t => P t) (fun e t => ¬stop e → P t) s)
    (hreg : ∀ afe reg value, r = .writeAFEReg afe reg value →
      wp (writeAFERegister b afe reg value) (fun _ t => P t) (fun e t => ¬stop e → P t) s)
    (hfunction : ∀ afe function value, r = .writeAFEFunction afe function value →
      wp (writeAFEFunction b afe function value) (fun _ t => P t) (fun e t => ¬stop e → P t) s) :
    wp (r.prog b) (fun _ t => P t) (fun e t => ¬stop e → P t) s := by
  have hanswer {α : Type} {m : Prog Nat UInt32 Daphne α} (hm : Maintains stop P m) (f : α → Response) :
      wp (m >>= fun a => pure (f a)) (fun _ t => P t) (fun e t => ¬stop e → P t) s :=
    (hm.bind fun _ => maintains_pure _).run s hs
  have hreply {α : Type} {m : Prog Nat UInt32 Daphne α} (hm : wp m (fun _ t => P t) (fun e t => ¬stop e → P t) s)
      (f : α → Response) : wp (m >>= fun a => pure (f a)) (fun _ t => P t) (fun e t => ¬stop e → P t) s :=
    wp_bind.mpr hm
  have hread (afeBlock : UInt32) (key : Nat → StateKey) :
      Maintains stop P (afePL afeBlock.toNat >>= fun afe => Daphne.checkAfe afe (Daphne.getState (key afe))) :=
    maintains_afePL_bind fun afe _ _ => maintains_checkAfe maintains_getState afe
  cases r with
  | configure cfg => exact hreply (hconfigure cfg rfl) _
  | writeAFEReg afe reg value => exact hreply (hreg afe reg value rfl) _
  | writeAFEVgain afe value => exact hanswer (h.writeGain _ afe value) _
  | writeAFEAttenuation afe value => exact hanswer (h.writeGain _ afe value) _
  | writeAFEBiasSet afe value => exact hanswer (h.writeAFEBiasVoltage afe value) _
  | writeTrimSingleChannel ch value gain => exact hanswer (h.writeChannel .trim _ _ ch value gain) _
  | writeTrimAllChannels value gain => exact hanswer (h.writeAllChannels .trim _ value gain) _
  | writeTrimAllAFE afe value gain => exact hanswer (h.writeAllAFE .trim _ afe value gain) _
  | writeOffsetSingleChannel ch value gain => exact hanswer (h.writeChannel .offset _ _ ch value gain) _
  | writeOffsetAllChannels value gain => exact hanswer (h.writeAllChannels .offset _ value gain) _
  | writeOffsetAllAFE afe value gain => exact hanswer (h.writeAllAFE .offset _ afe value gain) _
  | writeVbiasControl value enable => exact hanswer (h.writeBiasVoltageControl value enable) _
  | writeAFEFunction afe function value => exact hreply (hfunction afe function value rfl) _
  | readAFEReg afe reg => exact hanswer (hread afe (.afeReg · reg)) _
  | readAFEVgain afe => exact hanswer (hread afe .afeAttenuation) _
  | readAFEBiasSet afe => exact hanswer (hread afe .biasVoltage) _
  | readAllChannels kind => exact hanswer (maintains_mapM (maintains_getChDictValue kind) _) _
  | readAllAFE kind afe =>
    refine hanswer ?_ _
    unfold readAllAFE
    split
    · exact maintains_throw _
    · exact maintains_mapM (fun idx => maintains_getChDictValue kind _) _
  | readSingleChannel kind ch => exact hanswer (maintains_getChDictValue kind _) _
  | readVbiasControl => exact hanswer maintains_getState _

end Survives

/-- What a handler leaves unless it throws the text that stops the run. -/
theorem Request.step_of_wp {r : Request} {text : String}
    (h : wp (r.prog b) (fun _ t => P t) (fun e t => e ≠ text → P t) s) (hthrows : ¬r.Throws b text s) : P (r.step b s) := by
  unfold Request.Throws at hthrows
  unfold Request.step Request.handle rethrow
  cases hrun : r.prog b s with
  | ok a t => exact wp_ok h hrun
  | error e t =>
    refine wp_error h hrun fun he => hthrows ⟨t, ?_⟩
    rw [hrun, he]

/-- A property of the started server that every admitted request keeps holds in every state of a run. -/
theorem Reached.invariant {admits : Request → ServerState → Prop} (h : Reached b admits s)
    (hstart : ∀ cells reads accesses, P (.start cells reads accesses))
    (hstep : ∀ s r, P s → admits r s → P (r.step b s)) : P s := by
  induction h with
  | start cells reads accesses => exact hstart cells reads accesses
  | step _ hr ih => exact hstep _ _ ih hr

end Requests
end DaphneZmq
