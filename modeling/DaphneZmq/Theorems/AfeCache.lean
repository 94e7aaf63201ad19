import DaphneZmq.Theorems.AfeRegisters

/-! Whether READ_AFE_REG answers with what the register holds. It is answered from the values that WRITE_AFE_REG keeps; the
functions of the AFEs change the registers and keep nothing. -/

namespace DaphneZmq
open Lib Lib.Device
namespace AfeCache
open Afe Handlers

/-! ### Function writes -/

/-- A function that a handler sets in an AFE, or none where the handler throws. -/
abbrev FunctionWrite := Option (Nat × String × UInt16)

/-- The functions that a configuration sets in an AFE. -/
def configWrites (config : AFEConfig) : List FunctionWrite :=
  match Chunker.afeBoard2PLMap config.id.toNat with
  | none => [none]
  | some afe =>
    if config.attenuators > 4095 ∨ config.v_bias > 4095 then [none]
    else (functionSettings config).map fun setting => some (afe, setting.1, setting.2.toUInt16)

/-- The functions that a request sets, in order. -/
def functionWrites : Request → List FunctionWrite
  | .writeAFEFunction afeBlock function configValue =>
    [(Chunker.afeBoard2PLMap afeBlock.toNat).map fun afe => (afe, function, configValue.toUInt16)]
  | .configure cfg => if cfg.channels.any (·.id > 39) then [none] else cfg.afes.flatMap configWrites
  | _ => []

/-- Every function that is set, up to the first that throws, leaves its register with the value that is kept for it. -/
def Agrees (undefinedMask : UInt32) (kept : Nat → UInt32 → UInt32) (cells : Nat → Nat → UInt16) : List FunctionWrite → Prop
  | [] => True
  | none :: _ => True
  | some (afe, functionName, value) :: writes =>
    match functionField functionName value with
    | none => True
    | some (register, msb, lsb) =>
      let content := settled register.toNat (fieldContent undefinedMask (cells afe register.toNat) msb lsb value)
      content.toUInt32 = kept afe register ∧
        Agrees undefinedMask kept (Function.update cells afe (Function.update (cells afe) register.toNat content)) writes

/-- The value that is kept for a register. -/
def keptOf (s : ServerState) (afe : Nat) (register : UInt32) : UInt32 := s.driver.stateValue (.afeReg afe register)

/-- The functions that the request sets agree with what is kept. -/
def FunctionsAgree (b : Board) (r : Request) (s : ServerState) : Prop :=
  Agrees b.undefinedMask (keptOf s) (fun afe => (registersOf b afe s).cells) (functionWrites r)

/-- READ_AFE_REG of a register that was written answers with what it holds. -/
def AnswersContents (b : Board) (s : ServerState) : Prop :=
  ∀ (afeBlock register : UInt32) afe, Chunker.afeBoard2PLMap afeBlock.toNat = some afe → register ∈ registerList →
    (registersOf b afe s).written register.toNat = true →
    readAFEReg afeBlock register s = .ok ((registersOf b afe s).cells register.toNat).toUInt32 s

/-! ### The invariant -/

variable {b : Board} {s t u : ServerState}

structure Coherent (b : Board) (s : ServerState) : Prop where
  idle : ∀ afe < 5, (registersOf b afe s).cells 0 = 0
  zero : ∀ afe < 5, keptOf s afe 0 = 0
  kept : ∀ afe < 5, ∀ register ∈ registerList, (registersOf b afe s).written register.toNat = true →
    keptOf s afe register = ((registersOf b afe s).cells register.toNat).toUInt32

/-- A register that holds the value which is kept for it from then on. -/
theorem Coherent.hold (hs : Coherent b s) {afe : Nat} {register : UInt32} {content : UInt16}
    (ht : Holds b afe register.toNat (settled register.toNat content) s t)
    (hregisters : ∀ afe, registersOf b afe u = registersOf b afe t)
    (hkept : ∀ a r, keptOf u a r = if a = afe ∧ r = register then (settled register.toNat content).toUInt32 else keptOf s a r) :
    Coherent b u := by
  have hcells : ∀ r : UInt32, (registersOf b afe u).cells r.toNat =
      if r = register then settled register.toNat content else (registersOf b afe s).cells r.toNat := fun r => by
    rw [hregisters, ht.cells]
    split
    · rename_i hr
      rw [hr, Function.update_self]
    · rename_i hr
      exact Function.update_of_ne (fun h => hr (UInt32.toNat_inj.mp h)) _ _
  refine ⟨fun a ha => ?_, fun a ha => ?_, fun a ha r hr hwritten => ?_⟩
  · by_cases hafe : a = afe
    · subst hafe
      rw [hregisters]
      exact ht.idle (hs.idle a ha)
    · rw [hregisters, ht.others a hafe]
      exact hs.idle a ha
  · rw [hkept]
    split
    · rename_i h
      rw [← h.2]
      rfl
    · exact hs.zero a ha
  · by_cases hafe : a = afe
    · subst hafe
      rw [hkept, hcells]
      by_cases hsame : r = register
      · rw [if_pos ⟨rfl, hsame⟩, if_pos hsame]
      · rw [if_neg fun h => hsame h.2, if_neg hsame]
        rw [hregisters] at hwritten
        rcases ht.written _ hwritten with h | h | h
        · exact hs.kept a ha r hr h
        · exact absurd (UInt32.toNat_inj.mp h) hsame
        · -- Register 0 is written by every access, and it is zero between them.
          have hzero : r = 0 := UInt32.toNat_inj.mp h
          rw [hzero, hs.zero a ha]
          exact (congrArg UInt16.toUInt32 (hs.idle a ha)).symm
    · rw [hkept, if_neg fun h => hafe h.1, hregisters, ht.others a hafe]
      rw [hregisters, ht.others a hafe] at hwritten
      exact hs.kept a ha r hr hwritten

/-- The words of the AFEs and, since their resets are not modelled, the power control. -/
def IsAfeWord (a : Nat) : Prop := a = afeGlobalControlReset.addr ∨ ∃ afe < 5, a = (afeControl afe).addr

def view (d : Daphne) : Nat → UInt32 → Option UInt32 := fun afe register => d.state (.afeReg afe register)

theorem view_update (d : Daphne) {key : StateKey} (value : Option UInt32) (hkey : ∀ afe register, StateKey.afeReg afe register ≠ key) :
    view { d with state := Function.update d.state key value } = view d := by
  funext afe register
  exact Function.update_of_ne (hkey afe register) _ _

theorem registersOf_of_apart (h : Apart IsAfeWord view s t) {afe : Nat} (hafe : afe < 5) :
    registersOf b afe t = registersOf b afe s := by
  obtain ⟨ws, hws, hnot⟩ := h.writes
  exact registersOf_append hws fun w hw haddr => hnot w hw (Or.inr ⟨afe, hafe, haddr⟩)

theorem keptOf_of_apart (h : Apart IsAfeWord view s t) : keptOf t = keptOf s := by
  funext afe register
  rw [keptOf, Daphne.stateValue]
  exact congrArg (·.getD 0) (congrFun (congrFun h.view_eq afe) register)

theorem Coherent.of_apart (h : Apart IsAfeWord view s t) (hs : Coherent b s) : Coherent b t where
  idle afe hafe := by
    rw [registersOf_of_apart h hafe]
    exact hs.idle afe hafe
  zero afe hafe := by
    rw [keptOf_of_apart h]
    exact hs.zero afe hafe
  kept afe hafe register hregister hwritten := by
    rw [registersOf_of_apart h hafe] at hwritten ⊢
    rw [keptOf_of_apart h]
    exact hs.kept afe hafe register hregister hwritten

theorem wp_writeAFERegister (hs : Coherent b s) (afeBlock register value : UInt32) :
    wp (writeAFERegister b afeBlock register value) (fun _ t => Coherent b t) (fun e t => ¬e = Spi.timeout → Coherent b t) s := by
  refine afePL_cases (fun m => wp m _ _ s) (fun afe hafe _ => ?_) fun _ => hs
  by_cases hregister : register ∈ registerList
  · refine wp_bind.mpr (wp_mono (wp_setRegister hafe hregister (hs.idle afe hafe) value) (fun v t ht => ?_)
      fun _ _ he hne => absurd he hne)
    obtain ⟨rfl, ht⟩ := ht
    rw [Daphne.setAfeRegDictValue, Daphne.checkAfe, if_neg (by omega)]
    refine hs.hold ht (fun _ => rfl) fun a r => ?_
    show (Function.update t.driver.state (.afeReg afe register) _ (.afeReg a r)).getD 0 = _
    split
    · rename_i h
      rw [h.1, h.2, Function.update_self]
      rfl
    · rename_i h
      rw [Function.update_of_ne (by simpa using h), ht.driver]
      rfl
  · rw [setRegister, if_pos hregister]
    exact fun _ => hs

/-! ### The functions that are still to be set -/

/-- The invariant, with the functions that a handler has still to set. -/
structure Ahead (b : Board) (writes : List FunctionWrite) (s : ServerState) : Prop where
  coherent : Coherent b s
  agrees : Agrees b.undefinedMask (keptOf s) (fun afe => (registersOf b afe s).cells) writes

/-- The AFEs of function writes are among the five. -/
def InBoard (writes : List FunctionWrite) : Prop := ∀ write ∈ writes, ∀ w ∈ write, w.1 < 5

theorem Agrees.congr {undefinedMask : UInt32} {kept : Nat → UInt32 → UInt32} {writes : List FunctionWrite}
    (hboard : InBoard writes) {cells cells' : Nat → Nat → UInt16} (hcells : ∀ afe < 5, cells' afe = cells afe)
    (h : Agrees undefinedMask kept cells writes) : Agrees undefinedMask kept cells' writes := by
  induction writes generalizing cells cells' with
  | nil => trivial
  | cons write writes ih =>
    match write with
    | none => trivial
    | some (afe, functionName, value) =>
      have hafe : afe < 5 := hboard _ (List.mem_cons_self ..) _ rfl
      unfold Agrees at h ⊢
      cases hfield : functionField functionName value with
      | none => trivial
      | some field =>
        obtain ⟨register, msb, lsb⟩ := field
        rw [hfield] at h
        dsimp only at h ⊢
        rw [hcells afe hafe]
        refine ⟨h.1, ih (fun w hw => hboard w (List.mem_cons_of_mem _ hw)) (fun a ha => ?_) h.2⟩
        by_cases hsame : a = afe
        · rw [hsame, Function.update_self, Function.update_self]
        · rw [Function.update_of_ne hsame, Function.update_of_ne hsame, hcells a ha]

theorem Ahead.of_apart {writes : List FunctionWrite} (hboard : InBoard writes) (h : Apart IsAfeWord view s t)
    (hs : Ahead b writes s) : Ahead b writes t := by
  refine ⟨hs.coherent.of_apart h, ?_⟩
  rw [keptOf_of_apart h]
  exact hs.agrees.congr hboard fun afe hafe => by rw [registersOf_of_apart h hafe]

theorem wp_setAFEFunction {writes : List FunctionWrite} {afe : Nat} (hafe : afe < 5) {functionName : String} {value : UInt16}
    (hs : Ahead b (some (afe, functionName, value) :: writes) s) :
    wp (setAFEFunction b.env b.undefinedMask afe functionName value) (fun _ t => Ahead b writes t)
      (fun e t => ¬e = Spi.timeout → Coherent b t) s := by
  have hagrees := hs.agrees
  unfold Agrees at hagrees
  cases hfield : functionField functionName value with
  | none =>
    obtain ⟨e, he⟩ := setAFEFunction_throws b.env b.undefinedMask afe hfield
    rw [he]
    exact fun _ => hs.coherent
  | some field =>
    obtain ⟨register, msb, lsb⟩ := field
    rw [hfield] at hagrees
    obtain ⟨hkept, hagrees⟩ := hagrees
    rw [setAFEFunction_eq hfield]
    refine wp_mono (wp_setField hafe (functionField_listed hfield) (hs.coherent.idle afe hafe) b.undefinedMask msb lsb value)
      (fun _ t ht => ?_) fun _ _ he hne => absurd he hne
    have hkeptOf : keptOf t = keptOf s := by
      funext a r
      rw [keptOf, ht.driver]
      rfl
    refine ⟨hs.coherent.hold ht (fun _ => rfl) fun a r => ?_, ?_⟩
    · rw [hkeptOf]
      split
      · rename_i h
        rw [h.1, h.2, hkept]
      · rfl
    · have hcells : (fun a => (registersOf b a t).cells) =
          Function.update (fun a => (registersOf b a s).cells) afe (registersOf b afe t).cells := by
        funext a
        by_cases hsame : a = afe
        · rw [hsame, Function.update_self]
        · rw [Function.update_of_ne hsame, ht.others a hsame]
      rw [hkeptOf, hcells, ht.cells]
      exact hagrees

theorem wp_applySettings {afe : Nat} (hafe : afe < 5) {writes : List FunctionWrite} : ∀ (settings : List (String × UInt32)) {s},
    Ahead b (settings.map (fun setting => some (afe, setting.1, setting.2.toUInt16)) ++ writes) s →
    wp (settings.forM (applySetting b afe)) (fun _ t => Ahead b writes t) (fun e t => ¬e = Spi.timeout → Coherent b t) s
  | [], _, hs => hs
  | setting :: settings, s, hs => by
    refine wp_bind.mpr (wp_bind.mpr (wp_mono (wp_setAFEFunction hafe hs) (fun _ t ht => ?_) fun _ _ h => h))
    exact wp_applySettings hafe settings ht

theorem avoidsChannels : AvoidsChannels IsAfeWord view where
  words kind afe hafe := by
    rintro (h | ⟨afe', hafe', h⟩)
    · cases kind <;> simp only [Dac.registerData, afeGlobalControlReset] at h <;> omega
    · cases kind <;> simp only [Dac.registerData, afeControl] at h <;> omega
  values _ _ := rfl
  trims d ch value := view_update _ _ (by simp)
  offsets d ch value := view_update _ _ (by simp)

theorem avoidsLevels : AvoidsLevels IsAfeWord view where
  chips chip := by
    rintro (h | ⟨afe, hafe, h⟩)
    · cases chip <;> cases h
    · cases chip <;> simp only [Dac.Chip.addr, afeControl] at h <;> omega
  control := by
    rintro (h | ⟨afe, hafe, h⟩)
    · cases h
    · simp only [Dac.dacGainBiasControlGo, afeControl] at h
      omega
  enable := by
    rintro (h | ⟨afe, hafe, h⟩)
    · cases h
    · simp only [Dac.biasEnable, afeControl] at h
      omega
  gains d afe value := view_update _ _ (by simp)
  biases d afe value := view_update _ _ (by simp)
  hv d value := view_update _ _ (by simp)

theorem avoidsControls (hresets : b.resets = false) : AvoidsControls b IsAfeWord where
  power h := by
    rw [hresets] at h
    cases h
  triggers a ha := by
    rintro (h | ⟨afe, hafe, h⟩)
    · simp only [afeGlobalControlReset] at h
      omega
    · simp only [afeControl] at h
      omega

theorem inBoard_configWrites (config : AFEConfig) : InBoard (configWrites config) := by
  unfold configWrites
  split
  · intro write hwrite w hw
    rw [List.mem_singleton.mp hwrite] at hw
    cases hw
  rename_i afe hmap
  split
  · intro write hwrite w hw
    rw [List.mem_singleton.mp hwrite] at hw
    cases hw
  · intro write hwrite w hw
    obtain ⟨setting, -, rfl⟩ := List.mem_map.mp hwrite
    cases hw
    exact afeBoard2PLMap_lt hmap

theorem InBoard.append {writes writes' : List FunctionWrite} (h : InBoard writes) (h' : InBoard writes') :
    InBoard (writes ++ writes') := fun write hwrite => (List.mem_append.mp hwrite).elim (h write) (h' write)

theorem inBoard_flatMap (configs : List AFEConfig) : InBoard (configs.flatMap configWrites) := by
  intro write hwrite
  obtain ⟨config, -, hwrite⟩ := List.mem_flatMap.mp hwrite
  exact inBoard_configWrites config write hwrite

theorem wp_configureAFE {config : AFEConfig} {writes : List FunctionWrite} (hboard : InBoard writes)
    (hs : Ahead b (configWrites config ++ writes) s) : wp (configureAFE b config) (fun _ t => Ahead b writes t)
      (fun e t => ¬e = Spi.timeout → Coherent b t) s := by
  refine afePL_cases (fun m => wp m _ _ s) (fun afe hafe hmap => ?_) fun _ => hs.coherent
  have hrange := wp_and ((avoidsLevels.configureLevels (b := b) afe config).run s) (wp_configureLevels_range afe config s)
  refine wp_bind.mpr (wp_mono hrange (fun _ t ht => ?_) fun _ t ht _ => hs.coherent.of_apart ht.1)
  have hahead := hs.of_apart ((inBoard_configWrites config).append hboard) ht.1
  rw [configWrites, hmap] at hahead
  dsimp only at hahead
  rw [if_neg ht.2] at hahead
  exact wp_applySettings hafe _ hahead

theorem wp_configureAFEs : ∀ (configs : List AFEConfig) {s}, Ahead b (configs.flatMap configWrites) s →
    wp (configs.forM (configureAFE b)) (fun _ t => Coherent b t) (fun e t => ¬e = Spi.timeout → Coherent b t) s
  | [], _, hs => hs.coherent
  | config :: configs, s, hs => by
    rw [List.flatMap_cons] at hs
    refine wp_bind.mpr (wp_mono (wp_configureAFE (inBoard_flatMap configs) hs) (fun _ t ht => ?_) fun _ _ h => h)
    exact wp_configureAFEs configs ht

theorem wp_configureDaphne (hresets : b.resets = false) {cfg : ConfigureRequest} (hs : Coherent b s)
    (hagree : FunctionsAgree b (.configure cfg) s) : wp (configureDaphne b cfg) (fun _ t => Coherent b t)
      (fun e t => ¬e = Spi.timeout → Coherent b t) s := by
  have hboard := wp_and (((avoidsControls hresets).configureBoard avoidsChannels avoidsLevels cfg).run s)
    (wp_configureBoard_channels cfg s)
  refine wp_bind.mpr (wp_mono hboard (fun ok t ht => ?_) fun _ t ht _ => hs.of_apart ht.1)
  have hnone : ¬cfg.channels.any (·.id > 39) = true := fun h => by
    obtain ⟨config, hconfig, hid⟩ := List.any_eq_true.mp h
    exact ht.2 config hconfig (of_decide_eq_true hid)
  rw [FunctionsAgree, functionWrites, if_neg hnone] at hagree
  have hahead : Ahead b (cfg.afes.flatMap configWrites) t := Ahead.of_apart (inBoard_flatMap cfg.afes) ht.1 ⟨hs, hagree⟩
  refine wp_bind.mpr (wp_mono (wp_configureAFEs cfg.afes hahead) (fun _ u hu => ?_) fun _ _ h => h)
  have hpower : Does (.apart IsAfeWord view) (configurePower b) := (avoidsControls hresets).configurePower
  refine wp_bind.mpr (wp_mono (hpower.run u) (fun _ _ hv => ?_) fun _ _ hv _ => ?_)
  · exact hu.of_apart hv
  · exact hu.of_apart hv

theorem wp_writeAFEFunction {afeBlock : UInt32} {function : String} {configValue : UInt32} (hs : Coherent b s)
    (hagree : FunctionsAgree b (.writeAFEFunction afeBlock function configValue) s) :
    wp (writeAFEFunction b afeBlock function configValue) (fun _ t => Coherent b t)
      (fun e t => ¬e = Spi.timeout → Coherent b t) s := by
  refine afePL_cases (fun m => wp m _ _ s) (fun afe hafe hmap => ?_) fun _ => hs
  rw [FunctionsAgree, functionWrites, hmap] at hagree
  rw [if_neg (by omega)]
  exact wp_mono (wp_setAFEFunction hafe ⟨hs, hagree⟩) (fun _ _ ht => ht.coherent) fun _ _ h => h

/-! ### Runs -/

theorem survives : Survives b (· = Spi.timeout) (Coherent b) :=
  .of_avoids (fun _ _ => Coherent.of_apart) avoidsChannels avoidsLevels

theorem Coherent.step (hresets : b.resets = false) (hs : Coherent b s) {r : Request} (hagree : FunctionsAgree b r s)
    (hthrows : ¬r.Throws b Spi.timeout s) : Coherent b (r.step b s) := by
  refine Request.step_of_wp (survives.request hs (fun cfg hr => ?_) (fun afe reg value _ => ?_) fun afe function value hr => ?_)
    hthrows
  · subst hr
    exact wp_configureDaphne hresets hs hagree
  · exact wp_writeAFERegister hs afe reg value
  · subst hr
    exact wp_writeAFEFunction hs hagree

theorem Coherent.start (b : Board) (cells : Nat → UInt32) (reads : Nat → Nat) (accesses : Nat) :
    Coherent b (.start cells reads accesses) where
  idle _ _ := rfl
  zero _ _ := rfl
  kept _ _ _ _ hwritten := by cases hwritten

theorem readAFEReg_eq {afeBlock : UInt32} {afe : Nat} (hmap : Chunker.afeBoard2PLMap afeBlock.toNat = some afe)
    (register : UInt32) (s : ServerState) : readAFEReg afeBlock register s = .ok (keptOf s afe register) s :=
  readAfeState_eq hmap (.afeReg · register) s

theorem AnswersContents.kept (h : AnswersContents b s) {afeBlock register : UInt32} {afe : Nat}
    (hmap : Chunker.afeBoard2PLMap afeBlock.toNat = some afe) (hregister : register ∈ registerList)
    (hwritten : (registersOf b afe s).written register.toNat = true) :
    keptOf s afe register = ((registersOf b afe s).cells register.toNat).toUInt32 := by
  have hread := h afeBlock register afe hmap hregister hwritten
  rw [readAFEReg_eq hmap] at hread
  exact (EStateM.Result.ok.inj hread).1

end AfeCache
end DaphneZmq
