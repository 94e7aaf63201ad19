import DaphneZmq.Theorems.Outputs

/-! What a configuration does to the HV bias control. Its own code is programmed if that is in range. If it is not, the
default is programmed if some AFE asks for a bias, and otherwise the control is left alone. -/

namespace DaphneZmq
open Lib Lib.Device
namespace BiasControl
open Dac GainBias Handlers

/-! ### What is programmed -/

/-- The control holds a code, which is kept, and the bias is enabled. -/
structure Holds (code : UInt32) (t : ServerState) : Prop where
  level : ∀ levels : Levels, Output.hv.level (levels.after t.writes) = some code
  kept : t.driver.state .biasControl = some code
  enabled : biasEnable.extract (t.cells biasEnable.addr) = 1

/-- The control is programmed with the code of the request alone, and a configuration that succeeds has programmed and
kept it. -/
structure OwnCode (b : Board) (cfg : ConfigureRequest) (s : ServerState) : Prop where
  only : ∀ code, Programs .hv s ((Request.configure cfg).step b s) code → code = cfg.biasctrl
  done : ∀ t, configureDaphne b cfg s = .ok true t →
    Programs .hv s t cfg.biasctrl ∧ t.driver.state .biasControl = some cfg.biasctrl

/-- The code of a request: its own, or the default if that is out of range and some AFE asks for a bias. -/
def codeOf (cfg : ConfigureRequest) : Option UInt32 :=
  if cfg.biasctrl ≤ 4095 then some cfg.biasctrl
  else if cfg.afes.any (·.v_bias > 0) then some 4095
  else none

/-- The control is programmed with no other code, and a configuration that succeeds has programmed and kept it; without a
code it has left the control and the enable bit alone. -/
structure ByCode (b : Board) (cfg : ConfigureRequest) (s : ServerState) : Prop where
  only : ∀ code, Programs .hv s ((Request.configure cfg).step b s) code → codeOf cfg = some code
  done : ∀ t, configureDaphne b cfg s = .ok true t → ∀ code, codeOf cfg = some code → Programs .hv s t code ∧ Holds code t
  skipped : ∀ t, configureDaphne b cfg s = .ok true t → codeOf cfg = none →
    LeftAlone .hv s t ∧ t.cells biasEnable.addr = s.cells biasEnable.addr

variable {b : Board} {s t u : ServerState} {code : UInt32} {cfg : ConfigureRequest} {α : Type} {m : Prog Nat UInt32 Daphne α}

/-! ### Parts that leave the control alone -/

theorem place_hv : Output.hv.place = some (.U5, 2) := rfl

structure BesideControl (s t : ServerState) : Prop where
  output : Beside .hv (.U5, 2) s t
  enable : t.cells biasEnable.addr = s.cells biasEnable.addr

def besideControl : Effect Nat UInt32 Daphne where
  Rel := BesideControl
  refl s := ⟨(besideOutput _ _).refl s, rfl⟩
  trans h h' := ⟨h.output.trans h'.output, h'.enable.trans h.enable⟩
  tick s := ⟨(besideOutput _ _).tick s, rfl⟩

def IsEnable (a : Nat) : Prop := a = biasEnable.addr

instance : DecidablePred IsEnable := fun _ => inferInstanceAs (Decidable (_ = _))

theorem does_besideControl (h : Does (besideOutput .hv (.U5, 2)) m) (h' : Does (.apart IsEnable fun _ => ()) m) :
    Does besideControl m :=
  ⟨fun s => wp_mono (wp_and (h.run s) (h'.run s)) (fun _ _ ht => ⟨ht.1, ht.2.cells _ rfl⟩) fun _ _ ht => ⟨ht.1, ht.2.cells _ rfl⟩⟩

theorem avoidsChannels : AvoidsChannels IsEnable fun _ => () where
  words kind afe hafe := by
    cases kind <;> simp only [IsEnable, registerData, biasEnable] <;> omega
  values _ _ := rfl
  trims _ _ _ := rfl
  offsets _ _ _ := rfl

theorem avoidsAfes : AvoidsAfes IsEnable fun _ => () where
  words afe hafe := by
    simp only [IsEnable, Afe.afeControl, biasEnable]
    omega
  regs _ _ _ _ := rfl

theorem avoidsControls : AvoidsControls b IsEnable where
  power _ := by decide
  triggers a ha := by
    simp only [IsEnable, biasEnable]
    omega

theorem does_setDacGeneral (chip : Option Chip) (channel : UInt32) (gain buffer : Bool) (value : UInt32) :
    Does (.apart IsEnable fun _ => ()) (setDacGeneral b.env chip channel gain buffer value : Prog Nat UInt32 Daphne UInt32) :=
  does_apart_setDacGeneral (fun chip _ => by cases chip <;> decide) (by decide) channel gain buffer value

theorem does_setGain {afe : Nat} (hafe : afe < 5) {value : UInt32} (hvalue : value ≤ 4095) :
    Does besideControl (setGain b afe value) := by
  refine does_besideControl (does_besideOutput_setGain place_hv (by simp) hafe hvalue) ?_
  exact ((does_setDacGeneral _ _ _ _ _).bind fun _ => does_pure _).bind fun _ => does_checkAfe (does_setState (fun _ _ => rfl) _) afe

theorem does_setBias {afe : Nat} (hafe : afe < 5) {value : UInt32} (hvalue : value ≤ 4095) :
    Does besideControl (setBias b afe value) := by
  refine does_besideControl (does_besideOutput_setBias place_hv (by simp) hafe hvalue) ?_
  exact ((does_setDacGeneral _ _ _ _ _).bind fun _ => does_pure _).bind fun _ => does_checkAfe (does_setState (fun _ _ => rfl) _) afe

theorem does_configureLevels {afe : Nat} (hafe : afe < 5) (config : AFEConfig) :
    Does besideControl (configureLevels b afe config) := by
  unfold configureLevels
  split
  · exact does_throw _
  rename_i hgain
  refine (does_setGain hafe (UInt32.not_lt.mp hgain)).bind fun _ => ?_
  split
  · exact does_throw _
  rename_i hbias
  split
  · exact does_setBias hafe (UInt32.not_lt.mp hbias)
  · exact does_pure _

theorem does_configureAFE (config : AFEConfig) : Does besideControl (configureAFE b config) :=
  does_afePL_bind fun _ hafe => (does_configureLevels hafe config).bind fun _ =>
    does_besideControl (does_besideOutput (GainBias.avoidsAfes.applySettings hafe _)) (avoidsAfes.applySettings hafe _)

/-! ### The control is set -/

/-- The code was programmed, and what the register has for the control is the code. -/
structure Programmed (code : UInt32) (s t : ServerState) : Prop where
  programs : Programs .hv s t code
  holds : Holds code t
  register : channelOf .U5 t.cells = 2 → dataOf .U5 t.cells = code

theorem Programmed.beside (h : Programmed code s t) (h' : BesideControl t u) : Programmed code s u := by
  refine ⟨h.programs.mono List.prefix_rfl h'.output.goes.extends, ⟨fun levels => ?_, ?_, ?_⟩, fun hchannel => ?_⟩
  · have hcode : levels.after t.writes .U5 2 = code := Option.some.inj (h.holds.level levels)
    show some (levels.after u.writes .U5 2) = some code
    rcases h'.output.level levels with hsame | ⟨hchannel, hdata⟩
    · rw [hsame, hcode]
    · rw [hdata, h.register hchannel]
  · exact h'.output.kept.trans h.holds.kept
  · rw [h'.enable, h.holds.enabled]
  · obtain ⟨hbefore, hdata⟩ := h'.output.register hchannel
    exact hdata.trans (h.register hbefore)

/-- What a GO for the control loads is the code. -/
def OfCode (code : Option UInt32) (p : Chip × Nat) (w : Write Nat UInt32) : Prop :=
  p = (.U5, 2) → code = some (dataOf .U5 w.before)

theorem BesideControl.ofCode (h : BesideControl s t) (code : Option UInt32) : Goes (OfCode code) s t :=
  h.output.goes.mono fun _ _ hp h => absurd h hp

theorem wp_setBiasControl (hcode : code ≤ 4095) (s : ServerState) : wp (setBiasControl b code true)
    (fun _ t => Goes (OfCode (some code)) s t ∧ Programmed code s t) (fun _ t => Goes (OfCode (some code)) s t) s := by
  have hgoes {t : ServerState} (ht : Loaded (.U5, 2) code s t) : Goes (OfCode (some code)) s t :=
    Loaded.goes ht fun w hw _ => by rw [dataOf, hw .U5, ← ht.data, dataOf]
  have hdac : wp (Dac.setDacHvBias b.env code false false) (fun _ t => Loaded (.U5, 2) code s t)
      (fun e t => e = timeout ∧ (Quiet s t ∨ Loaded (.U5, 2) code s t)) s :=
    wp_setDacGeneral (p := (.U5, 2)) (by decide) hcode s
  refine wp_bind.mpr (wp_mono hdac (fun _ t ht => ?_) fun _ t ht => ?_)
  · refine wp_bind.mpr (wp_mono (Reg.wp_writeBits_mapped b.faults_none biasEnable 1 t) (fun _ u hu => ?_) fun _ _ h => h.elim)
    obtain ⟨old, reads, -, hcells, hwrites⟩ := hu.write
    have hcell : u.cells Chip.U5.addr = t.cells Chip.U5.addr := by
      rw [hcells, Function.update_of_ne (by decide)]
    have hnotGo : ∀ w ∈ [(⟨t.cells, reads, biasEnable.addr, biasEnable.insert old 1⟩ : Write Nat UInt32)], ¬IsGo w := by
      intro w hw hgo
      cases List.mem_singleton.mp hw
      cases hgo.1
    have henable : Goes (OfCode (some code)) t u := ⟨_, hwrites, .of_not_go hnotGo⟩
    have hlevel : ∀ levels : Levels, levels.after u.writes .U5 2 = code := fun levels => by
      rw [hwrites, after_append, after_of_not_go hnotGo, ht.after, load_apply, ht.channel, if_pos rfl, ht.data]
    refine ⟨(hgoes ht).trans henable, (Loaded.programs place_hv ht).mono List.prefix_rfl henable.extends, ⟨fun levels => ?_, ?_, ?_⟩, ?_⟩
    · exact congrArg some (hlevel levels)
    · show Function.update u.driver.state .biasControl (some code) .biasControl = some code
      rw [Function.update_self]
    · show biasEnable.extract (u.cells biasEnable.addr) = 1
      rw [hcells, Function.update_self, BitField.extract_insert]
      decide
    · intro _
      show dataOf .U5 u.cells = code
      rw [dataOf, hcell]
      exact ht.data
  · rcases ht with ⟨-, hquiet | hloaded⟩
    · exact BesideControl.ofCode ⟨.of_apart (.of_quiet hquiet), congrFun hquiet.cells _⟩ _
    · exact hgoes hloaded

/-! ### The configuration -/

/-- What has become of the control when it has been set or skipped. -/
structure Done (cfg : ConfigureRequest) (s t : ServerState) : Prop where
  goes : Goes (OfCode (codeOf cfg)) s t
  programmed : ∀ code, codeOf cfg = some code → Programmed code s t
  skipped : codeOf cfg = none → BesideControl s t

theorem Done.beside (h : Done cfg s t) (h' : BesideControl t u) : Done cfg s u :=
  ⟨h.goes.trans (h'.ofCode _), fun code hcode => (h.programmed code hcode).beside h',
    fun hcode => besideControl.trans (h.skipped hcode) h'⟩

theorem BesideControl.done (h : BesideControl s t) (h' : Done cfg t u) : Done cfg s u := by
  refine ⟨(h.ofCode _).trans h'.goes, fun code hcode => ?_, fun hcode => besideControl.trans h (h'.skipped hcode)⟩
  obtain ⟨hprograms, hholds, hregister⟩ := h'.programmed code hcode
  exact ⟨hprograms.mono h.output.goes.extends List.prefix_rfl, hholds, hregister⟩

theorem Done.of_programmed (hcode : codeOf cfg = some code) (hgoes : Goes (OfCode (some code)) s t) (h : Programmed code s t) :
    Done cfg s t := by
  refine ⟨hcode ▸ hgoes, fun other hother => ?_, fun hnone => ?_⟩
  · rw [hcode] at hother
    cases hother
    exact h
  · rw [hcode] at hnone
    cases hnone

theorem wp_configureBiasControl (cfg : ConfigureRequest) (s : ServerState) :
    wp (configureBiasControl b cfg) (fun _ t => Done cfg s t) (fun _ t => Goes (OfCode (codeOf cfg)) s t) s := by
  have hset {code : UInt32} (hle : code ≤ 4095) (hcode : codeOf cfg = some code) :
      wp (setBiasControl b code true >>= fun _ => pure ()) (fun _ t => Done cfg s t) (fun _ t => Goes (OfCode (codeOf cfg)) s t) s := by
    rw [hcode]
    exact wp_bind.mpr (wp_mono (wp_setBiasControl hle s) (fun _ _ ht => .of_programmed hcode ht.1 ht.2) fun _ _ ht => ht)
  unfold configureBiasControl
  by_cases hown : cfg.biasctrl ≤ 4095
  · rw [if_pos hown]
    exact hset hown (if_pos hown)
  rw [if_neg hown]
  by_cases hbias : cfg.afes.any (·.v_bias > 0) = true
  · rw [if_pos hbias]
    exact hset (by decide) (by rw [codeOf, if_neg hown, if_pos hbias])
  · rw [if_neg hbias]
    have hcode : codeOf cfg = none := by rw [codeOf, if_neg hown, if_neg hbias]
    have hsame : BesideControl s s := besideControl.refl s
    refine ⟨hsame.ofCode _, fun code hsome => ?_, fun _ => hsame⟩
    rw [hcode] at hsome
    cases hsome

theorem wp_configureDaphne (cfg : ConfigureRequest) (s : ServerState) :
    wp (configureDaphne b cfg) (fun _ t => Done cfg s t) (fun _ t => Goes (OfCode (codeOf cfg)) s t) s := by
  -- Up to the bias control and after it, everything is beside it.
  have hthrows {t : ServerState} (h : BesideControl s t) : Goes (OfCode (codeOf cfg)) s t := h.ofCode _
  have beside {α : Type} {m : Prog Nat UInt32 Daphne α} (h : Does (.apart IsLevel view) m)
      (h' : Does (.apart IsEnable fun _ => ()) m) : Does besideControl m := does_besideControl (does_besideOutput h) h'
  have hfirst : Does besideControl (configureReset b >>= fun _ => SelfTrigger.writeTriggerThresholds b.mapFails cfg >>= fun thr =>
      SelfTrigger.writeSelfTriggerControls b.mapFails cfg >>= fun st => cfg.channels.forM (configureChannel b) >>= fun _ =>
        pure (thr.1 && st.1)) :=
    (beside GainBias.avoidsControls.configureReset avoidsControls.configureReset).bind fun _ =>
      (beside (GainBias.avoidsControls.writeTriggerThresholds cfg) (avoidsControls.writeTriggerThresholds cfg)).bind fun _ =>
        (beside (GainBias.avoidsControls.writeSelfTriggerControls cfg) (avoidsControls.writeSelfTriggerControls cfg)).bind fun _ =>
          (does_forM fun config _ => beside (GainBias.avoidsChannels.configureChannel config)
            (avoidsChannels.configureChannel config)).bind fun _ => does_pure _
  have hlast (ok : Bool) : Does besideControl (cfg.afes.forM (configureAFE b) >>= fun _ => configurePower b >>= fun _ => pure ok) :=
    (does_forM fun config _ => does_configureAFE config).bind fun _ =>
      (beside GainBias.avoidsControls.configurePower avoidsControls.configurePower).bind fun _ => does_pure _
  have hprog : configureDaphne b cfg = ((configureReset b >>= fun _ => SelfTrigger.writeTriggerThresholds b.mapFails cfg >>= fun thr =>
      SelfTrigger.writeSelfTriggerControls b.mapFails cfg >>= fun st => cfg.channels.forM (configureChannel b) >>= fun _ =>
        pure (thr.1 && st.1)) >>= fun ok => configureBiasControl b cfg >>= fun _ =>
          cfg.afes.forM (configureAFE b) >>= fun _ => configurePower b >>= fun _ => pure ok) := by
    simp only [configureDaphne, configureBoard, bind_assoc, pure_bind]
  rw [hprog]
  refine wp_bind.mpr (wp_mono (hfirst.run s) (fun ok t ht => ?_) fun _ _ ht => hthrows ht)
  refine wp_bind.mpr (wp_mono (wp_configureBiasControl cfg t) (fun _ u hu => ?_) fun _ _ hu => (hthrows ht).trans hu)
  have hdone : Done cfg s u := ht.done hu
  exact wp_mono ((hlast ok).run u) (fun _ _ hv => hdone.beside hv) fun _ _ hv => (hdone.beside hv).goes

theorem goes_step (b : Board) (cfg : ConfigureRequest) (s : ServerState) :
    Goes (OfCode (codeOf cfg)) s ((Request.configure cfg).step b s) := by
  have hrun : wp ((Request.configure cfg).prog b) (fun _ t => Goes (OfCode (codeOf cfg)) s t)
      (fun _ t => Goes (OfCode (codeOf cfg)) s t) s :=
    wp_bind.mpr (wp_mono (wp_configureDaphne cfg s) (fun _ _ ht => ht.goes) fun _ _ ht => ht)
  unfold Request.step Request.handle rethrow
  cases hprog : (Request.configure cfg).prog b s with
  | ok response t =>
    have hgoes := wp_ok hrun hprog
    exact hgoes
  | error e t =>
    have hgoes := wp_error hrun hprog
    exact hgoes

theorem step_of_ok {ok : Bool} (h : configureDaphne b cfg s = .ok ok t) : (Request.configure cfg).step b s = t := by
  have hprog : (Request.configure cfg).prog b s = .ok ⟨ok, []⟩ t := bind_ok h
  rw [Request.step, Request.handle, rethrow, hprog]

theorem done_of_ok {ok : Bool} (h : configureDaphne b cfg s = .ok ok t) : Done cfg s t := by
  have hdone := wp_ok (wp_configureDaphne cfg s) h
  exact hdone

theorem programs_of_ok {ok : Bool} (h : configureDaphne b cfg s = .ok ok t) (hcode : codeOf cfg = some code) :
    Programs .hv s ((Request.configure cfg).step b s) code := by
  rw [step_of_ok h]
  exact ((done_of_ok h).programmed code hcode).programs

def succeeds (b : Board) (cfg : ConfigureRequest) (s : ServerState) : Bool :=
  match configureDaphne b cfg s with
  | .ok ok _ => ok
  | .error .. => false

theorem succeeds_iff (b : Board) (cfg : ConfigureRequest) (s : ServerState) :
    succeeds b cfg s = true ↔ ∃ t, configureDaphne b cfg s = .ok true t := by
  unfold succeeds
  cases configureDaphne b cfg s with
  | ok ok t => simp
  | error e t => simp

/-- What a configuration programs the HV control with, and what it says about it. -/
theorem configure_byCode (b : Board) (cfg : ConfigureRequest) (s : ServerState) : ByCode b cfg s := by
  refine ⟨fun code hprograms => ?_, fun t h code hcode => ?_, fun t h hcode => ?_⟩
  · obtain ⟨p, hp, w, hw, hdata⟩ := (goes_step b cfg s).programs hprograms
    cases hp
    rw [hw rfl, hdata]
  · have hprogrammed := (done_of_ok h).programmed code hcode
    exact ⟨hprogrammed.programs, hprogrammed.holds⟩
  · have hskipped := (done_of_ok h).skipped hcode
    exact ⟨hskipped.output.leftAlone place_hv, hskipped.enable⟩

/-! ### A code that is out of range -/

def defaulted : ConfigureRequest where
  biasctrl := 5000
  afes := [{ id := 0, attenuators := 0, v_bias := 1000, adc := ⟨false, false, false⟩, pga := ⟨0, false⟩, lna := ⟨0, 0, false⟩ }]

def skipped : ConfigureRequest where
  biasctrl := 5000

/-- The default is programmed in place of 5000, and without a bias nothing is, but both configurations succeed. -/
theorem outOfRange_not_ownCode : Programs .hv .fresh ((Request.configure defaulted).step .idle .fresh) 4095 ∧
    ¬OwnCode .idle defaulted .fresh ∧ ¬OwnCode .idle skipped .fresh := by
  have hprograms : Programs .hv .fresh ((Request.configure defaulted).step .idle .fresh) 4095 := by
    obtain ⟨t, ht⟩ := (succeeds_iff .idle defaulted .fresh).mp (by decide +kernel)
    exact programs_of_ok ht (by decide)
  refine ⟨hprograms, fun h => absurd (h.only 4095 hprograms) (by decide), fun h => ?_⟩
  obtain ⟨t, ht⟩ := (succeeds_iff .idle skipped .fresh).mp (by decide +kernel)
  have hkept := (h.done t ht).2
  have hfresh : ((Request.configure skipped).step .idle .fresh).driver.state .biasControl = some 0 := by decide +kernel
  rw [← step_of_ok ht, hfresh] at hkept
  exact absurd hkept (by decide)

end BiasControl
end DaphneZmq
