import DaphneZmq.Theorems.AfeRegisters

/-! Which values of a function get to the registers of an AFE. The options are for the 32-bit value of the request; what
`setAFEFunction` checks are the low 16 bits. -/

namespace DaphneZmq
open Lib Lib.Device
namespace AfeFunction
open Afe Handlers

/-! ### Values -/

/-- A 32-bit value is in a list of options, or between them if there are two. -/
def Listed : List UInt16 → UInt32 → Prop
  | [low, high], value => low.toUInt32 ≤ value ∧ value ≤ high.toUInt32
  | options, value => ∃ option ∈ options, option.toUInt32 = value

/-- A 32-bit value is listed for a function. -/
def Allowed (functionName : String) (value : UInt32) : Prop :=
  ∃ options, afeFunctionAvailableOptionsDict.lookup functionName = some options ∧ Listed options value

instance : ∀ options value, Decidable (Listed options value)
  | [low, high], value => inferInstanceAs (Decidable (low.toUInt32 ≤ value ∧ value ≤ high.toUInt32))
  | [], value => inferInstanceAs (Decidable (∃ option ∈ [], UInt16.toUInt32 option = value))
  | [first], value => inferInstanceAs (Decidable (∃ option ∈ [first], option.toUInt32 = value))
  | first :: second :: third :: rest, value =>
    inferInstanceAs (Decidable (∃ option ∈ first :: second :: third :: rest, option.toUInt32 = value))

instance (functionName : String) (value : UInt32) : Decidable (Allowed functionName value) :=
  inferInstanceAs (Decidable (∃ options, _ = some options ∧ Listed options value))

theorem accepts_iff (options : List UInt16) (value : UInt16) : accepts options value = true ↔ Listed options value.toUInt32 := by
  have hle (a c : UInt16) : a.toUInt32 ≤ c.toUInt32 ↔ a ≤ c := by
    rw [UInt32.le_iff_toNat_le, UInt16.le_iff_toNat_le, UInt16.toNat_toUInt32, UInt16.toNat_toUInt32]
  have heq (a c : UInt16) : a.toUInt32 = c.toUInt32 ↔ a = c := by
    rw [← UInt32.toNat_inj, ← UInt16.toNat_inj, UInt16.toNat_toUInt32, UInt16.toNat_toUInt32]
  unfold accepts Listed
  split
  · dsimp only
    rw [hle, hle, Bool.and_eq_true, decide_eq_true_iff, decide_eq_true_iff]
  · simp only [List.contains_iff_mem, heq, exists_eq_right]

/-- The values that get to a register are those whose low 16 bits are allowed: every function with options has a field. -/
theorem functionField_isSome_iff (functionName : String) (value : UInt16) :
    (functionField functionName value).isSome ↔ Allowed functionName value.toUInt32 := by
  have hfields : ∀ entry ∈ afeFunctionAvailableOptionsDict, (afeFunctionDict.lookup entry.1).isSome := by decide +kernel
  unfold functionField Allowed
  cases hoptions : afeFunctionAvailableOptionsDict.lookup functionName with
  | none => simp
  | some options =>
    have hfield : (afeFunctionDict.lookup functionName).isSome := by
      obtain ⟨before, after, hdict, -⟩ := List.lookup_eq_some_iff.mp hoptions
      exact hfields (functionName, options) (by rw [hdict]; simp)
    simp only [Option.some.injEq, exists_eq_left', ← accepts_iff]
    split
    · rename_i hrejects
      simp [hrejects]
    · rename_i haccepts
      simpa [hfield] using haccepts

/-! ### Words -/

/-- No word is sent to an AFE. -/
def NoWords (s t : ServerState) : Prop :=
  ∃ ws, t.writes = s.writes ++ ws ∧ ∀ w ∈ ws, ∀ afe < 5, w.address ≠ (afeControl afe).addr

/-- Some word is sent to an AFE. -/
def SomeWord (s t : ServerState) : Prop :=
  ∃ ws, t.writes = s.writes ++ ws ∧ ∃ w ∈ ws, ∃ afe < 5, w.address = (afeControl afe).addr

/-- Whether a read of the control register finds the SPI busy. -/
def busyAt (b : Board) (j : Nat) : Bool := Spi.afeGlobalControlBusy.extract (b.control j) != 0

/-- The SPI is busy at every poll of a wait. -/
def StaysBusy (b : Board) (s : ServerState) : Prop :=
  ∀ j ≤ b.polls s.accesses, busyAt b (s.reads Spi.afeGlobalControlBusy.addr + j) = true

variable {b : Board} {s t u : ServerState}

theorem SomeWord.not_noWords (h : SomeWord s t) : ¬NoWords s t := by
  obtain ⟨ws, hws, w, hw, afe, hafe, haddr⟩ := h
  rintro ⟨ws', hws', hnot⟩
  rw [hws] at hws'
  rw [List.append_cancel_left hws'] at hw
  exact hnot w hw afe hafe haddr

theorem NoWords.refl (s : ServerState) : NoWords s s := ⟨[], (List.append_nil _).symm, by simp⟩

theorem NoWords.of_quiet (h : Quiet s t) : NoWords s t := ⟨[], by rw [h.writes, List.append_nil], by simp⟩

/-- What only adds to the log. -/
abbrev appends : Effect Nat UInt32 Daphne := .apart (fun _ => False) fun _ => ()

theorem SomeWord.append (h : SomeWord s t) (ht : appends.Rel t u) : SomeWord s u := by
  obtain ⟨ws, hws, w, hw, hword⟩ := h
  obtain ⟨ws', hws', -⟩ := ht.writes
  exact ⟨ws ++ ws', by rw [hws', hws, List.append_assoc], w, List.mem_append_left _ hw, hword⟩

theorem isBusy_eq (s : ServerState) : Spi.isBusy b.env s =
    .ok (busyAt b (s.reads Spi.afeGlobalControlBusy.addr)) (s.afterRead Spi.afeGlobalControlBusy.addr) := by
  rw [Spi.isBusy, Reg.readBits, bind_assoc, bind_ok (read_driven_eq b.faults_none b.driven_control s)]
  rfl

theorem wp_waitNotBusy (s : ServerState) : wp (Spi.waitNotBusy b.env) (fun _ t => Quiet s t ∧ ¬StaysBusy b s)
    (fun _ t => Quiet s t ∧ StaysBusy b s) s := by
  have htrace : wp (Spi.waitNotBusy b.env) (fun _ _ => ∃ j ≤ b.polls s.accesses, busyAt b (s.reads Spi.afeGlobalControlBusy.addr + j) = false)
      (fun _ _ => StaysBusy b s) s := by
    have h : wp (pollWhile (Spi.isBusy b.env) Spi.timeout _) _ _ s := wp_pollWhile_trace isBusy_eq (b.polls s.accesses) s
    rwa [← Spi.pollNotBusy_eq] at h
  have hboth := wp_and (Spi.wp_waitNotBusy b.faults_none s) htrace
  refine wp_mono hboth (fun _ t ht => ⟨ht.1, fun hbusy => ?_⟩) fun _ t ht => ⟨ht.1.2, ht.2⟩
  obtain ⟨j, hj, hidle⟩ := ht.2
  rw [hbusy j hj] at hidle
  cases hidle

/-- A program that begins with a word for an AFE: nothing is sent if the SPI stays busy before it, and it throws then. -/
structure Sends (b : Board) {α : Type} (m : Prog Nat UInt32 Daphne α) : Prop where
  run : ∀ s, wp m (fun _ t => ¬StaysBusy b s ∧ SomeWord s t)
    (fun _ t => StaysBusy b s ∧ NoWords s t ∨ ¬StaysBusy b s ∧ SomeWord s t) s

variable {α β : Type} {m : Prog Nat UInt32 Daphne α}

theorem Sends.bind {f : α → Prog Nat UInt32 Daphne β} (h : Sends b m) (hf : ∀ a, Does appends (f a)) : Sends b (m >>= f) := by
  refine ⟨fun s => wp_bind.mpr (wp_mono (h.run s) (fun a t ht => ?_) fun _ _ ht => ht)⟩
  exact wp_mono ((hf a).run t) (fun _ _ hu => ⟨ht.1, ht.2.append hu⟩) fun _ _ hu => Or.inr ⟨ht.1, ht.2.append hu⟩

theorem Sends.throws_iff (h : Sends b m) (s : ServerState) : (∃ e t, m s = .error e t ∧ NoWords s t) ↔ StaysBusy b s := by
  have hrun := h.run s
  unfold wp at hrun
  constructor
  · rintro ⟨e, t, hthrows, hnone⟩
    rw [hthrows] at hrun
    rcases hrun with ⟨hbusy, -⟩ | ⟨-, hsome⟩
    · exact hbusy
    · exact absurd hnone hsome.not_noWords
  · intro hbusy
    cases hresult : m s with
    | ok a t =>
      rw [hresult] at hrun
      exact absurd hbusy hrun.1
    | error e t =>
      rw [hresult] at hrun
      rcases hrun with ⟨-, hnone⟩ | ⟨hidle, -⟩
      · exact ⟨e, t, rfl, hnone⟩
      · exact absurd hbusy hidle

theorem sends_setData {afe : Nat} (hafe : afe < 5) (word : UInt32) : Sends b (Spi.setData b.env (afeControl afe) word) := by
  refine ⟨fun s => wp_bind.mpr (wp_mono (wp_waitNotBusy s) (fun _ t ht => ?_) fun _ t ht => ?_)⟩
  · refine wp_bind.mpr (wp_mono (Reg.wp_writeBits_mapped b.faults_none _ word t) (fun _ u hu => ?_) fun _ _ h => h.elim)
    have hsome : ∀ v, Quiet u v → SomeWord s v := fun v hv => by
      obtain ⟨old, reads, -, -, hwrites⟩ := (hu.of_quiet ht.1 hv).write
      exact ⟨_, hwrites, _, List.mem_singleton.mpr rfl, afe, hafe, rfl⟩
    exact wp_bind.mpr (wp_mono (Spi.wp_waitNotBusy b.faults_none u) (fun _ v hv => ⟨ht.2, hsome v hv⟩)
      fun _ v hv => Or.inr ⟨ht.2, hsome v hv.2⟩)
  · exact Or.inl ⟨ht.2, .of_quiet ht.1⟩

theorem avoidsAfes : AvoidsAfes (fun _ => False) fun _ : Daphne => () where
  words _ _ := id
  regs _ _ _ _ := rfl

theorem sends_setAFEFunction {afe : Nat} (hafe : afe < 5) {functionName : String} {value : UInt16}
    (hallowed : Allowed functionName value.toUInt32) :
    Sends b (setAFEFunction b.env b.undefinedMask afe functionName value) := by
  obtain ⟨⟨register, msb, lsb⟩, hfield⟩ := Option.isSome_iff_exists.mp ((functionField_isSome_iff functionName value).mpr hallowed)
  have hsend (word : UInt32) : Does appends (Spi.setData b.env (afeControl afe) word) := Spi.does_apart_setData id word
  have hget : Sends b (getRegister b.env afe register) := by
    rw [getRegister, if_neg (not_not_intro (functionField_listed hfield))]
    exact (sends_setData hafe _).bind fun _ => (hsend _).bind fun _ =>
      (does_apart_of_quiet (Spi.does_quiet_getData _)).bind fun _ => (hsend _).bind fun _ => does_pure _
  rw [setAFEFunction_eq hfield]
  exact hget.bind fun _ => (avoidsAfes.setRegister hafe _ _).bind fun _ => (avoidsAfes.getRegister hafe _).bind fun _ => does_pure _

/-- When a handler that comes to a function throws and sends nothing from there on. -/
theorem throws_iff {afe : Nat} (hafe : afe < 5) {functionName : String} {value : UInt16} {f : UInt32 → Prog Nat UInt32 Daphne β}
    (hf : ∀ a, Does appends (f a)) (s : ServerState) :
    (∃ e t, (setAFEFunction b.env b.undefinedMask afe functionName value >>= f) s = .error e t ∧ NoWords s t) ↔
      ¬Allowed functionName value.toUInt32 ∨ StaysBusy b s := by
  by_cases hallowed : Allowed functionName value.toUInt32
  · rw [((sends_setAFEFunction hafe hallowed).bind hf).throws_iff s]
    exact ⟨Or.inr, fun h => h.resolve_left fun hnot => hnot hallowed⟩
  · have hnone : functionField functionName value = none :=
      Option.not_isSome_iff_eq_none.mp fun h => hallowed ((functionField_isSome_iff functionName value).mp h)
    obtain ⟨e, he⟩ := setAFEFunction_throws b.env b.undefinedMask afe hnone
    rw [he]
    exact ⟨fun _ => Or.inl hallowed, fun _ => ⟨e, s, rfl, .refl s⟩⟩

/-! ### Requests -/

/-- A function that a configuration sets in one of its AFEs, with what it sets before and after. -/
structure Setting (cfg : ConfigureRequest) where
  before : List AFEConfig
  config : AFEConfig
  after : List AFEConfig
  settingsBefore : List (String × UInt32)
  functionName : String
  value : UInt32
  settingsAfter : List (String × UInt32)
  afes_eq : cfg.afes = before ++ config :: after
  settings_eq : functionSettings config = settingsBefore ++ (functionName, value) :: settingsAfter

section
variable (b : Board) {cfg : ConfigureRequest} (p : Setting cfg)

/-- The handler up to the function, with its success so far and the AFE. -/
def Setting.upTo : Prog Nat UInt32 Daphne (Bool × Nat) := do
  let ok ← configureBoard b cfg
  p.before.forM (configureAFE b)
  let afe ← afePL p.config.id.toNat
  configureLevels b afe p.config
  p.settingsBefore.forM (applySetting b afe)
  return (ok, afe)

/-- The handler after the function. -/
def Setting.afterwards (ok : Bool) (afe : Nat) : Prog Nat UInt32 Daphne Response := do
  p.settingsAfter.forM (applySetting b afe)
  p.after.forM (configureAFE b)
  configurePower b
  return ⟨ok, []⟩

end

/-- A value that is not allowed, set by a request in the state `u`, is answered with a failure, and nothing is sent to
    an AFE from there on. -/
def Guards (b : Board) (r : Request) (functionName : String) (value : UInt32) (s u : ServerState) : Prop :=
  ¬Allowed functionName value → ∃ e t, r.prog b s = .error e t ∧ NoWords u t

theorem Setting.prog_eq {cfg : ConfigureRequest} (p : Setting cfg) : (Request.configure cfg).prog b =
    p.upTo b >>= fun reached => setAFEFunction b.env b.undefinedMask reached.2 p.functionName p.value.toUInt16 >>= fun _ =>
      p.afterwards b reached.1 reached.2 := by
  have hafe : configureAFE b p.config = afePL p.config.id.toNat >>= fun afe => configureLevels b afe p.config >>= fun _ =>
      p.settingsBefore.forM (applySetting b afe) >>= fun _ =>
        setAFEFunction b.env b.undefinedMask afe p.functionName p.value.toUInt16 >>= fun _ =>
          p.settingsAfter.forM (applySetting b afe) := by
    unfold configureAFE
    rw [p.settings_eq]
    simp only [List.forM_eq_forM, List.forM_append, List.forM_cons, applySetting, bind_assoc, pure_bind]
  rw [Request.prog, configureDaphne, p.afes_eq, Setting.upTo]
  simp only [List.forM_eq_forM, List.forM_append, List.forM_cons, hafe, Setting.afterwards, bind_assoc, pure_bind]

theorem avoidsLevels : AvoidsLevels (fun _ => False) fun _ : Daphne => () where
  chips _ := id
  control := id
  enable := id
  gains _ _ _ := rfl
  biases _ _ _ := rfl
  hv _ _ := rfl

theorem avoidsControls : AvoidsControls b fun _ => False where
  power _ := id
  triggers _ _ := id

theorem does_configureAFE (config : AFEConfig) : Does appends (configureAFE b config) :=
  does_afePL_bind fun afe hafe => (avoidsLevels.configureLevels afe config).bind fun _ => avoidsAfes.applySettings hafe _

section
variable {cfg : ConfigureRequest} (p : Setting cfg)

theorem Setting.does_afterwards (ok : Bool) {afe : Nat} (hafe : afe < 5) : Does appends (p.afterwards b ok afe) :=
  (avoidsAfes.applySettings hafe _).bind fun _ => (does_forM fun config _ => does_configureAFE config).bind fun _ =>
    avoidsControls.configurePower.bind fun _ => does_pure _

theorem Setting.afe_lt {s u : ServerState} {ok : Bool} {afe : Nat} (h : p.upTo b s = .ok (ok, afe) u) : afe < 5 := by
  have hlt : wp (p.upTo b) (fun reached _ => reached.2 < 5) (fun _ _ => True) s := by
    refine wp_bind.mpr (wp_mono wp_true (fun _ s1 _ => ?_) fun _ _ h => h)
    refine wp_bind.mpr (wp_mono wp_true (fun _ s2 _ => ?_) fun _ _ h => h)
    refine afePL_cases (fun m => wp m _ _ s2) (fun afe hafe _ => ?_) trivial
    refine wp_bind.mpr (wp_mono wp_true (fun _ s3 _ => ?_) fun _ _ h => h)
    exact wp_bind.mpr (wp_mono wp_true (fun _ _ _ => hafe) fun _ _ h => h)
  have hreached := wp_ok hlt h
  exact hreached

end

/-- A function that is set in the state `u`, by a program that is then the handler's. -/
theorem guards_iff_of_eq {r : Request} {s u : ServerState} {afe : Nat} (hafe : afe < 5) {functionName : String} {value : UInt32}
    {f : UInt32 → Prog Nat UInt32 Daphne Response} (hf : ∀ a, Does appends (f a))
    (hprog : r.prog b s = (setAFEFunction b.env b.undefinedMask afe functionName value.toUInt16 >>= f) u) :
    Guards b r functionName value s u ↔
      Allowed functionName value ∨ ¬Allowed functionName value.toUInt16.toUInt32 ∨ StaysBusy b u := by
  rw [Guards, hprog, throws_iff hafe hf u]
  exact Decidable.imp_iff_not_or.trans (or_congr Decidable.not_not Iff.rfl)

/-- WRITE_AFE_FUNCTION and the functions of a configuration keep a value that is not allowed from the AFEs exactly when
its low 16 bits are not allowed either, when there is no such AFE, or when the SPI stays busy before the first word. -/
theorem guards_iff (b : Board) :
    (∀ afeBlock functionName configValue s, Guards b (.writeAFEFunction afeBlock functionName configValue) functionName configValue s s ↔
      Allowed functionName configValue ∨ ¬Allowed functionName configValue.toUInt16.toUInt32 ∨
        Chunker.afeBoard2PLMap afeBlock.toNat = none ∨ StaysBusy b s) ∧
    ∀ cfg (p : Setting cfg) s, (∀ e t, p.upTo b s = .error e t → (Request.configure cfg).prog b s = .error e t) ∧
      ∀ reached u, p.upTo b s = .ok reached u → (Guards b (.configure cfg) p.functionName p.value s u ↔
        Allowed p.functionName p.value ∨ ¬Allowed p.functionName p.value.toUInt16.toUInt32 ∨ StaysBusy b u) := by
  refine ⟨fun afeBlock functionName configValue s => ?_, fun cfg p s => ⟨fun e t h => ?_, fun reached u h => ?_⟩⟩
  · have hunfold : (Request.writeAFEFunction afeBlock functionName configValue).prog b = afePL afeBlock.toNat >>= fun afe =>
        (if afe > 4 then throw "AFE out of range (0..4)"
          else setAFEFunction b.env b.undefinedMask afe functionName configValue.toUInt16) >>= fun v => pure ⟨true, [v]⟩ := by
      simp only [Request.prog, writeAFEFunction, bind_assoc]
    cases hmap : Chunker.afeBoard2PLMap afeBlock.toNat with
    | none =>
      refine ⟨fun _ => Or.inr (Or.inr (Or.inl rfl)), fun _ _ => ⟨"unordered_map::at", s, ?_, .refl s⟩⟩
      rw [hunfold, afePL, hmap]
      rfl
    | some afe =>
      have hafe := afeBoard2PLMap_lt hmap
      have hprog : (Request.writeAFEFunction afeBlock functionName configValue).prog b s =
          (setAFEFunction b.env b.undefinedMask afe functionName configValue.toUInt16 >>= fun v => pure ⟨true, [v]⟩) s := by
        rw [hunfold, afePL, hmap, pure_bind, if_neg (by omega)]
      rw [guards_iff_of_eq hafe (fun _ => does_pure _) hprog]
      simp
  · rw [p.prog_eq, bind_error h]
  · obtain ⟨ok, afe⟩ := reached
    have hafterwards : ∀ _ : UInt32, Does appends (p.afterwards b ok afe) := fun _ => p.does_afterwards ok (p.afe_lt h)
    refine guards_iff_of_eq (p.afe_lt h) hafterwards ?_
    rw [p.prog_eq, bind_ok h]

/-- LNA_GAIN is from 0 to 3. -/
def wideGain : ConfigureRequest where
  afes := [⟨0, 0, 0, ⟨false, false, false⟩, ⟨0, false⟩, ⟨0, 65537, false⟩⟩]

def wideGainSetting : Setting wideGain where
  before := []
  config := ⟨0, 0, 0, ⟨false, false, false⟩, ⟨0, false⟩, ⟨0, 65537, false⟩⟩
  after := []
  settingsBefore := [("SERIALIZED_DATA_RATE", 1), ("ADC_RESOLUTION_RESET", 0), ("ADC_OUTPUT_FORMAT", 0), ("LSB_MSB_FIRST", 0),
    ("LPF_PROGRAMMABILITY", 0), ("PGA_INTEGRATOR_DISABLE", 0), ("PGA_CLAMP_LEVEL", 2), ("ACTIVE_TERMINATION_ENABLE", 0),
    ("LNA_INPUT_CLAMP_SETTING", 0)]
  functionName := "LNA_GAIN"
  value := 65537
  settingsAfter := [("LNA_INTEGRATOR_DISABLE", 0)]
  afes_eq := rfl
  settings_eq := rfl

theorem wideGain_not_guards : ∃ reached u, wideGainSetting.upTo .idle ServerState.fresh = .ok reached u ∧
    ¬Guards .idle (.configure wideGain) "LNA_GAIN" 65537 .fresh u := by
  have hreaches : (match wideGainSetting.upTo .idle ServerState.fresh with
      | .ok .. => true
      | .error .. => false) = true := by decide +kernel
  cases hrun : wideGainSetting.upTo .idle ServerState.fresh with
  | error e t =>
    rw [hrun] at hreaches
    cases hreaches
  | ok reached u =>
    refine ⟨reached, u, rfl, fun h => ?_⟩
    rcases (((guards_iff .idle).2 wideGain wideGainSetting ServerState.fresh).2 reached u hrun).mp h with hwide | hnarrow | hbusy
    · exact absurd hwide (by decide +kernel)
    · exact hnarrow (by decide +kernel)
    · have hidle (j : Nat) : busyAt .idle j = false := show (Spi.afeGlobalControlBusy.extract 0 != 0) = false by decide
      exact absurd (hbusy 0 (Nat.zero_le _)) (by rw [hidle]; decide)

theorem wide_not_guards : ¬Guards .idle (.writeAFEFunction 0 "LNA_GAIN" 65537) "LNA_GAIN" 65537 .fresh .fresh := by
  intro h
  obtain ⟨e, t, ht, -⟩ := h (by decide +kernel)
  have hanswers : (Request.writeAFEFunction 0 "LNA_GAIN" 65537).answers .idle .fresh = true := by decide +kernel
  rw [Request.answers, ht] at hanswers
  cases hanswers

end AfeFunction
end DaphneZmq
