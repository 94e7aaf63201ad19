import DaphneZmq.Theorems.BiasControl
import DaphneZmq.Theorems.TrimOffset
import Mathlib.Data.List.TakeWhile

/-! What a configuration with an entry that is out of range leaves behind. It is refused, but its entries are checked one
after the other, and those in front of the first bad one have been set by then. -/

namespace DaphneZmq
open Lib Lib.Device
namespace Rejection
open Dac GainBias Handlers
open TrimOffset (channelKey channelKey_inj IsWord registerData_inj afeBoard2PLMap_inj)
open BiasControl (codeOf)

/-! ### Settings -/

/-- A value that a configuration sets: a trim or an offset, a gain, a bias or the HV control. -/
inductive Setting where
  | channel (kind : Kind) (ch : Nat)
  | output (o : Output)
  deriving DecidableEq

namespace Setting

def key : Setting → StateKey
  | channel kind ch => channelKey kind ch
  | output o => o.key

/-- The value is in the word at an address; with the HV control goes the enable bit. -/
def At : Setting → Nat → Prop
  | channel kind ch, a => ∃ afe ∈ Chunker.afeBoard2PLMap (ch / 8), a = (registerData kind afe).addr
  | output o, a => (∃ p ∈ o.place, a = p.1.addr) ∨ o = .hv ∧ a = biasEnable.addr

end Setting

/-- The address of a word of trims or offsets, of gains, biases or the HV control, or of the enable bit. -/
def IsDacWord (a : Nat) : Prop := IsWord a ∨ (∃ chip : Chip, a = chip.addr) ∨ a = biasEnable.addr

/-- The entries of a configuration that are worked off one after the other; the bias control comes with its code. -/
inductive Entry where
  | channel (config : ChannelConfig)
  | control (code : Option UInt32)
  | afe (config : AFEConfig)

def entries (cfg : ConfigureRequest) : List Entry := cfg.channels.map .channel ++ .control (codeOf cfg) :: cfg.afes.map .afe

namespace Entry

/-- An unknown channel or AFE, a VGAIN or a bias above 4095. -/
def offends : Entry → Bool
  | channel config => config.id > 39
  | control _ => false
  | afe config => (Chunker.afeBoard2PLMap config.id.toNat).isNone || config.attenuators > 4095 || config.v_bias > 4095

def settings : Entry → List Setting
  | channel config => [.channel .trim config.id.toNat, .channel .offset config.id.toNat]
  | control code => if code.isSome then [.output .hv] else []
  | afe config => (Chunker.afeBoard2PLMap config.id.toNat).toList.flatMap fun afe =>
      .output (.gain afe) :: if config.v_bias ≠ 0 then [.output (.bias afe)] else []

/-- What an entry that offends sets before it is refused: a gain whose bias is out of range. -/
def begun : Entry → List Setting
  | afe config => if config.attenuators ≤ 4095 then
      (Chunker.afeBoard2PLMap config.id.toNat).toList.map fun afe => .output (.gain afe)
    else []
  | _ => []

end Entry

/-- What is set in front of the first entry that offends. -/
def inFront (entries : List Entry) : List Setting :=
  (entries.takeWhile (!·.offends)).flatMap Entry.settings ++ (entries.find? (·.offends)).toList.flatMap Entry.begun

/-- Apart from some settings, the kept values and halves, the words and what the outputs hold are as before. -/
structure KeepsRest (settings : List Setting) (s t : ServerState) : Prop where
  cached : ∀ x ∉ settings, t.driver.state x.key = s.driver.state x.key
  halves : ∀ kind ch afe, .channel kind ch ∉ settings → Chunker.afeBoard2PLMap (ch / 8) = some afe →
    t.driver.channelValues kind afe (ch % 8) = s.driver.channelValues kind afe (ch % 8)
  words : ∀ a, IsDacWord a → (∀ x ∈ settings, ¬x.At a) →
    t.cells a = s.cells a ∧ ∃ ws, t.writes = s.writes ++ ws ∧ ∀ w ∈ ws, w.address ≠ a
  outputs : ∀ o, o.place.isSome → .output o ∉ settings → LeftAlone o s t

variable {b : Board} {s t : ServerState} {G : Effect Nat UInt32 Daphne} {settings : List Setting} {cfg : ConfigureRequest}

theorem key_inj {x y : Setting} (h : x.key = y.key) : x = y := by
  cases x with
  | channel kind ch =>
    cases y with
    | channel kind' ch' =>
      obtain ⟨rfl, rfl⟩ := channelKey_inj h
      rfl
    | output o => cases kind <;> cases o <;> cases h
  | output o =>
    cases y with
    | channel kind ch => cases kind <;> cases o <;> cases h
    | output o' => rw [GainBias.key_inj h]

/-! ### The configuration as its entries -/

def Entry.prog (b : Board) : Entry → Prog Nat UInt32 Daphne Unit
  | .channel config => configureChannel b config
  | .control none => pure ()
  | .control (some code) => do
    let _ ← setBiasControl b code true
  | .afe config => configureAFE b config

theorem configureBiasControl_eq (cfg : ConfigureRequest) : configureBiasControl b cfg = (Entry.control (codeOf cfg)).prog b := by
  unfold configureBiasControl codeOf
  by_cases hown : cfg.biasctrl ≤ 4095
  · rw [if_pos hown, if_pos hown]
    rfl
  rw [if_neg hown, if_neg hown]
  by_cases hbias : cfg.afes.any (·.v_bias > 0) = true
  · rw [if_pos hbias, if_pos hbias]
    rfl
  · rw [if_neg hbias, if_neg hbias]
    rfl

theorem configureDaphne_eq (cfg : ConfigureRequest) : configureDaphne b cfg = (configureReset b >>= fun _ =>
    SelfTrigger.writeTriggerThresholds b.mapFails cfg >>= fun thr => SelfTrigger.writeSelfTriggerControls b.mapFails cfg >>= fun st =>
      (entries cfg).forM (Entry.prog b) >>= fun _ => configurePower b >>= fun _ => pure (thr.1 && st.1)) := by
  have hentries : (entries cfg).forM (Entry.prog b) = (cfg.channels.forM (configureChannel b) >>= fun _ =>
      configureBiasControl b cfg >>= fun _ => cfg.afes.forM (configureAFE b)) := by
    refine List.forM_append.trans ?_
    show ((cfg.channels.map Entry.channel).forM (Entry.prog b) >>= fun _ => (Entry.control (codeOf cfg)).prog b >>= fun _ =>
      (cfg.afes.map Entry.afe).forM (Entry.prog b)) = _
    rw [forM_map, forM_map, configureBiasControl_eq]
    rfl
  simp only [configureDaphne, configureBoard, hentries, bind_assoc, pure_bind]

/-- What has to be known of an effect for a setting. -/
def Sets (b : Board) (G : Effect Nat UInt32 Daphne) : Setting → Prop
  | .channel kind ch => ∀ afe, Chunker.afeBoard2PLMap (ch / 8) = some afe → ∀ value,
      Does G (setChannel b kind afe (ch % 8) ch value false)
  | .output (.gain afe) => afe < 5 → ∀ value ≤ 4095, Does G (setGain b afe value)
  | .output (.bias afe) => afe < 5 → ∀ value ≤ 4095, Does G (setBias b afe value)
  | .output .hv => ∀ value ≤ 4095, Does G (setBiasControl b value true)

theorem of_mem_afes {config : AFEConfig} {afe : Nat} (hmap : Chunker.afeBoard2PLMap config.id.toNat = some afe) :
    .output (.gain afe) ∈ (Entry.afe config).settings ∧
      (config.v_bias ≠ 0 → .output (.bias afe) ∈ (Entry.afe config).settings) := by
  refine ⟨?_, fun hbias => ?_⟩
  · simp [Entry.settings, hmap]
  · simp [Entry.settings, hmap, hbias]

/-- An entry in range does no more than its settings. -/
theorem does_prog {entry : Entry} (hafes : ∀ afe < 5, ∀ settings : List (String × UInt32), Does G (settings.forM (applySetting b afe)))
    (hcode : ∀ code, entry = .control (some code) → code ≤ 4095) (hrange : entry.offends = false)
    (h : ∀ x ∈ entry.settings, Sets b G x) : Does G (entry.prog b) := by
  cases entry with
  | channel config =>
    have hid : ¬config.id > 39 := of_decide_eq_false hrange
    show Does G (configureChannel b config)
    rw [configureChannel, if_neg hid]
    refine afePL_cases (Does G) (fun afe hafe hmap => ?_) (does_throw _)
    exact (h (.channel .trim _) (by simp [Entry.settings]) afe hmap _).bind fun _ =>
      h (.channel .offset _) (by simp [Entry.settings]) afe hmap _
  | control code =>
    cases code with
    | none => exact does_pure ()
    | some code => exact (h (.output .hv) (by simp [Entry.settings]) code (hcode code rfl)).bind fun _ => does_pure ()
  | afe config =>
    simp only [Entry.offends, Bool.or_eq_false_iff, decide_eq_false_iff_not] at hrange
    obtain ⟨⟨-, hgain⟩, hbias⟩ := hrange
    refine afePL_cases (Does G) (fun afe hafe hmap => Does.bind ?_ fun _ => hafes afe hafe _) (does_throw _)
    obtain ⟨hgains, hbiases⟩ := of_mem_afes hmap
    rw [configureLevels, if_neg hgain]
    refine (h _ hgains hafe _ (UInt32.not_lt.mp hgain)).bind fun _ => ?_
    rw [if_neg hbias]
    by_cases hzero : config.v_bias ≠ 0
    · rw [if_pos hzero]
      exact h _ (hbiases hzero) hafe _ (UInt32.not_lt.mp hbias)
    · rw [if_neg hzero]
      exact does_pure ()

/-- An entry that offends does no more than what it has begun. -/
theorem does_prog_begun {entry : Entry} (hafes : ∀ afe < 5, ∀ settings : List (String × UInt32), Does G (settings.forM (applySetting b afe)))
    (hoffends : entry.offends = true) (h : ∀ x ∈ entry.begun, Sets b G x) : Does G (entry.prog b) := by
  cases entry with
  | channel config =>
    have hid : config.id > 39 := of_decide_eq_true hoffends
    show Does G (configureChannel b config)
    rw [configureChannel, if_pos hid]
    exact does_throw _
  | control code => cases hoffends
  | afe config =>
    refine afePL_cases (Does G) (fun afe hafe hmap => Does.bind ?_ fun _ => hafes afe hafe _) (does_throw _)
    rw [configureLevels]
    by_cases hgain : config.attenuators > 4095
    · rw [if_pos hgain]
      exact does_throw _
    · simp only [Entry.offends, hmap, Option.isNone_some, Bool.false_or, Bool.or_eq_true, decide_eq_true_eq] at hoffends
      have hbias : config.v_bias > 4095 := hoffends.resolve_left hgain
      have hle : config.attenuators ≤ 4095 := UInt32.not_lt.mp hgain
      rw [if_neg hgain]
      refine (h (.output (.gain afe)) (by simp [Entry.begun, hmap, hle]) hafe _ hle).bind fun _ => ?_
      rw [if_pos hbias]
      exact does_throw _

/-- An entry returns only if it is in range. -/
theorem wp_prog (entry : Entry) (s : ServerState) :
    wp (entry.prog b) (fun _ _ => entry.offends = false) (fun _ _ => True) s := by
  cases entry with
  | channel config =>
    show wp (configureChannel b config) _ _ s
    unfold configureChannel
    split
    · trivial
    · rename_i hid
      exact wp_mono wp_true (fun _ _ _ => decide_eq_false hid) fun _ _ h => h
  | control code => exact wp_mono wp_true (fun _ _ _ => rfl) fun _ _ h => h
  | afe config =>
    refine afePL_cases (fun m => wp m _ _ s) (fun afe hafe hmap => ?_) trivial
    refine wp_bind.mpr (wp_mono (wp_configureLevels_range afe config s) (fun _ t hrange => ?_) fun _ _ h => h)
    refine wp_mono wp_true (fun _ _ _ => ?_) fun _ _ h => h
    simpa [Entry.offends, hmap, not_or] using hrange

/-! ### The rest -/

/-- The words that are not of the settings. -/
def RestWord (settings : List Setting) (a : Nat) : Prop := IsDacWord a ∧ ∀ x ∈ settings, ¬x.At a

structure RestChannel (settings : List Setting) where
  kind : Kind
  ch : Nat
  afe : Nat
  unset : .channel kind ch ∉ settings
  mapped : Chunker.afeBoard2PLMap (ch / 8) = some afe

def restView (settings : List Setting) (d : Daphne) :
    ({x : Setting // x ∉ settings} → Option UInt32) × (RestChannel settings → UInt32) :=
  (fun x => d.state x.1.key, fun c => d.channelValues c.kind c.afe (c.ch % 8))

theorem restView_update {x : Setting} (hx : x ∈ settings) (d : Daphne) (value : Option UInt32) :
    restView settings { d with state := Function.update d.state x.key value } = restView settings d := by
  refine Prod.ext (funext fun y => Function.update_of_ne (fun h => y.2 ?_) _ _) rfl
  rw [key_inj h]
  exact hx

theorem restView_set {kind : Kind} {ch afe : Nat} (hx : .channel kind ch ∈ settings)
    (hmap : Chunker.afeBoard2PLMap (ch / 8) = some afe) (d : Daphne) (data : UInt32) :
    restView settings { d with channelValues := d.channelValues.set kind afe (ch % 8) data } = restView settings d := by
  refine Prod.ext rfl (funext fun c => if_neg ?_)
  -- A channel with the same half is the same channel.
  rintro ⟨hkind, hafe, hidx⟩
  have hboard : c.ch / 8 = ch / 8 := afeBoard2PLMap_inj c.mapped (hafe ▸ hmap)
  have hch : c.ch = ch := by omega
  exact c.unset (by rwa [hkind, hch])

/-- A chip with an output that is set has its word among those of the settings. -/
theorem chip_not_rest {o : Output} (hx : .output o ∈ settings) : ∀ chip ∈ o.entry.1, ¬RestWord settings chip.addr := by
  rintro chip hchip ⟨-, hrest⟩
  refine hrest _ hx (Or.inl ⟨(chip, o.entry.2.1.toNat), ?_, rfl⟩)
  rw [Output.place, Option.mem_def.mp hchip]
  rfl

theorem control_not_rest : ¬RestWord settings dacGainBiasControlGo.addr := by
  rintro ⟨⟨kind, afe, hafe, h⟩ | ⟨chip, h⟩ | h, -⟩
  · cases kind <;> simp only [dacGainBiasControlGo, registerData] at h <;> omega
  · exact addr_ne_control chip h.symm
  · cases h

theorem does_rest_setDacGeneral {o : Output} (hx : .output o ∈ settings) (value : UInt32) :
    Does (.apart (RestWord settings) (restView settings))
      (setDacGeneral b.env o.entry.1 o.entry.2.1 o.entry.2.2.1 o.entry.2.2.2 value) :=
  does_apart_setDacGeneral (chip_not_rest hx) control_not_rest _ _ _ _

theorem sets_rest {x : Setting} (hx : x ∈ settings) : Sets b (.apart (RestWord settings) (restView settings)) x := by
  match x with
  | .channel kind ch =>
    intro afe hmap value
    refine does_apart_setChannel (fun h => h.2 _ hx ⟨afe, hmap, rfl⟩) (restView_set hx hmap) ?_ ?_ value false
    · rintro rfl d value
      exact restView_update hx d value
    · rintro rfl d value
      exact restView_update hx d value
  | .output (.gain afe) =>
    intro _ value _
    refine ((does_rest_setDacGeneral hx value).bind fun _ => does_pure _).bind fun _ => ?_
    exact does_checkAfe (does_setState (fun d value => restView_update hx d value) value) afe
  | .output (.bias afe) =>
    intro _ value _
    refine ((does_rest_setDacGeneral hx value).bind fun _ => does_pure _).bind fun _ => ?_
    exact does_checkAfe (does_setState (fun d value => restView_update hx d value) value) afe
  | .output .hv =>
    intro value _
    have henable : ¬RestWord settings biasEnable.addr := fun h => h.2 _ hx (Or.inr ⟨rfl, rfl⟩)
    refine (does_rest_setDacGeneral hx value).bind fun _ => (Reg.does_apart_writeBits henable _).bind fun _ => ?_
    exact (does_setState (fun d value => restView_update hx d value) value).bind fun _ => does_pure _

/-- An output that is not set is left alone by the settings. -/
theorem sets_beside {o : Output} {p : Chip × Nat} (hp : o.place = some p) (ho : .output o ∉ settings) {x : Setting}
    (hx : x ∈ settings) : Sets b (besideOutput o p) x := by
  have hne {o' : Output} (hx : .output o' ∈ settings) : o' ≠ o := by
    rintro rfl
    exact ho hx
  match x with
  | .channel kind ch =>
    intro afe hmap value
    exact does_besideOutput (GainBias.avoidsChannels.setChannel (afeBoard2PLMap_lt hmap) _ _ _ _)
  | .output (.gain afe) => exact fun hafe value hvalue => does_besideOutput_setGain hp (hne hx) hafe hvalue
  | .output (.bias afe) => exact fun hafe value hvalue => does_besideOutput_setBias hp (hne hx) hafe hvalue
  | .output .hv => exact fun value hvalue => does_besideOutput_setBiasControl hp (hne hx) hvalue true

/-! ### The configuration -/

theorem mem_inFront_of_front {all : List Entry} {entry : Entry} (hentry : entry ∈ all.takeWhile (!·.offends)) {x : Setting}
    (hx : x ∈ entry.settings) : x ∈ inFront all :=
  List.mem_append_left _ (List.mem_flatMap.mpr ⟨entry, hentry, hx⟩)

theorem mem_inFront_of_begun {all : List Entry} {entry : Entry} (hentry : entry ∈ all.find? (·.offends)) {x : Setting}
    (hx : x ∈ entry.begun) : x ∈ inFront all :=
  List.mem_append_right _ (List.mem_flatMap.mpr ⟨entry, Option.mem_toList.mpr hentry, hx⟩)

theorem code_le {code : UInt32} (h : Entry.control (some code) ∈ entries cfg) : code ≤ 4095 := by
  have hcode : codeOf cfg = some code := by
    simp only [entries, List.mem_append, List.mem_map, reduceCtorEq, and_false, exists_false, false_or, List.mem_cons,
      Entry.control.injEq, or_false] at h
    exact h.symm
  unfold codeOf at hcode
  split at hcode
  · rename_i hown
    cases hcode
    exact hown
  · split at hcode
    · cases hcode
      decide
    · cases hcode

section Effects
variable {V : Type} {mine : Nat → Prop} {view : Daphne → V}

/-- A configuration does no more than what is set in front. -/
theorem does_configureDaphne (hcontrols : AvoidsControls b mine) (hafes : AvoidsAfes mine view)
    (hG : ∀ s t, Apart mine view s t → G.Rel s t) (h : ∀ x ∈ inFront (entries cfg), Sets b G x) : Does G (configureDaphne b cfg) := by
  have hfunctions : ∀ afe < 5, ∀ settings : List (String × UInt32), Does G (settings.forM (applySetting b afe)) :=
    fun afe hafe settings => (hafes.applySettings hafe settings).coarsen hG
  have hentries : Does G ((entries cfg).forM (Entry.prog b)) := by
    refine does_forM_front Entry.offends (fun entry hentry => ?_) fun entry hentry => ⟨?_, fun s => ?_⟩
    · have hrange : entry.offends = false := by simpa using List.mem_takeWhile_imp hentry
      refine does_prog hfunctions (fun code hcode => ?_) hrange fun x hx => h x (mem_inFront_of_front hentry hx)
      subst hcode
      exact code_le ((List.takeWhile_subset _) hentry)
    · have hoffends : entry.offends = true := List.find?_some hentry
      exact does_prog_begun hfunctions hoffends fun x hx => h x (mem_inFront_of_begun hentry hx)
    · have hoffends : entry.offends = true := List.find?_some hentry
      refine wp_mono (wp_prog entry s) (fun _ _ hrange => ?_) fun _ _ h => h
      rw [hoffends] at hrange
      cases hrange
  rw [configureDaphne_eq]
  exact (hcontrols.configureReset.coarsen hG).bind fun _ => ((hcontrols.writeTriggerThresholds cfg).coarsen hG).bind fun _ =>
    ((hcontrols.writeSelfTriggerControls cfg).coarsen hG).bind fun _ => hentries.bind fun _ =>
      (hcontrols.configurePower.coarsen hG).bind fun _ => does_pure _

end Effects

theorem avoidsControls : AvoidsControls b (RestWord settings) where
  power hresets := by
    rintro ⟨h | h | h, -⟩
    · exact TrimOffset.avoidsControls.power hresets h
    · exact GainBias.avoidsControls.power hresets (Or.inr h)
    · cases h
  triggers a ha := by
    rintro ⟨h | h | h, -⟩
    · exact (TrimOffset.avoidsControls (b := b)).triggers a ha h
    · exact (GainBias.avoidsControls (b := b)).triggers a ha (Or.inr h)
    · exact (BiasControl.avoidsControls (b := b)).triggers a ha h

theorem avoidsAfes : AvoidsAfes (RestWord settings) (restView settings) where
  words afe hafe := by
    rintro ⟨h | h | h, -⟩
    · exact TrimOffset.avoidsAfes.words afe hafe h
    · exact GainBias.avoidsAfes.words afe hafe (Or.inr h)
    · exact BiasControl.avoidsAfes.words afe hafe h
  regs d afe reg value := by
    refine Prod.ext (funext fun x => Function.update_of_ne ?_ _ _) rfl
    match x.1 with
    | .channel .trim _ | .channel .offset _ | .output (.gain _) | .output (.bias _) | .output .hv => exact nofun

theorem not_returns (h : ∃ entry ∈ entries cfg, entry.offends = true) (s : ServerState) :
    ∃ e t, configureDaphne b cfg s = .error e t := by
  have hloop : wp (configureDaphne b cfg) (fun _ _ => False) (fun _ _ => True) s := by
    rw [configureDaphne_eq]
    refine wp_bind.mpr (wp_mono wp_true (fun _ s1 _ => ?_) fun _ _ h => h)
    refine wp_bind.mpr (wp_mono wp_true (fun _ s2 _ => ?_) fun _ _ h => h)
    refine wp_bind.mpr (wp_mono wp_true (fun _ s3 _ => ?_) fun _ _ h => h)
    refine wp_bind.mpr (wp_mono (wp_forM_all wp_prog (entries cfg) s3) (fun _ s4 hall => ?_) fun _ _ h => h)
    obtain ⟨entry, hentry, hoffends⟩ := h
    have hrange := hall entry hentry
    rw [hoffends] at hrange
    cases hrange
  cases hrun : configureDaphne b cfg s with
  | ok ok t => exact (wp_ok hloop hrun).elim
  | error e t => exact ⟨e, t, rfl⟩

theorem keepsRest_of_error {e : String} (h : configureDaphne b cfg s = .error e t) : KeepsRest (inFront (entries cfg)) s t := by
  have hended {G : Effect Nat UInt32 Daphne} (hdoes : Does G (configureDaphne b cfg)) : G.Rel s t := by
    have hrun := wp_error (hdoes.run s) h
    exact hrun
  have hapart : Apart (RestWord (inFront (entries cfg))) (restView (inFront (entries cfg))) s t :=
    hended (does_configureDaphne avoidsControls avoidsAfes (fun _ _ ht => ht) fun _ => sets_rest)
  have hcached := congrArg Prod.fst hapart.view_eq
  have hhalves := congrArg Prod.snd hapart.view_eq
  refine ⟨fun x hx => congrFun hcached ⟨x, hx⟩, fun kind ch afe hx hmap => congrFun hhalves ⟨kind, ch, afe, hx, hmap⟩,
    fun a ha hx => ⟨hapart.cells a ⟨ha, hx⟩, ?_⟩, fun o ho hx => ?_⟩
  · obtain ⟨ws, hws, hnot⟩ := hapart.writes
    exact ⟨ws, hws, fun w hw hwa => hnot w hw (hwa ▸ ⟨ha, hx⟩)⟩
  · obtain ⟨p, hp⟩ := Option.isSome_iff_exists.mp ho
    have hbeside : Beside o p s t := hended (does_configureDaphne (G := besideOutput o p) GainBias.avoidsControls GainBias.avoidsAfes
      (fun _ _ => Beside.of_apart) fun _ => sets_beside hp hx)
    exact hbeside.leftAlone hp

theorem step_of_error {e : String} (h : configureDaphne b cfg s = .error e t) : (Request.configure cfg).step b s = t := by
  have hprog : (Request.configure cfg).prog b s = .error e t := bind_error h
  rw [Request.step, Request.handle, rethrow, hprog]

/-- A configuration with an entry that is out of range is refused, and leaves all that is not set in front of its first such
entry. -/
theorem configure_refused (b : Board) (s : ServerState) (h : ∃ entry ∈ entries cfg, entry.offends = true) :
    ∃ e t, configureDaphne b cfg s = .error e t ∧ KeepsRest (inFront (entries cfg)) s t := by
  obtain ⟨e, t, hrun⟩ := not_returns (b := b) h s
  exact ⟨e, t, hrun, keepsRest_of_error hrun⟩

/-! ### A bad entry at the end -/

/-- A trim of a channel and a bias control, with an AFE that is not there. -/
def halfway : ConfigureRequest where
  biasctrl := 1000
  channels := [⟨0, 100, 0⟩]
  afes := [{ id := 9, attenuators := 0, v_bias := 0, adc := ⟨false, false, false⟩, pga := ⟨0, false⟩, lna := ⟨0, 0, false⟩ }]

theorem halfway_offends : ∃ entry ∈ entries halfway, entry.offends = true :=
  ⟨.afe _, List.mem_append_right _ (List.mem_cons_of_mem _ (List.mem_cons_self ..)), rfl⟩

theorem halfway_refused : ∃ e t, configureDaphne .idle halfway ServerState.fresh = .error e t ∧
    KeepsRest (inFront (entries halfway)) ServerState.fresh t :=
  configure_refused .idle ServerState.fresh halfway_offends

/-- The configuration is refused for its AFE, but the trim and the HV control have been set by then, and the bias is enabled. -/
theorem halfway_not_unchanged : (∃ e t, configureDaphne .idle halfway ServerState.fresh = .error e t ∧ ¬KeepsRest [] ServerState.fresh t) ∧
    ((Request.configure halfway).step .idle ServerState.fresh).driver.state (.channelTrim 0) = some 100 ∧
    ((Request.configure halfway).step .idle ServerState.fresh).driver.state .biasControl = some 1000 ∧
    ((Request.configure halfway).step .idle ServerState.fresh).cells biasEnable.addr = 1 := by
  have htrim : ((Request.configure halfway).step .idle ServerState.fresh).driver.state (.channelTrim 0) = some 100 := by
    decide +kernel
  refine ⟨?_, htrim, by decide +kernel, by decide +kernel⟩
  obtain ⟨e, t, hrun⟩ := not_returns (b := .idle) halfway_offends ServerState.fresh
  refine ⟨e, t, hrun, fun h => ?_⟩
  have hsame : t.driver.state (.channelTrim 0) = none := h.cached (.channel .trim 0) (List.not_mem_nil)
  rw [step_of_error hrun, hsame] at htrim
  cases htrim

end Rejection
end DaphneZmq
