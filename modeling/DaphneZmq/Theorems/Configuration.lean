import DaphneZmq.Lib.Overwrite
import DaphneZmq.Theorems.Rejection
import Mathlib.Data.List.Induction

/-! What a configuration that is accepted leaves behind. Its entries are worked off one after the other, and each setting keeps the
last value that an entry has for it; no entry changes a setting of another. -/

namespace DaphneZmq
open Lib Lib.Device Lib.Overwrite
namespace Configuration
open Dac hiding Setting
open GainBias Handlers Rejection
open TrimOffset (encoded channelKey getChDictValue_ok)

/-! ### Assignments -/

/-- The values that are kept for the settings. -/
abbrev Values := Setting → Option UInt32

def kept (s : ServerState) : Values := fun x => s.driver.state x.key

def assign (values : Values) (a : Setting × UInt32) : Values := Function.update values a.1 (some a.2)

/-- What an entry sets, in order. A bias of zero is not set. -/
def assignments : Entry → List (Setting × UInt32)
  | .channel config => [(.channel .trim config.id.toNat, config.trim), (.channel .offset config.id.toNat, config.offset)]
  | .control code => code.toList.map fun code => (.output .hv, code)
  | .afe config => (Chunker.afeBoard2PLMap config.id.toNat).toList.flatMap fun afe =>
      (.output (.gain afe), config.attenuators) :: if config.v_bias ≠ 0 then [(.output (.bias afe), config.v_bias)] else []

/-- The request that reads a setting is answered with a value. -/
def Answers (s : ServerState) (v : UInt32) : Setting → Prop
  | .channel kind ch => ∀ n : UInt32, n.toNat = ch → readSingleChannel kind n s = .ok v s
  | .output (.gain afe) => ∀ afeBlock : UInt32, Chunker.afeBoard2PLMap afeBlock.toNat = some afe → readAFEVgain afeBlock s = .ok v s
  | .output (.bias afe) => ∀ afeBlock : UInt32, Chunker.afeBoard2PLMap afeBlock.toNat = some afe → readAFEBiasSet afeBlock s = .ok v s
  | .output .hv => readVbiasControl s = .ok v s

/-- The DAC of a setting has been given a value, and holds it if it is an output. -/
def Driven (levels : Levels) (writes : List (Write Nat UInt32)) (v : UInt32) : Setting → Prop
  | .channel kind ch => ch < 40 ∧ (encoded kind ch writes).getD 0 = v
  | .output o => o.Written writes ∧ o.level (levels.after writes) = some v

structure Held (levels : Levels) (s : ServerState) (v : UInt32) (x : Setting) : Prop where
  answers : Answers s v x
  driven : Driven levels s.writes v x

/-- Every setting that a configuration has values for holds the last one, and every other setting what it held. -/
structure Configured (levels : Levels) (cfg : ConfigureRequest) (s t : ServerState) : Prop where
  in_range : ∀ entry ∈ entries cfg, entry.offends = false
  set : ∀ x v, lastOf ((entries cfg).flatMap assignments) x = some v → Held levels t v x
  others : ∀ x, lastOf ((entries cfg).flatMap assignments) x = none → ∀ v, Held levels s v x → Held levels t v x

variable {b : Board} {s t u : ServerState} {levels : Levels} {cfg : ConfigureRequest} {l l' : List (Setting × UInt32)}

theorem foldl_assign (l : List (Setting × UInt32)) (values : Values) (x : Setting) : l.foldl assign values x = (lastOf l x).or (values x) := by
  induction l using List.reverseRecOn with
  | nil => rfl
  | append_singleton l a ih =>
    rw [List.foldl_append, List.foldl_cons, List.foldl_nil, assign, lastOf_append, lastOf_singleton]
    by_cases h : a.1 = x
    · rw [if_pos h, h, Function.update_self, Option.some_or, Option.some_or]
    · rw [if_neg h, Function.update_of_ne (Ne.symm h), ih, Option.none_or]

/-! ### One entry after the other -/

structure Assigned (l : List (Setting × UInt32)) (s t : ServerState) : Prop where
  values : kept t = l.foldl assign (kept s)
  fits : ∀ o v, (.output o, v) ∈ l → v ≤ 4095
  written : ∀ o v, (.output o, v) ∈ l → o.Written t.writes
  channels : ∀ kind ch v, (.channel kind ch, v) ∈ l → ch < 40
  log : s.writes <+: t.writes

theorem written_mono {o : Output} {writes writes' : List (Write Nat UInt32)} (h : o.Written writes) (hlog : writes <+: writes') :
    o.Written writes' := by
  obtain ⟨p, hp, w, hw, hword⟩ := h
  exact ⟨p, hp, w, hlog.subset hw, hword⟩

theorem Assigned.append (h : Assigned l s t) (h' : Assigned l' t u) : Assigned (l ++ l') s u := by
  refine ⟨by rw [h'.values, h.values, List.foldl_append], fun o v hmem => ?_, fun o v hmem => ?_, fun kind ch v hmem => ?_,
    h.log.trans h'.log⟩
  · exact (List.mem_append.mp hmem).elim (h.fits o v) (h'.fits o v)
  · rcases List.mem_append.mp hmem with hmem | hmem
    · exact written_mono (h.written o v hmem) h'.log
    · exact h'.written o v hmem
  · rcases List.mem_append.mp hmem with hmem | hmem
    · exact h.channels kind ch v hmem
    · exact h'.channels kind ch v hmem

def course : Course (Setting × UInt32) Nat UInt32 Daphne where
  Rel := Assigned
  nil _ := ⟨rfl, nofun, nofun, nofun, List.prefix_rfl⟩
  append := Assigned.append

/-- The exception of a wait for a DAC that stays busy. -/
def IsTimeout (e : String) : Prop := e = Spi.timeout ∨ e = Dac.timeout

/-- The program assigns a list; if it does not, it refuses something or a DAC stays busy. -/
abbrev Assigns {α : Type} (refuses : Prop) (m : Prog Nat UInt32 Daphne α) (l : List (Setting × UInt32)) (s : ServerState) : Prop :=
  Follows course IsTimeout refuses m l s

variable {refuses : Prop}

/-- The values of the settings. -/
def view (d : Daphne) (x : Setting) : Option UInt32 := d.state x.key

theorem Assigned.of_apart {mine : Nat → Prop} (h : Apart mine view s t) : Assigned [] s t := by
  obtain ⟨ws, hws, -⟩ := h.writes
  exact ⟨h.view_eq, nofun, nofun, nofun, ws, hws.symm⟩

theorem assigns_of_apart {α : Type} {m : Prog Nat UInt32 Daphne α} {mine : Nat → Prop} (h : Does (.apart mine view) m) (s : ServerState) :
    Assigns True m [] s :=
  ⟨wp_mono (h.run s) (fun _ _ ht => .of_apart ht) fun _ _ ht => Or.inr ⟨trivial, [], List.nil_prefix, .of_apart ht⟩⟩

theorem kept_update {x : Setting} {value : UInt32} (h : t.driver.state = Function.update s.driver.state x.key (some value)) :
    kept t = [(x, value)].foldl assign (kept s) := by
  funext y
  show t.driver.state y.key = Function.update (kept s) x (some value) y
  rw [h]
  by_cases hy : y = x
  · rw [hy, Function.update_self, Function.update_self]
  · rw [Function.update_of_ne hy, Function.update_of_ne fun hkey => hy (Rejection.key_inj hkey)]
    rfl

theorem assigns_setChannel (kind : Kind) {ch afe : Nat} (hch : ch < 40) (hmap : Chunker.afeBoard2PLMap (ch / 8) = some afe)
    (value : UInt32) (gain : Bool) (s : ServerState) :
    Assigns refuses (setChannel b kind afe (ch % 8) ch value gain) [(.channel kind ch, value)] s := by
  refine ⟨wp_mono (TrimOffset.wp_setChannel kind hch hmap value gain s) (fun _ t ht => ?_) fun _ _ he => Or.inl (Or.inl he)⟩
  obtain ⟨w, hwrites, -⟩ := ht.word
  refine ⟨kept_update ht.state, fun o v hmem => ?_, fun o v hmem => ?_, fun kind' ch' v hmem => ?_, [w], hwrites.symm⟩
  · cases List.mem_singleton.mp hmem
  · cases List.mem_singleton.mp hmem
  · cases List.mem_singleton.mp hmem
    exact hch

/-- An output is written, and its value is kept afterwards. -/
theorem wp_assign {o : Output} {p : Chip × Nat} (ho : o.place = some p) {value : UInt32} (hvalue : value ≤ 4095) (s : ServerState) :
    wp (setDacGeneral b.env o.entry.1 o.entry.2.1 o.entry.2.2.1 o.entry.2.2.2 value)
      (fun _ t => Assigned [(.output o, value)] s (t.withDriver { t.driver with state := Function.update t.driver.state o.key (some value) }))
      (fun e _ => IsTimeout e) s := by
  obtain ⟨hentry, hp⟩ := entry_eq ho
  rw [hentry]
  refine wp_mono (wp_setDacGeneral hp hvalue s) (fun _ t ht => ?_) fun _ _ he => Or.inr he.1
  obtain ⟨ws, go, clear, hwrites, hne, hws, -⟩ := ht.writes
  refine ⟨kept_update (x := .output o) ?_, fun o' v hmem => ?_, fun o' v hmem => ?_, fun kind ch v hmem => ?_, ?_⟩
  · show Function.update t.driver.state o.key (some value) = _
    rw [ht.driver]
    rfl
  · cases List.mem_singleton.mp hmem
    exact hvalue
  · cases List.mem_singleton.mp hmem
    obtain ⟨w, hw⟩ := List.exists_mem_of_ne_nil ws hne
    refine ⟨p, ho, w, ?_, hws w hw⟩
    show w ∈ t.writes
    rw [hwrites]
    simp [hw]
  · cases List.mem_singleton.mp hmem
  · show s.writes <+: t.writes
    rw [hwrites, List.append_assoc, List.append_assoc]
    exact List.prefix_append _ _

theorem assigns_setGain {afe : Nat} (hafe : afe < 5) {value : UInt32} (hvalue : value ≤ 4095) (s : ServerState) :
    Assigns refuses (setGain b afe value) [(.output (.gain afe), value)] s := by
  obtain ⟨p, hp⟩ := (exists_place hafe).1
  refine ⟨wp_bind.mpr (wp_bind.mpr (wp_mono (wp_assign hp hvalue s) (fun _ t ht => ?_) fun _ _ he => Or.inl he))⟩
  rw [wp_pure, Daphne.setAfeAttenuationDictValue, Daphne.checkAfe, if_neg (by omega)]
  exact ht

theorem assigns_setBias {afe : Nat} (hafe : afe < 5) {value : UInt32} (hvalue : value ≤ 4095) (s : ServerState) :
    Assigns refuses (setBias b afe value) [(.output (.bias afe), value)] s := by
  obtain ⟨p, hp⟩ := (exists_place hafe).2
  refine ⟨wp_bind.mpr (wp_bind.mpr (wp_mono (wp_assign hp hvalue s) (fun _ t ht => ?_) fun _ _ he => Or.inl he))⟩
  rw [wp_pure, Daphne.setBiasVoltageDictValue, Daphne.checkAfe, if_neg (by omega)]
  exact ht

theorem assigns_setBiasControl {value : UInt32} (hvalue : value ≤ 4095) (enable : Bool) (s : ServerState) :
    Assigns refuses (setBiasControl b value enable) [(.output .hv, value)] s := by
  have hdac : wp (Dac.setDacHvBias b.env value false false) _ _ s := wp_assign (show Output.hv.place = some (.U5, 2) from rfl) hvalue s
  refine ⟨wp_bind.mpr (wp_mono hdac (fun _ t ht => ?_) fun _ _ he => Or.inl he)⟩
  refine wp_bind.mpr (wp_mono (Reg.wp_writeBits_mapped b.faults_none biasEnable _ t) (fun _ u hu => ?_) fun _ _ h => h.elim)
  obtain ⟨old, reads, -, -, hwrites⟩ := hu.write
  show Assigned _ s (u.withDriver { u.driver with state := Function.update u.driver.state .biasControl (some value) })
  rw [hu.driver]
  have hlog : t.writes <+: u.writes := ⟨_, hwrites.symm⟩
  exact ⟨ht.values, ht.fits, fun o v hmem => written_mono (ht.written o v hmem) hlog, ht.channels, ht.log.trans hlog⟩

/-- Neither the AFE registers nor the controls are settings. -/
theorem avoidsAfes : AvoidsAfes (fun _ => False) view where
  words _ _ := not_false
  regs d afe reg value := funext fun x => Function.update_of_ne (by
    match x with
    | .channel .trim _ | .channel .offset _ | .output (.gain _) | .output (.bias _) | .output .hv => exact nofun) _ _

theorem avoidsControls : AvoidsControls b fun _ => False where
  power _ := not_false
  triggers _ _ := not_false

theorem assigns_configureLevels {afe : Nat} (hafe : afe < 5) (config : AFEConfig) (s : ServerState) :
    Assigns True (configureLevels b afe config) ([(.output (.gain afe), config.attenuators)] ++
      if config.v_bias ≠ 0 then [(.output (.bias afe), config.v_bias)] else []) s := by
  unfold configureLevels
  split
  · exact follows_throw ..
  next hgain =>
  refine (assigns_setGain hafe (UInt32.not_lt.mp hgain) s).bind fun _ t => ?_
  split
  · exact follows_throw ..
  next hbias =>
  by_cases hzero : config.v_bias ≠ 0
  · rw [if_pos hzero, if_pos hzero]
    exact assigns_setBias hafe (UInt32.not_lt.mp hbias) t
  · rw [if_neg hzero, if_neg hzero]
    exact follows_pure () t

/-- An entry assigns what it has values for, or the first of that if it is refused. -/
theorem assigns_prog {entry : Entry} (hcode : ∀ code, entry = .control (some code) → code ≤ 4095) (s : ServerState) :
    Assigns True (entry.prog b) (assignments entry) s := by
  cases entry with
  | channel config =>
    show Assigns True (configureChannel b config) _ s
    unfold configureChannel
    split
    · exact follows_throw ..
    next hid =>
    have hch : config.id.toNat < 40 := Nat.lt_succ_of_le (UInt32.le_iff_toNat_le.mp (UInt32.not_lt.mp hid))
    refine afePL_cases (fun m => Assigns True m _ s) (fun afe hafe hmap => ?_) (follows_throw ..)
    exact (assigns_setChannel .trim hch hmap config.trim false s).bind fun _ t =>
      assigns_setChannel .offset hch hmap config.offset false t
  | control code =>
    cases code with
    | none => exact follows_pure () s
    | some code => exact (assigns_setBiasControl (hcode code rfl) true s).bind fun _ t => follows_pure () t
  | afe config =>
    show Assigns True (configureAFE b config) _ s
    refine afePL_cases (fun m => Assigns True m _ s) (fun afe hafe hmap => ?_) (follows_throw ..)
    have hassignments : assignments (.afe config) = ([(.output (.gain afe), config.attenuators)] ++
        if config.v_bias ≠ 0 then [(.output (.bias afe), config.v_bias)] else []) ++ [] := by
      rw [assignments, hmap]
      rfl
    rw [hassignments]
    exact (assigns_configureLevels hafe config s).bind fun _ t => assigns_of_apart (avoidsAfes.applySettings hafe _) t

theorem assigns_configureDaphne (cfg : ConfigureRequest) (s : ServerState) :
    Assigns True (configureDaphne b cfg) ((entries cfg).flatMap assignments) s := by
  rw [configureDaphne_eq, ← List.append_nil (List.flatMap _ _)]
  refine (assigns_of_apart avoidsControls.configureReset s).bind fun _ s1 => ?_
  refine (assigns_of_apart (avoidsControls.writeTriggerThresholds cfg) s1).bind fun _ s2 => ?_
  refine (assigns_of_apart (avoidsControls.writeSelfTriggerControls cfg) s2).bind fun _ s3 => ?_
  refine (follows_forM (fun entry hentry => assigns_prog fun code hcode =>
    code_le (show Entry.control (some code) ∈ entries cfg from hcode ▸ hentry)) s3).bind fun _ s4 => ?_
  exact (assigns_of_apart avoidsControls.configurePower s4).bind fun _ t => follows_pure _ t

/-! ### What is held -/

section Coherent
variable {x : Setting} {v : UInt32} (htrim : TrimOffset.Coherent s) (hgain : GainBias.Coherent levels s)
include htrim hgain

theorem held_of_value (hvalue : s.driver.stateValue x.key = v) (hchannel : ∀ kind ch, x = .channel kind ch → ch < 40)
    (hwritten : ∀ o, x = .output o → o.Written s.writes) : Held levels s v x := by
  subst hvalue
  match x with
  | .channel kind ch =>
    have hch := hchannel kind ch rfl
    refine ⟨fun n hn => ?_, hch, htrim.encoded_eq hch⟩
    subst hn
    exact getChDictValue_ok hch s
  | .output o =>
    refine ⟨?_, hwritten o rfl, hgain.kept o (hwritten o rfl)⟩
    cases o with
    | gain afe => exact fun afeBlock hmap => readAfeState_eq hmap .afeAttenuation s
    | bias afe => exact fun afeBlock hmap => readAfeState_eq hmap .biasVoltage s
    | hv => exact rfl

theorem value_of_driven (h : Driven levels s.writes v x) : s.driver.stateValue x.key = v := by
  match x with
  | .channel kind ch => exact (htrim.encoded_eq h.1).symm.trans h.2
  | .output o => exact Option.some.inj ((hgain.kept o h.1).symm.trans h.2)

end Coherent

/-- A setting holds the last value that it has been assigned; another one holds what it held. -/
theorem Assigned.held (h : Assigned l s t) (htrim : TrimOffset.Coherent s) (hgain : GainBias.Coherent levels s)
    (htrim' : TrimOffset.Coherent t) (hgain' : GainBias.Coherent levels t) {x : Setting} {v : UInt32}
    (hx : lastOf l x = some v ∨ lastOf l x = none ∧ Held levels s v x) : Held levels t v x := by
  have hkept : t.driver.state x.key = (lastOf l x).or (s.driver.state x.key) := (congrFun h.values x).trans (foldl_assign _ _ x)
  rcases hx with hx | ⟨hx, hheld⟩
  · have hmem := mem_of_lastOf hx
    refine held_of_value htrim' hgain' (by rw [Daphne.stateValue, hkept, hx]; rfl) (fun kind ch heq => ?_) fun o heq => ?_
    · subst heq
      exact h.channels kind ch v hmem
    · subst heq
      exact h.written o v hmem
  · have hvalue := value_of_driven htrim hgain hheld.driven
    refine held_of_value htrim' hgain' (by rw [Daphne.stateValue, hkept, hx]; exact hvalue) (fun kind ch heq => ?_) fun o heq => ?_
    · subst heq
      exact hheld.driven.1
    · subst heq
      exact written_mono hheld.driven.1 h.log

theorem in_range_of_ok {ok : Bool} (h : configureDaphne b cfg s = .ok ok t) : ∀ entry ∈ entries cfg, entry.offends = false := by
  intro entry hentry
  by_contra hoffends
  obtain ⟨e, u, hrun⟩ := not_returns (b := b) ⟨entry, hentry, Bool.eq_true_of_not_eq_false hoffends⟩ s
  rw [h] at hrun
  cases hrun

/-- In a run in which no DAC stays busy, a configuration in range that is accepted sets what it has values for, and no more. -/
theorem configured_of_ok (levels : Levels) {cfg : ConfigureRequest} {ok : Bool}
    (hs : Reached b (fun r s => r.ConfiguresInRange ∧ ¬r.Throws b Spi.timeout s ∧ ¬r.Throws b Dac.timeout s) s)
    (hfit : ∀ config ∈ cfg.channels, config.trim ≤ 4095 ∧ config.offset ≤ 4095) (h : configureDaphne b cfg s = .ok ok t) :
    Configured levels cfg s t := by
  have htrim : TrimOffset.Coherent s := hs.invariant TrimOffset.Coherent.start fun _ _ hs hr => hs.step hr.1 hr.2.1
  have hgain : GainBias.Coherent levels s := hs.invariant (GainBias.Coherent.start levels) fun _ _ hs hr => hs.step hr.2.2
  have hthrows (text : String) : ¬(Request.configure cfg).Throws b text s := by
    rintro ⟨u, hu⟩
    rw [show (Request.configure cfg).prog b s = .ok ⟨ok, []⟩ t from bind_ok h] at hu
    cases hu
  have hstep := BiasControl.step_of_ok h
  have htrim' : TrimOffset.Coherent t := hstep ▸ htrim.step (r := .configure cfg) (Or.inl hfit) (hthrows _)
  have hgain' : GainBias.Coherent levels t := hstep ▸ hgain.step (hthrows _)
  have hrun := assigns_configureDaphne (b := b) cfg s
  have hassigned := wp_ok hrun.run h
  exact ⟨in_range_of_ok h, fun _ _ hx => hassigned.held htrim hgain htrim' hgain' (Or.inl hx),
    fun _ hx _ hheld => hassigned.held htrim hgain htrim' hgain' (Or.inr ⟨hx, hheld⟩)⟩

end Configuration
end DaphneZmq
