import DaphneZmq.Lib.Runs
import DaphneZmq.Theorems.AllChannels
import DaphneZmq.Theorems.Configuration

/-! The server as a map from the settings to values. As long as no DAC stays busy, the requests that set and read settings are answered
as the map answers them, and the DACs hold what is in it. -/

namespace DaphneZmq
open Lib Lib.Device Lib.Overwrite
namespace Store
open Dac hiding Setting
open GainBias hiding outputs
open Handlers Rejection DaphneZmq.Configuration
open TrimOffset (channelKey getChDictValue_ok)

/-! ### The map -/

/-- What a request is for: to work off the entries of a configuration, to give settings a value, to read them, or something else. -/
inductive Meaning where
  | configure (entries : List Entry)
  | set (settings : List Setting) (value : UInt32)
  | get (settings : List Setting)
  | other

/-- What is answered, if anything, and what is assigned. A configuration that is refused may have assigned a first part of its
    values. -/
inductive Makes (read : Setting → UInt32) : Meaning → Option Response → List (Setting × UInt32) → Prop
  | set {settings : List Setting} {value : UInt32} (hsettings : settings ≠ []) (hvalue : value ≤ 4095) :
      Makes read (.set settings value) (some ⟨true, [value]⟩) (settings.map fun x => (x, value))
  | setRefused {settings : List Setting} {value : UInt32} (h : settings = [] ∨ 4095 < value) : Makes read (.set settings value) none []
  | get {settings : List Setting} (hsettings : settings ≠ []) : Makes read (.get settings) (some ⟨true, settings.map read⟩) []
  | getRefused : Makes read (.get []) none []
  | configure {entries : List Entry} (ok : Bool) (h : ∀ entry ∈ entries, entry.offends = false) :
      Makes read (.configure entries) (some ⟨ok, []⟩) (entries.flatMap assignments)
  | configureRefused {entries : List Entry} {made : List (Setting × UInt32)} (h : made <+: entries.flatMap assignments) :
      Makes read (.configure entries) none made
  | other (response : Option Response) : Makes read .other response []

/-- A setting that has no value reads as 0. -/
def lookup (values : Values) (x : Setting) : UInt32 := (values x).getD 0

def single (kind : Kind) (ch : UInt32) : List Setting := if ch ≤ 39 then [.channel kind ch.toNat] else []

def all (kind : Kind) : List Setting := (List.range 40).map (.channel kind)

def ofAFE (kind : Kind) (afeBlock : UInt32) : List Setting :=
  if afeBlock ≤ 4 then (List.range 8).map fun idx => .channel kind (afeBlock.toNat * 8 + idx) else []

def outputs (output : Nat → Output) (afeBlock : UInt32) : List Setting :=
  (Chunker.afeBoard2PLMap afeBlock.toNat).toList.map fun afe => .output (output afe)

end Store

namespace Request
open Store

def meaning : Request → Meaning
  | configure cfg => .configure (Rejection.entries cfg)
  | writeAFEReg .. | writeAFEFunction .. | readAFEReg .. => .other
  | writeAFEVgain afe value | writeAFEAttenuation afe value => .set (outputs .gain afe) value
  | writeAFEBiasSet afe value => .set (outputs .bias afe) value
  | writeTrimSingleChannel ch value _ => .set (single .trim ch) value
  | writeTrimAllChannels value _ => .set (all .trim) value
  | writeTrimAllAFE afe value _ => .set (ofAFE .trim afe) value
  | writeOffsetSingleChannel ch value _ => .set (single .offset ch) value
  | writeOffsetAllChannels value _ => .set (all .offset) value
  | writeOffsetAllAFE afe value _ => .set (ofAFE .offset afe) value
  | writeVbiasControl value _ => .set [.output .hv] value
  | readAFEVgain afe => .get (outputs .gain afe)
  | readAFEBiasSet afe => .get (outputs .bias afe)
  | readAllChannels kind => .get (all kind)
  | readAllAFE kind afe => .get (ofAFE kind afe)
  | readSingleChannel kind ch => .get (single kind ch)
  | readVbiasControl => .get [.output .hv]

/-- What a client gets, unless it is the text of a failure. -/
def response (b : Board) (r : Request) (s : ServerState) : Option Response :=
  match r.prog b s with
  | .ok response _ => some response
  | .error .. => none

end Request

namespace Store
open Dac hiding Setting
open GainBias hiding outputs
open Handlers Rejection DaphneZmq.Configuration
open TrimOffset (channelKey getChDictValue_ok)

/-- A request at the map. -/
def Step (values : Values) (l : Request × Option Response) (values' : Values) : Prop :=
  ∃ made, Makes (lookup values) l.1.meaning l.2 made ∧ values' = made.foldl assign values

/-- A request at the server, which does not wait for a DAC in vain. -/
structure Serves (b : Board) (s : ServerState) (l : Request × Option Response) (t : ServerState) : Prop where
  inRange : l.1.ConfiguresInRange
  noTimeout : ¬l.1.Throws b Spi.timeout s ∧ ¬l.1.Throws b Dac.timeout s
  response : l.2 = l.1.response b s
  step : t = l.1.step b s

variable {b : Board} {s t : ServerState} {levels : Levels} {values : Values} {settings : List Setting} {value : UInt32} {α : Type}

/-! ### Handlers that give settings a value -/

/-- The program gives the settings the value; it refuses, and does nothing, if there is no setting or the value is out of range. -/
structure SetsTo (m : Prog Nat UInt32 Daphne α) (reply : α → UInt32) (settings : List Setting) (value : UInt32) (s : ServerState) :
    Prop where
  accepted : settings ≠ [] → value ≤ 4095 →
    wp m (fun a t => reply a = value ∧ Assigned (settings.map fun x => (x, value)) s t) (fun e _ => IsTimeout e) s
  refused : settings = [] ∨ 4095 < value → ∃ e, m s = .error e s

/-- What the handler of a request comes to at the map. -/
abbrev MakesAt (m : Prog Nat UInt32 Daphne Response) (meaning : Meaning) (s : ServerState) : Prop :=
  wp m (fun response t => ∃ made, Makes (lookup (kept s)) meaning (some response) made ∧ Assigned made s t)
    (fun e t => IsTimeout e ∨ ∃ made, Makes (lookup (kept s)) meaning none made ∧ Assigned made s t) s

theorem wp_of_error {m : Prog Nat UInt32 Daphne α} {e : String} {Q : α → ServerState → Prop} {X : String → ServerState → Prop}
    (h : m s = .error e t) (hX : X e t) : wp m Q X s := by
  rw [wp, h]
  exact hX

theorem wp_of_ok {m : Prog Nat UInt32 Daphne α} {a : α} {Q : α → ServerState → Prop} {X : String → ServerState → Prop}
    (h : m s = .ok a t) (hQ : Q a t) : wp m Q X s := by
  rw [wp, h]
  exact hQ

theorem SetsTo.makes {m : Prog Nat UInt32 Daphne α} {reply : α → UInt32} (h : SetsTo m reply settings value s) {f : α → Response}
    (hf : ∀ a, f a = ⟨true, [reply a]⟩) : MakesAt (m >>= fun a => pure (f a)) (.set settings value) s := by
  by_cases hrefused : settings = [] ∨ 4095 < value
  · obtain ⟨e, he⟩ := h.refused hrefused
    exact wp_of_error (bind_error he) (Or.inr ⟨[], .setRefused hrefused, course.nil s⟩)
  · obtain ⟨hsettings, hvalue⟩ := not_or.mp hrefused
    have hle := UInt32.not_lt.mp hvalue
    refine wp_bind.mpr (wp_mono (h.accepted hsettings hle) (fun a t ht => ?_) fun _ _ he => Or.inl he)
    rw [wp_pure, hf, ht.1]
    exact ⟨_, .set hsettings hle, ht.2⟩

theorem wp_assigns {m : Prog Nat UInt32 Daphne α} {l : List (Setting × UInt32)} (h : Assigns False m l s) :
    wp m (fun _ t => Assigned l s t) (fun e _ => IsTimeout e) s :=
  wp_mono h.run (fun _ _ ht => ht) fun _ _ he => he.resolve_right fun hfalse => hfalse.1

/-- The value that has been assigned is the one that is kept. -/
theorem stateValue_of_assigned {x : Setting} (h : Assigned [(x, value)] s t) : t.driver.stateValue x.key = value := by
  have hx : t.driver.state x.key = some value := (congrFun h.values x).trans (Function.update_self ..)
  rw [Daphne.stateValue, hx]
  rfl

theorem afePL_bind {board afe : Nat} (hmap : Chunker.afeBoard2PLMap board = some afe) (f : Nat → Prog Nat UInt32 Daphne α) :
    afePL board >>= f = f afe := by
  rw [afePL, hmap]
  rfl

theorem setsTo_writeChannel (kind : Kind) (valueText channelText : String) (ch value : UInt32) (gain : Bool) (s : ServerState) :
    SetsTo (writeChannel b kind valueText channelText ch value gain) id (single kind ch) value s where
  accepted hsettings hvalue := by
    have hch : ch ≤ 39 := by
      by_contra hch
      exact hsettings (if_neg hch)
    have hlt : ch.toNat < 40 := Nat.lt_succ_of_le (UInt32.le_iff_toNat_le.mp hch)
    obtain ⟨afe, hmap⟩ := AllChannels.exists_afe (show ch.toNat / 8 < 5 by omega)
    rw [writeChannel, if_neg (UInt32.not_lt.mpr hvalue), if_neg (UInt32.not_lt.mpr hch), afePL_bind hmap, single, if_pos hch]
    refine wp_bind.mpr (wp_mono (wp_assigns (assigns_setChannel kind hlt hmap value gain s)) (fun _ t ht => ?_) fun _ _ he => he)
    exact wp_of_ok (getChDictValue_ok hlt t) ⟨stateValue_of_assigned ht, ht⟩
  refused h := by
    by_cases hvalue : value > 4095
    · exact ⟨valueText, by rw [writeChannel, if_pos hvalue]; rfl⟩
    · have hch : ch > 39 := by
        by_contra hch
        refine absurd (h.resolve_right hvalue) ?_
        rw [single, if_pos (UInt32.not_lt.mp hch)]
        exact List.cons_ne_nil _ _
      exact ⟨channelText, by rw [writeChannel, if_neg hvalue, if_pos hch]; rfl⟩

theorem setsTo_writeAllChannels (kind : Kind) (valueText : String) (value : UInt32) (gain : Bool) (s : ServerState) :
    SetsTo (writeAllChannels b kind valueText value gain) (fun _ => value) (all kind) value s where
  accepted _ hvalue := by
    rw [writeAllChannels, if_neg (UInt32.not_lt.mpr hvalue), all, List.map_map, List.map_eq_flatMap]
    refine wp_mono (wp_assigns (follows_forM (fun ch hch s => ?_) s)) (fun _ t ht => ⟨rfl, ht⟩) fun _ _ he => he
    have hlt := List.mem_range.mp hch
    obtain ⟨afe, hmap⟩ := AllChannels.exists_afe (show ch / 8 < 5 by omega)
    rw [afePL_bind hmap]
    exact assigns_setChannel kind hlt hmap value gain s
  refused h := ⟨valueText, by rw [writeAllChannels, if_pos (h.resolve_left (by cases kind <;> decide))]; rfl⟩

theorem setsTo_writeAllAFE (kind : Kind) (valueText : String) (afeBlock value : UInt32) (gain : Bool) (s : ServerState) :
    SetsTo (writeAllAFE b kind valueText afeBlock value gain) (fun _ => value) (ofAFE kind afeBlock) value s where
  accepted hsettings hvalue := by
    have hafe : afeBlock ≤ 4 := by
      by_contra hafe
      exact hsettings (if_neg hafe)
    have hle : afeBlock.toNat ≤ 4 := UInt32.le_iff_toNat_le.mp hafe
    obtain ⟨afe, hmap⟩ := AllChannels.exists_afe (Nat.lt_succ_of_le hle)
    rw [writeAllAFE, if_neg (UInt32.not_lt.mpr hvalue), if_neg (UInt32.not_lt.mpr hafe), afePL_bind hmap, ofAFE, if_pos hafe,
      List.map_map, List.map_eq_flatMap]
    refine wp_mono (wp_assigns (follows_forM (fun idx hidx s => ?_) s)) (fun _ t ht => ⟨rfl, ht⟩) fun _ _ he => he
    have hlt := List.mem_range.mp hidx
    have hdiv : (afeBlock.toNat * 8 + idx) / 8 = afeBlock.toNat := by omega
    have hmod : (afeBlock.toNat * 8 + idx) % 8 = idx := by omega
    have hset : Assigns False (setChannel b kind afe ((afeBlock.toNat * 8 + idx) % 8) (afeBlock.toNat * 8 + idx) value gain) _ s :=
      assigns_setChannel kind (by omega) (by rw [hdiv]; exact hmap) value gain s
    rwa [hmod] at hset
  refused h := by
    by_cases hvalue : value > 4095
    · exact ⟨valueText, by rw [writeAllAFE, if_pos hvalue]; rfl⟩
    · have hafe : afeBlock > 4 := by
        by_contra hafe
        refine absurd (h.resolve_right hvalue) ?_
        rw [ofAFE, if_pos (UInt32.not_lt.mp hafe)]
        exact List.cons_ne_nil _ _
      exact ⟨"afeBlock out of range (0..4)", by rw [writeAllAFE, if_neg hvalue, if_pos hafe]; rfl⟩

/-- The handlers of the gains and of the biases. -/
theorem setsTo_output {output : Nat → Output} {key : Nat → StateKey} (hkey : ∀ afe, (output afe).key = key afe)
    {set : Nat → UInt32 → Prog Nat UInt32 Daphne Unit}
    (hset : ∀ afe < 5, ∀ value ≤ 4095, ∀ s, Assigns False (set afe value) [(.output (output afe), value)] s) (text : String)
    (afeBlock value : UInt32) (s : ServerState) : SetsTo (afePL afeBlock.toNat >>= fun afe =>
      if value > 4095 then throw text else set afe value >>= fun _ => Daphne.checkAfe afe (Daphne.getState (key afe)))
      id (outputs output afeBlock) value s where
  accepted hsettings hvalue := by
    rcases hmap : Chunker.afeBoard2PLMap afeBlock.toNat with - | afe
    · exact absurd (by rw [outputs, hmap]; rfl) hsettings
    have hafe := afeBoard2PLMap_lt hmap
    have hsettings' : outputs output afeBlock = [.output (output afe)] := by
      rw [outputs, hmap]
      rfl
    rw [afePL_bind hmap, if_neg (UInt32.not_lt.mpr hvalue), hsettings']
    refine wp_bind.mpr (wp_mono (wp_assigns (hset afe hafe value hvalue s)) (fun _ t ht => ?_) fun _ _ he => he)
    rw [Daphne.checkAfe, if_neg (by omega), ← hkey]
    exact ⟨stateValue_of_assigned ht, ht⟩
  refused h := by
    rcases hmap : Chunker.afeBoard2PLMap afeBlock.toNat with - | afe
    · exact ⟨"unordered_map::at", by rw [afePL, hmap]; rfl⟩
    · have hvalue : value > 4095 := by
        refine h.resolve_left ?_
        rw [outputs, hmap]
        exact List.cons_ne_nil _ _
      exact ⟨text, by rw [afePL_bind hmap, if_pos hvalue]; rfl⟩

theorem setsTo_writeGain (text : String) (afeBlock value : UInt32) (s : ServerState) :
    SetsTo (writeGain b text afeBlock value) id (outputs .gain afeBlock) value s :=
  setsTo_output (fun _ => rfl) (fun _ hafe _ hvalue => assigns_setGain hafe hvalue) text afeBlock value s

theorem setsTo_writeAFEBiasVoltage (afeBlock value : UInt32) (s : ServerState) :
    SetsTo (writeAFEBiasVoltage b afeBlock value) id (outputs .bias afeBlock) value s :=
  setsTo_output (fun _ => rfl) (fun _ hafe _ hvalue => assigns_setBias hafe hvalue) _ afeBlock value s

/-! The HV control is answered with what is read back. -/

theorem wp_writeBits_answer {f : BitField} (hcell : b.env.driven f.addr = none) (data : UInt32) (s : ServerState) :
    wp (Reg.writeBits b.env f data) (fun v _ => v = data &&& f.mask) (fun _ _ => False) s := by
  have hprog : Reg.writeBits b.env f data = (read b.env f.addr >>= fun value => write b.env f.addr (f.insert value data) >>= fun _ =>
      Reg.readRegister b.env f.addr >>= fun _ => Reg.readBits b.env f : Prog Nat UInt32 Daphne UInt32) := by
    simp only [Reg.writeBits, Reg.writeRegister, bind_assoc]
  rw [hprog]
  refine wp_bind.mpr (wp_mono (wp_read_mapped b.faults_none f.addr s) (fun old t ht => ?_) fun _ _ h => h)
  refine wp_bind.mpr (wp_write.mpr ?_)
  rw [b.faults_none]
  refine wp_bind.mpr (wp_mono (wp_read_mapped b.faults_none f.addr _) (fun _ u hu => ?_) fun _ _ h => h)
  refine wp_bind.mpr (wp_mono (wp_read_mapped b.faults_none f.addr u) (fun w v hw => ?_) fun _ _ h => h)
  rw [wp_pure, hw.2 hcell, hu.1.cells, State.afterWrite_cells, Function.update_self, BitField.extract_insert]

theorem wp_setDacHvBias_answer {value : UInt32} (hvalue : value ≤ 4095) (s : ServerState) :
    wp (setDacHvBias b.env value false false : Prog Nat UInt32 Daphne UInt32) (fun v _ => v = value) (fun _ _ => True) s := by
  have hlt : value.toNat < 2 ^ 12 := Nat.lt_succ_of_le (UInt32.le_iff_toNat_le.mp hvalue)
  have hfields (t : ServerState) : wp (setFields b.env (some .U5) 2 false false value : Prog Nat UInt32 Daphne UInt32)
      (fun v _ => v = value) (fun _ _ => True) t := by
    refine wp_bind.mpr (wp_mono wp_true (fun _ t1 _ => ?_) fun _ _ h => h)
    refine wp_bind.mpr (wp_mono wp_true (fun _ t2 _ => ?_) fun _ _ h => h)
    refine wp_bind.mpr (wp_mono wp_true (fun _ t3 _ => ?_) fun _ _ h => h)
    refine wp_mono (wp_writeBits_answer (driven_chip .U5) value t3) (fun v _ hv => ?_) fun _ _ h => h.elim
    exact hv.trans (BitField.and_mask_of_lt hlt)
  refine wp_bind.mpr (wp_mono wp_true (fun _ t1 _ => ?_) fun _ _ h => h)
  refine wp_bind.mpr (wp_mono (hfields t1) (fun v t2 hv => ?_) fun _ _ h => h)
  refine wp_bind.mpr (wp_mono wp_true (fun _ t3 _ => ?_) fun _ _ h => h)
  exact wp_bind.mpr (wp_mono wp_true (fun _ t4 _ => hv) fun _ _ h => h)

theorem setsTo_writeBiasVoltageControl (value : UInt32) (enable : Bool) (s : ServerState) :
    SetsTo (writeBiasVoltageControl b value enable) id [.output .hv] value s where
  accepted _ hvalue := by
    rw [writeBiasVoltageControl, if_neg (UInt32.not_lt.mpr hvalue)]
    have hanswer : wp (setBiasControl b value enable) (fun v _ => v = value) (fun _ _ => True) s := by
      refine wp_bind.mpr (wp_mono (wp_setDacHvBias_answer hvalue s) (fun v t hv => ?_) fun _ _ h => h)
      refine wp_bind.mpr (wp_mono wp_true (fun _ u _ => ?_) fun _ _ h => h)
      exact hv
    exact wp_mono (wp_and hanswer (wp_assigns (assigns_setBiasControl hvalue enable s))) (fun _ _ ht => ht) fun _ _ he => he.2
  refused h := ⟨_, by rw [writeBiasVoltageControl, if_pos (h.resolve_left (List.cons_ne_nil _ _))]; rfl⟩

/-! ### Handlers that read settings -/

/-- The program answers with the values of the settings, or throws if there is none. -/
structure Gets (m : Prog Nat UInt32 Daphne α) (reply : α → List UInt32) (settings : List Setting) (s : ServerState) : Prop where
  accepted : settings ≠ [] → ∃ a, m s = .ok a s ∧ reply a = settings.map (lookup (kept s))
  refused : settings = [] → ∃ e, m s = .error e s

theorem Gets.makes {m : Prog Nat UInt32 Daphne α} {reply : α → List UInt32} (h : Gets m reply settings s) {f : α → Response}
    (hf : ∀ a, f a = ⟨true, reply a⟩) : MakesAt (m >>= fun a => pure (f a)) (.get settings) s := by
  by_cases hsettings : settings = []
  · obtain ⟨e, he⟩ := h.refused hsettings
    subst hsettings
    exact wp_of_error (bind_error he) (Or.inr ⟨[], .getRefused, course.nil s⟩)
  · obtain ⟨a, ha, hreply⟩ := h.accepted hsettings
    have hresponse : f a = ⟨true, settings.map (lookup (kept s))⟩ := by rw [hf, hreply]
    exact wp_of_ok (bind_ok ha) ⟨[], hresponse ▸ .get hsettings, course.nil s⟩

theorem gets_output {output : Nat → Output} (key : Nat → StateKey) (hkey : ∀ afe, (output afe).key = key afe) (afeBlock : UInt32)
    (s : ServerState) : Gets (afePL afeBlock.toNat >>= fun afe => Daphne.checkAfe afe (Daphne.getState (key afe))) (fun v => [v])
      (outputs output afeBlock) s := by
  rcases hmap : Chunker.afeBoard2PLMap afeBlock.toNat with - | afe
  · refine ⟨fun hsettings => absurd (by rw [outputs, hmap]; rfl) hsettings, fun _ => ⟨"unordered_map::at", ?_⟩⟩
    rw [afePL, hmap]
    rfl
  · have hsettings : outputs output afeBlock = [.output (output afe)] := by
      rw [outputs, hmap]
      rfl
    refine ⟨fun _ => ⟨_, readAfeState_eq hmap key s, ?_⟩, fun hnil => absurd (hsettings.symm.trans hnil) (List.cons_ne_nil _ _)⟩
    rw [hsettings, ← hkey]
    rfl

theorem gets_readSingleChannel (kind : Kind) (ch : UInt32) (s : ServerState) :
    Gets (readSingleChannel kind ch) (fun v => [v]) (single kind ch) s := by
  by_cases hch : ch ≤ 39
  · have hlt : ch.toNat < 40 := Nat.lt_succ_of_le (UInt32.le_iff_toNat_le.mp hch)
    rw [single, if_pos hch]
    exact ⟨fun _ => ⟨_, getChDictValue_ok hlt s, rfl⟩, fun hnil => absurd hnil (List.cons_ne_nil _ _)⟩
  · have hgt : ch.toNat > 39 := UInt32.lt_iff_toNat_lt.mp (UInt32.not_le.mp hch)
    rw [single, if_neg hch]
    refine ⟨fun hnil => absurd rfl hnil, fun _ => ⟨"Channel index " ++ toString ch.toNat ++ " out of range. Expected range 0-39.", ?_⟩⟩
    cases kind <;> exact congrFun (if_pos hgt) s

theorem gets_readAllChannels (kind : Kind) (s : ServerState) : Gets (readAllChannels kind) id (all kind) s where
  accepted _ := by
    refine ⟨_, mapM_ok fun ch hch => getChDictValue_ok (List.mem_range.mp hch) s, ?_⟩
    rw [all, List.map_map]
    rfl
  refused hnil := by cases kind <;> exact absurd hnil (by decide)

theorem gets_readAllAFE (kind : Kind) (afeBlock : UInt32) (s : ServerState) : Gets (readAllAFE kind afeBlock) id (ofAFE kind afeBlock) s := by
  by_cases hafe : afeBlock ≤ 4
  · have hle : afeBlock.toNat ≤ 4 := UInt32.le_iff_toNat_le.mp hafe
    have hget (idx : Nat) (hidx : idx ∈ List.range 8) : getChDictValue kind (afeBlock.toNat * 8 + idx) s =
        .ok (s.driver.stateValue (channelKey kind (afeBlock.toNat * 8 + idx))) s := by
      have hlt := List.mem_range.mp hidx
      exact getChDictValue_ok (by omega) s
    rw [readAllAFE, if_neg (UInt32.not_lt.mpr hafe), ofAFE, if_pos hafe]
    refine ⟨fun _ => ⟨_, mapM_ok hget, ?_⟩, fun hnil => absurd hnil (List.cons_ne_nil _ _)⟩
    rw [List.map_map]
    rfl
  · rw [ofAFE, if_neg hafe]
    refine ⟨fun hnil => absurd rfl hnil, fun _ => ⟨"AFE out of range (0..4)", ?_⟩⟩
    rw [readAllAFE, if_pos (UInt32.not_le.mp hafe)]
    rfl

theorem gets_readVbiasControl (s : ServerState) : Gets readVbiasControl (fun v => [v]) [.output .hv] s :=
  ⟨fun _ => ⟨_, rfl, rfl⟩, fun hnil => absurd hnil (List.cons_ne_nil _ _)⟩

/-! ### Requests -/

theorem makes_other {m : Prog Nat UInt32 Daphne α} (h : Does (.apart (fun _ => False) Configuration.view) m) (f : α → Response) (s : ServerState) :
    MakesAt (m >>= fun a => pure (f a)) .other s :=
  wp_bind.mpr (wp_mono (h.run s) (fun _ _ ht => ⟨[], .other _, .of_apart ht⟩) fun _ _ ht => Or.inr ⟨[], .other _, .of_apart ht⟩)

theorem makes_configure (cfg : ConfigureRequest) (s : ServerState) :
    MakesAt (configureDaphne b cfg >>= fun ok => pure ⟨ok, []⟩) (.configure (entries cfg)) s := by
  have hrun := (assigns_configureDaphne (b := b) cfg s).run
  rcases h : configureDaphne b cfg s with ⟨ok, t⟩ | ⟨e, t⟩
  · have hassigned := wp_ok hrun h
    exact wp_of_ok (bind_ok h) ⟨_, .configure ok (in_range_of_ok h), hassigned⟩
  · refine wp_of_error (bind_error h) ?_
    have herror := wp_error hrun h
    rcases herror with htimeout | ⟨-, made, hmade, hassigned⟩
    · exact Or.inl htimeout
    · exact Or.inr ⟨made, .configureRefused hmade, hassigned⟩

/-- A handler does at the server what the map does. -/
theorem makes_prog (r : Request) (s : ServerState) : MakesAt (r.prog b) r.meaning s := by
  cases r with
  | configure cfg => exact makes_configure cfg s
  | writeAFEReg afe reg value => exact makes_other (avoidsAfes.writeAFERegister afe reg value) _ s
  | writeAFEFunction afe function value => exact makes_other (avoidsAfes.writeAFEFunction afe function value) _ s
  | readAFEReg afe reg => exact makes_other (does_afePL_bind fun afe _ => does_checkAfe (does_getDriver.bind fun _ => does_pure _) afe) _ s
  | writeAFEVgain afe value | writeAFEAttenuation afe value => exact (setsTo_writeGain _ afe value s).makes fun _ => rfl
  | writeAFEBiasSet afe value => exact (setsTo_writeAFEBiasVoltage afe value s).makes fun _ => rfl
  | writeTrimSingleChannel ch value gain | writeOffsetSingleChannel ch value gain =>
    exact (setsTo_writeChannel _ _ _ ch value gain s).makes fun _ => rfl
  | writeTrimAllChannels value gain | writeOffsetAllChannels value gain =>
    exact (setsTo_writeAllChannels _ _ value gain s).makes fun _ => rfl
  | writeTrimAllAFE afe value gain | writeOffsetAllAFE afe value gain =>
    exact (setsTo_writeAllAFE _ _ afe value gain s).makes fun _ => rfl
  | writeVbiasControl value enable => exact (setsTo_writeBiasVoltageControl value enable s).makes fun _ => rfl
  | readAFEVgain afe => exact (gets_output .afeAttenuation (fun _ => rfl) afe s).makes fun _ => rfl
  | readAFEBiasSet afe => exact (gets_output .biasVoltage (fun _ => rfl) afe s).makes fun _ => rfl
  | readAllChannels kind => exact (gets_readAllChannels kind s).makes fun _ => rfl
  | readAllAFE kind afe => exact (gets_readAllAFE kind afe s).makes fun _ => rfl
  | readSingleChannel kind ch => exact (gets_readSingleChannel kind ch s).makes fun _ => rfl
  | readVbiasControl => exact (gets_readVbiasControl s).makes fun _ => rfl

variable {l : Request × Option Response}

theorem Serves.makes (h : Serves b s l t) : ∃ made, Makes (lookup (kept s)) l.1.meaning l.2 made ∧ Assigned made s t := by
  have hprog := makes_prog (b := b) l.1 s
  rw [h.response, h.step, Request.response, Request.step, Request.handle, rethrow]
  rcases hrun : l.1.prog b s with ⟨response, u⟩ | ⟨e, u⟩
  · exact wp_ok hprog hrun
  · have herror := wp_error hprog hrun
    rcases herror with (rfl | rfl) | hmakes
    · exact absurd ⟨u, hrun⟩ h.noTimeout.1
    · exact absurd ⟨u, hrun⟩ h.noTimeout.2
    · exact hmakes

/-! ### Runs -/

/-- The map has what the server answers, and what the DACs hold. -/
structure Stores (levels : Levels) (s : ServerState) (values : Values) : Prop where
  trim : TrimOffset.Coherent s
  gain : GainBias.Coherent levels s
  lookup : ∀ x, lookup (kept s) x = lookup values x
  fits : ∀ o v, values (.output o) = some v → v ≤ 4095
  held : ∀ x v, values x = some v → Held levels s v x

theorem Stores.start (levels : Levels) (cells : Nat → UInt32) (reads : Nat → Nat) (accesses : Nat) :
    Stores levels (.start cells reads accesses) fun _ => none where
  trim := .start cells reads accesses
  gain := .start levels cells reads accesses
  lookup x := by
    match x with
    | .channel .trim _ | .channel .offset _ | .output (.gain _) | .output (.bias _) | .output .hv => exact rfl
  fits _ _ := nofun
  held _ _ := nofun

theorem Stores.step (h : Stores levels s values) (hserves : Serves b s l t) : ∃ values', Step values l values' ∧ Stores levels t values' := by
  obtain ⟨made, hmakes, hassigned⟩ := hserves.makes
  rw [funext h.lookup] at hmakes
  have htrim : TrimOffset.Coherent t := hserves.step ▸ h.trim.step hserves.inRange hserves.noTimeout.1
  have hgain : GainBias.Coherent levels t := hserves.step ▸ h.gain.step hserves.noTimeout.2
  refine ⟨made.foldl assign values, ⟨made, hmakes, rfl⟩, htrim, hgain, fun x => ?_, fun o v hv => ?_, fun x v hv => ?_⟩
  · have hx := h.lookup x
    unfold Store.lookup at hx ⊢
    rw [hassigned.values, foldl_assign, foldl_assign]
    rcases lastOf made x with - | v
    · exact hx
    · rfl
  · rw [foldl_assign, Option.or_eq_some_iff] at hv
    exact hv.elim (fun hlast => hassigned.fits o v (mem_of_lastOf hlast)) fun hkept => h.fits o v hkept.2
  · rw [foldl_assign, Option.or_eq_some_iff] at hv
    exact hassigned.held h.trim h.gain htrim hgain (hv.imp_right fun hkept => ⟨hkept.1, h.held x v hkept.2⟩)

theorem exists_stores (levels : Levels)
    (hs : Reached b (fun r s => r.ConfiguresInRange ∧ ¬r.Throws b Spi.timeout s ∧ ¬r.Throws b Dac.timeout s) s) : ∃ values, Stores levels s values := by
  refine hs.invariant (P := fun s => ∃ values, Stores levels s values) (fun cells reads accesses => ⟨_, .start levels cells reads accesses⟩) ?_
  rintro s r ⟨values, h⟩ hr
  have hserves : Serves b s (r, r.response b s) (r.step b s) := ⟨hr.1, hr.2, rfl, rfl⟩
  obtain ⟨values', -, h'⟩ := h.step hserves
  exact ⟨values', h'⟩

theorem Stores.control_le (h : Stores levels s values) : Store.lookup (kept s) (.output .hv) ≤ 4095 := by
  rw [h.lookup, Store.lookup]
  rcases hv : values (.output .hv) with - | v
  · decide
  · exact h.fits .hv v hv

theorem Stores.channel_le (h : Stores levels s values) {kind : Kind} {ch : Nat} (hch : ch < 40) :
    Store.lookup (kept s) (.channel kind ch) ≤ 4095 := by
  obtain ⟨afe, hmap⟩ := AllChannels.exists_afe (show ch / 8 < 5 by omega)
  have hkept : Store.lookup (kept s) (.channel kind ch) = _ := h.trim.kept kind ch afe hch hmap
  rw [hkept]
  exact UInt32.and_le_right

theorem lookup_of_assigned {made : List (Setting × UInt32)} (h : Assigned made s t) (x : Setting) :
    lookup (kept t) x = (lastOf made x).getD (lookup (kept s) x) := by
  rw [lookup, h.values, foldl_assign]
  cases lastOf made x <;> rfl

/-- The requests of a run are answered as a map would answer them, and in the end the DACs and the reads have what is in it. -/
theorem store_refines (levels : Levels) (cells : Nat → UInt32) (reads : Nat → Nat) (accesses : Nat) (history : List (Request × Option Response))
    (h : Run (Serves b) (.start cells reads accesses) history t) :
    ∃ values, Run Step (fun _ => none) history values ∧ ∀ x v, values x = some v → Held levels t v x := by
  have keep {s t : ServerState} {l : Request × Option Response} {values : Values} (hs : Stores levels s values) (hl : Serves b s l t) :
      ∃ values', Step values l values' ∧ Stores levels t values' := hs.step hl
  obtain ⟨values, hrun, hstores⟩ := Run.exists_run keep h (Stores.start levels cells reads accesses)
  exact ⟨values, hrun, hstores.held⟩

theorem serves_of_response {r : Request} {response : Response} (hrange : r.ConfiguresInRange) (h : r.response b s = some response) :
    Serves b s (r, some response) (r.step b s) := by
  have hanswers : r.answers b s = true := by
    rw [Request.response] at h
    rw [Request.answers]
    rcases hprog : r.prog b s with ⟨response', t⟩ | ⟨e, t⟩
    · rfl
    · rw [hprog] at h
      cases h
  exact ⟨hrange, ⟨Request.not_throws hanswers _, Request.not_throws hanswers _⟩, h.symm, rfl⟩

/-- A trim and a gain, and reads of both. -/
def shortHistory : List (Request × Option Response) :=
  [(.writeTrimSingleChannel 9 100 true, some ⟨true, [100]⟩), (.writeAFEVgain 1 2000, some ⟨true, [2000]⟩),
    (.readAllAFE .trim 1, some ⟨true, [0, 100, 0, 0, 0, 0, 0, 0]⟩), (.readAFEVgain 1, some ⟨true, [2000]⟩)]

theorem store_refines_short : ∃ t, Run (Serves .idle) ServerState.fresh shortHistory t ∧
    ∃ values, Run Step (fun _ => none) shortHistory values ∧ ∀ x v, values x = some v → Held (fun _ _ => 0) t v x := by
  have hrun : ∃ t, Run (Serves .idle) ServerState.fresh shortHistory t :=
    ⟨_, .cons (serves_of_response trivial (by decide +kernel)) (.cons (serves_of_response trivial (by decide +kernel))
      (.cons (serves_of_response trivial (by decide +kernel)) (.cons (serves_of_response trivial (by decide +kernel)) (.nil _))))⟩
  obtain ⟨t, ht⟩ := hrun
  exact ⟨t, ht, store_refines _ _ _ _ _ ht⟩

end Store
end DaphneZmq
