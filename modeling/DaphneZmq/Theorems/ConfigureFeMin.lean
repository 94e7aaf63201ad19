import DaphneZmq.ConfigureFeMin
import DaphneZmq.Theorems.MergeLedIntensityRuns
import DaphneZmq.Theorems.Received
import DaphneZmq.Theorems.Store

/-! What the exit code of the client says of the board. The client writes the biases that it has been given once more, so that they are
set even if the server has refused the configuration, and so are those of zero. -/

namespace DaphneZmq.ConfigureFeMin
open Lib Lib.Device Lib.Overlay Lib.Overwrite
open MergeLedIntensityRuns (Dict sortedItems lookup_insert mem_sortedItems)
open Dac hiding Setting
open GainBias hiding outputs
open Handlers Rejection DaphneZmq.Configuration Store

/-- The biases that the arguments name are set. -/
def BiasesSet (levels : Levels) (args : Args) (t : ServerState) : Prop :=
  ∀ board afe, Chunker.afeBoard2PLMap board = some afe → ∀ v, lastOf (args.afe_bias_dac ++ args.afe_bias_volts) (board : Int) = some v →
    ∃ w : UInt32, (w.toNat : Int) = v ∧ Held levels t w (.output (.bias afe))

/-- The rest of the board is as the arguments say, and the biases that they do not name are as before. -/
structure BoardSet (levels : Levels) (args : Args) (s t : ServerState) : Prop where
  trims : ∀ ch : Nat, ch < 40 → ∃ w : UInt32, (w.toNat : Int) = (lastOf args.ch_trim (ch : Int)).getD 0 ∧ Held levels t w (.channel .trim ch)
  offsets : ∀ ch : Nat, ch < 40 → Held levels t args.ch_offset (.channel .offset ch)
  gains : ∀ board afe, Chunker.afeBoard2PLMap board = some afe → Held levels t args.vgain (.output (.gain afe))
  control : ∃ w : UInt32, (w.toNat : Int) = args.biasctrl_volts.getD args.biasctrl_dac ∧ Held levels t w (.output .hv)
  others : ∀ board afe, Chunker.afeBoard2PLMap board = some afe → lastOf (args.afe_bias_dac ++ args.afe_bias_volts) (board : Int) = none →
    ∀ w, Held levels s w (.output (.bias afe)) → Held levels t w (.output (.bias afe))

/-! ### Overrides -/

/-- The last override of a number counts, and all of them are in range. -/
structure Overrides (max : Int) (items : List (Int × Int)) (overrides : Dict Int) : Prop where
  numbers : ∀ item ∈ items, 0 ≤ item.1 ∧ item.1 ≤ max
  codes : ∀ item ∈ items, 0 ≤ item.2 ∧ item.2 ≤ 4095
  lookup : ∀ n, overrides.lookup n = lastOf items n

variable {items items' : List (Int × Int)} {overrides overrides' : Dict Int} {max : Int}

theorem checkNumber_ok {label what : String} (h : items.mapM (checkNumber label what max) = .ok items') :
    items' = items ∧ ∀ item ∈ items, 0 ≤ item.1 ∧ item.1 ≤ max := by
  induction items generalizing items' with
  | nil =>
    cases h
    exact ⟨rfl, fun _ hmem => absurd hmem List.not_mem_nil⟩
  | cons item items ih =>
    rw [List.mapM_cons] at h
    obtain ⟨item', hitem, h⟩ := bind_eq_ok.mp h
    obtain ⟨rest, hrest, h⟩ := bind_eq_ok.mp h
    cases h
    obtain ⟨rfl, hfit⟩ := ih hrest
    rw [checkNumber] at hitem
    split at hitem
    · cases hitem
    next hrange =>
    cases hitem
    obtain ⟨hmin, hmax⟩ := not_or.mp hrange
    exact ⟨rfl, List.forall_mem_cons.mpr ⟨⟨Int.not_lt.mp hmin, Int.not_lt.mp hmax⟩, hfit⟩⟩

theorem validateDacRange_ok {name : String} {value value' : Int} (h : validateDacRange name value = .ok value') :
    value' = value ∧ 0 ≤ value ∧ value ≤ 4095 := by
  rw [validateDacRange] at h
  split at h
  · cases h
  next hrange =>
  cases h
  obtain ⟨hmin, hmax⟩ := not_or.mp hrange
  exact ⟨rfl, Int.not_lt.mp hmin, Int.not_lt.mp hmax⟩

theorem addOverride_ok {name : Int → String} {item : Int × Int} (h : addOverride name overrides item = .ok overrides') :
    overrides' = overrides.insert item.1 item.2 ∧ 0 ≤ item.2 ∧ item.2 ≤ 4095 := by
  obtain ⟨value, hvalue, h⟩ := bind_eq_ok.mp h
  cases h
  obtain ⟨rfl, hfits⟩ := validateDacRange_ok hvalue
  exact ⟨rfl, hfits⟩

theorem addOverrides_ok {name : Int → String} (h : items.foldlM (addOverride name) overrides = .ok overrides') :
    (∀ n, overrides'.lookup n = (lastOf items n).or (overrides.lookup n)) ∧ ∀ item ∈ items, 0 ≤ item.2 ∧ item.2 ≤ 4095 := by
  induction items generalizing overrides with
  | nil =>
    cases h
    exact ⟨fun _ => rfl, fun _ hmem => absurd hmem List.not_mem_nil⟩
  | cons item items ih =>
    rw [List.foldlM_cons] at h
    obtain ⟨overrides₁, hadd, h⟩ := bind_eq_ok.mp h
    obtain ⟨rfl, hfit⟩ := addOverride_ok hadd
    obtain ⟨hlookup, hfits⟩ := ih h
    refine ⟨fun n => ?_, List.forall_mem_cons.mpr ⟨hfit, hfits⟩⟩
    rw [hlookup, lookup_insert, ← List.singleton_append, lastOf_append, lastOf_singleton, Option.or_assoc]
    split
    · rfl
    · rfl

theorem lookup_empty (n : Int) : (∅ : Dict Int).lookup n = none := AList.lookup_empty n

theorem afeBiasOverrides_ok {args : Args} (h : afeBiasOverrides args = .ok overrides) :
    Overrides 4 (args.afe_bias_dac ++ args.afe_bias_volts) overrides := by
  obtain ⟨dac, hdac, h⟩ := bind_eq_ok.mp h
  obtain ⟨rfl, hnumbers⟩ := checkNumber_ok hdac
  obtain ⟨overrides₁, hadd, h⟩ := bind_eq_ok.mp h
  obtain ⟨hlookup, hcodes⟩ := addOverrides_ok hadd
  obtain ⟨volts, hvolts, h⟩ := bind_eq_ok.mp h
  obtain ⟨rfl, hnumbers'⟩ := checkNumber_ok hvolts
  obtain ⟨hlookup', hcodes'⟩ := addOverrides_ok h
  refine ⟨List.forall_mem_append.mpr ⟨hnumbers, hnumbers'⟩, List.forall_mem_append.mpr ⟨hcodes, hcodes'⟩, fun n => ?_⟩
  rw [hlookup', hlookup, lookup_empty, Option.or_none, lastOf_append]

theorem channelTrimOverrides_ok {args : Args} (h : channelTrimOverrides args = .ok overrides) : Overrides 39 args.ch_trim overrides := by
  obtain ⟨trims, htrims, h⟩ := bind_eq_ok.mp h
  obtain ⟨rfl, hnumbers⟩ := checkNumber_ok htrims
  obtain ⟨hlookup, hcodes⟩ := addOverrides_ok h
  refine ⟨hnumbers, hcodes, fun n => ?_⟩
  rw [hlookup, lookup_empty, Option.or_none]

/-- What the client makes of arguments that it accepts. -/
structure Prepared (args : Args) (plan : Plan) : Prop where
  control : 0 ≤ args.biasctrl_volts.getD args.biasctrl_dac ∧ args.biasctrl_volts.getD args.biasctrl_dac ≤ 4095
  biases : Overrides 4 (args.afe_bias_dac ++ args.afe_bias_volts) plan.afe_bias_overrides
  cfg : ∃ trims, Overrides 39 args.ch_trim trims ∧
    plan.cfg = configOf args (args.biasctrl_volts.getD args.biasctrl_dac) trims plan.afe_bias_overrides

theorem prepared_of_ok {args : Args} {plan : Plan} (h : prepare args = .ok plan) : Prepared args plan := by
  obtain ⟨control, hcontrol, h⟩ := bind_eq_ok.mp h
  obtain ⟨rfl, hfits⟩ := validateDacRange_ok hcontrol
  obtain ⟨biases, hbiases, h⟩ := bind_eq_ok.mp h
  obtain ⟨trims, htrims, h⟩ := bind_eq_ok.mp h
  cases h
  exact ⟨hfits, afeBiasOverrides_ok hbiases, trims, channelTrimOverrides_ok htrims, rfl⟩

/-! ### The configuration -/

section Config
open PdsConfigureUtils (channelId afeId default_channel default_afe toNat_toUInt32)
variable {args : Args} {control : Int} {trims biases : Dict Int}

theorem channel_configOf {n : Nat} (hn : n < 40) : (configOf args control trims biases).channel? n =
    some (overrideChannel trims (PdsConfigureUtils.defaultChannel (defaults args control) n)) := by
  have hdefault : entry channelId n (PdsConfigureUtils.makeDefaultConfig (defaults args control)).channels = _ := default_channel hn
  exact (entry_map (f := overrideChannel trims) fun _ => rfl).trans (congrArg _ hdefault)

theorem afe_configOf {n : Nat} (hn : n < 5) : (configOf args control trims biases).afe? n =
    some (overrideAfe args biases (PdsConfigureUtils.defaultAfe (defaults args control) n)) := by
  have hdefault : entry afeId n (PdsConfigureUtils.makeDefaultConfig (defaults args control)).afes = _ := default_afe hn
  exact (entry_map (f := overrideAfe args biases) fun _ => rfl).trans (congrArg _ hdefault)

theorem nodup_channels : ((configOf args control trims biases).channels.map (·.id)).Nodup := by
  rw [configOf, List.map_map]
  exact PdsConfigureUtils.nodup_default_channels _

theorem nodup_afes : ((configOf args control trims biases).afes.map (·.id)).Nodup := by
  rw [configOf, List.map_map]
  exact PdsConfigureUtils.nodup_default_afes _

theorem toNat_code {v : Int} (hv : 0 ≤ v ∧ v ≤ 4095) : ((code v).toNat : Int) = v := by
  have hsmall : (UInt32.ofNat v.toNat).toNat = v.toNat := toNat_toUInt32 (by omega)
  rw [code, hsmall]
  omega

theorem code_le {v : Int} (hv : 0 ≤ v ∧ v ≤ 4095) : code v ≤ 4095 := by
  have hnat := toNat_code hv
  refine UInt32.le_iff_toNat_le.mpr ?_
  show (code v).toNat ≤ 4095
  omega

end Config

/-! ### The session -/

/-- How a request goes over the link to a server: it is not sent, it or its reply is lost, the reply comes too late, or in time. -/
inductive Fate where
  | unsent
  | lost
  | late
  | answered

def link (b : Board) (fate : Request → ServerState → Fate) (r : Request) : StateM ServerState Reply := fun s =>
  match fate r s with
  | .unsent => (.sendTimeout, s)
  | .lost => (.recvTimeout, s)
  | .late => (.recvTimeout, r.step b s)
  | .answered => (.response (r.response b s), r.step b s)

def writes (plan : Plan) : List Request :=
  (sortedItems plan.afe_bias_overrides).map fun item => .writeAFEBiasSet (code item.1) (code item.2)

def stepAll (b : Board) (requests : List Request) (s : ServerState) : ServerState := requests.foldl (fun s r => r.step b s) s

/-- None of the requests waits for a DAC in vain. -/
def Timely (b : Board) : List Request → ServerState → Prop
  | [], _ => True
  | r :: requests, s => (¬r.Throws b Spi.timeout s ∧ ¬r.Throws b Dac.timeout s) ∧ Timely b requests (r.step b s)

variable {b : Board} {fate : Request → ServerState → Fate} {s t : ServerState}

theorem link_cases (b : Board) (fate : Request → ServerState → Fate) (r : Request) (s : ServerState) :
    (∃ u, (link b fate r).run s = (.sendTimeout, u)) ∨ (∃ u, (link b fate r).run s = (.recvTimeout, u)) ∨
      (link b fate r).run s = (.response (r.response b s), r.step b s) := by
  have hrun : (link b fate r).run s = link b fate r s := rfl
  rw [hrun, link]
  cases fate r s with
  | unsent => exact Or.inl ⟨_, rfl⟩
  | lost | late => exact Or.inr (Or.inl ⟨_, rfl⟩)
  | answered => exact Or.inr (Or.inr rfl)

/-- The loop of the bias writes ends only with all of them answered, or with an exit code. -/
theorem writeBiases_run (b : Board) (fate : Request → ServerState → Fate) (items : List (Int × Int)) (s : ServerState) :
    (∃ exit u, (writeBiases (link b fate) items).run s = (some exit, u) ∧ 1 < exit) ∨
      (writeBiases (link b fate) items).run s = (none, stepAll b (items.map fun item => .writeAFEBiasSet (code item.1) (code item.2)) s) := by
  induction items generalizing s with
  | nil => exact Or.inr rfl
  | cons item items ih =>
    rw [writeBiases, StateT.run_bind]
    rcases link_cases b fate (.writeAFEBiasSet (code item.1) (code item.2)) s with ⟨u, hu⟩ | ⟨u, hu⟩ | hu
    · rw [hu]
      exact Or.inl ⟨9, u, rfl, by decide⟩
    · rw [hu]
      exact Or.inl ⟨10, u, rfl, by decide⟩
    · rw [hu]
      exact ih _

theorem send_run {plan : Plan} {exit : Nat} (h : (send (link b fate) plan).run s = (exit, t)) (hexit : exit ≤ 1) :
    t = stepAll b (writes plan) ((Request.configure plan.cfg.received).step b s) ∧
      (exit = 0 → ∃ response, (Request.configure plan.cfg.received).response b s = some response) := by
  rw [send, StateT.run_bind] at h
  rcases link_cases b fate (.configure plan.cfg.received) s with ⟨u, hu⟩ | ⟨u, hu⟩ | hu
  · rw [hu] at h
    cases h
    omega
  · rw [hu] at h
    cases h
    omega
  · rw [hu] at h
    change (writeBiases (link b fate) (sortedItems plan.afe_bias_overrides) >>= _).run ((Request.configure plan.cfg.received).step b s) = _ at h
    rw [StateT.run_bind] at h
    rcases writeBiases_run b fate (sortedItems plan.afe_bias_overrides) ((Request.configure plan.cfg.received).step b s) with
      ⟨code, u, hu, hcode⟩ | hu
    · rw [hu] at h
      cases h
      omega
    · rw [hu] at h
      cases h
      refine ⟨rfl, fun hzero => ?_⟩
      rcases hresponse : (Request.configure plan.cfg.received).response b s with - | response
      · rw [hresponse] at hzero
        cases hzero
      · exact ⟨response, rfl⟩

/-! ### The server -/

section Server
variable {read : Setting → UInt32} {settings : List Setting} {value : UInt32} {made : List (Setting × UInt32)} {entries : List Entry}

theorem made_of_set {response : Option Response} (h : Makes read (.set settings value) response made) (hsettings : settings ≠ [])
    (hvalue : value ≤ 4095) : made = settings.map fun x => (x, value) := by
  cases h with
  | set => rfl
  | setRefused h => exact absurd h (not_or.mpr ⟨hsettings, UInt32.not_lt.mpr hvalue⟩)

theorem made_of_configure {response : Response} (h : Makes read (.configure entries) (some response) made) :
    made = entries.flatMap assignments := by
  cases h
  rfl

end Server

def assignBias (item : Int × Int) : List (Setting × UInt32) := (outputs .bias (code item.1)).map fun x => (x, code item.2)

theorem serves {r : Request} (hrange : r.ConfiguresInRange) (htimely : ¬r.Throws b Spi.timeout s ∧ ¬r.Throws b Dac.timeout s) :
    Serves b s (r, r.response b s) (r.step b s) :=
  ⟨hrange, htimely, rfl, rfl⟩

theorem reached_stepAll {requests : List Request}
    (hs : Reached b (fun r s => r.ConfiguresInRange ∧ ¬r.Throws b Spi.timeout s ∧ ¬r.Throws b Dac.timeout s) s)
    (hrange : ∀ r ∈ requests, r.ConfiguresInRange) (htimely : Timely b requests s) :
    Reached b (fun r s => r.ConfiguresInRange ∧ ¬r.Throws b Spi.timeout s ∧ ¬r.Throws b Dac.timeout s) (stepAll b requests s) := by
  induction requests generalizing s with
  | nil => exact hs
  | cons r requests ih =>
    exact ih (.step hs ⟨hrange r List.mem_cons_self, htimely.1⟩) (fun r' hr => hrange r' (List.mem_cons_of_mem r hr)) htimely.2

theorem outputs_code {n : Int} (hn : 0 ≤ n ∧ n ≤ 4) : outputs .bias (code n) ≠ [] := by
  have hnat := toNat_code (v := n) (by omega)
  obtain ⟨afe, hmap⟩ := AllChannels.exists_afe (show (code n).toNat < 5 by omega)
  rw [outputs, hmap]
  exact List.cons_ne_nil _ _

theorem assigned_writes {items : List (Int × Int)} (hnumbers : ∀ item ∈ items, 0 ≤ item.1 ∧ item.1 ≤ 4)
    (hcodes : ∀ item ∈ items, 0 ≤ item.2 ∧ item.2 ≤ 4095)
    (htimely : Timely b (items.map fun item => .writeAFEBiasSet (code item.1) (code item.2)) s) :
    Assigned (items.flatMap assignBias) s (stepAll b (items.map fun item => .writeAFEBiasSet (code item.1) (code item.2)) s) := by
  induction items generalizing s with
  | nil => exact course.nil s
  | cons item items ih =>
    obtain ⟨made, hmakes, hassigned⟩ := (serves (r := .writeAFEBiasSet (code item.1) (code item.2)) trivial htimely.1).makes
    have hmade := made_of_set hmakes (outputs_code (hnumbers item List.mem_cons_self)) (code_le (hcodes item List.mem_cons_self))
    subst hmade
    rw [List.flatMap_cons]
    exact hassigned.append (ih (fun x hx => hnumbers x (List.mem_cons_of_mem item hx)) (fun x hx => hcodes x (List.mem_cons_of_mem item hx))
      htimely.2)

/-! ### What is set -/

section Set
variable {args : Args} {biases trims : Dict Int} {control : Int} {x : Setting} {w : UInt32} {board afe : Nat}

theorem mem_assignBias : (x, w) ∈ (sortedItems biases).flatMap assignBias ↔ ∃ n v, biases.lookup n = some v ∧
    ∃ afe, Chunker.afeBoard2PLMap (code n).toNat = some afe ∧ x = .output (.bias afe) ∧ w = code v := by
  simp only [List.mem_flatMap, Prod.exists, mem_sortedItems, assignBias, outputs, List.mem_map, Option.mem_toList, Prod.mk.injEq]
  refine exists_congr fun n => exists_congr fun v => and_congr_right fun _ => ?_
  constructor
  · rintro ⟨-, ⟨afe, hmap, rfl⟩, rfl, rfl⟩
    exact ⟨afe, hmap, rfl, rfl⟩
  · rintro ⟨afe, hmap, rfl, rfl⟩
    exact ⟨_, ⟨afe, hmap, rfl⟩, rfl, rfl⟩

/-- The writes set the biases that are named, and no other setting. -/
theorem lastOf_writes (hbiases : Overrides 4 items biases) (hmap : Chunker.afeBoard2PLMap board = some afe) :
    lastOf ((sortedItems biases).flatMap assignBias) (.output (.bias afe)) = (lastOf items board).map code := by
  have hnumber {n v : Int} (hn : biases.lookup n = some v) : ((code n).toNat : Int) = n := by
    rw [hbiases.lookup] at hn
    have hrange := hbiases.numbers _ (mem_of_lastOf hn)
    exact toNat_code ⟨hrange.1, by omega⟩
  have hwhen (u : UInt32) (hu : (.output (.bias afe), u) ∈ (sortedItems biases).flatMap assignBias) :
      ∃ v, lastOf items board = some v ∧ u = code v := by
    obtain ⟨n, v, hn, afe', hmap', heq, rfl⟩ := mem_assignBias.mp hu
    cases heq
    have hsame : (code n).toNat = board := TrimOffset.afeBoard2PLMap_inj hmap' hmap
    have hboard : n = board := (hnumber hn).symm.trans (congrArg Int.ofNat hsame)
    exact ⟨v, hboard ▸ hbiases.lookup n ▸ hn, rfl⟩
  rcases hlast : lastOf items board with - | v
  · refine lastOf_none fun u hu => ?_
    obtain ⟨v, hv, -⟩ := hwhen u hu
    rw [hlast] at hv
    cases hv
  · have hn : biases.lookup (board : Int) = some v := (hbiases.lookup board).trans hlast
    have hboard : (code board).toNat = board := Int.ofNat_inj.mp (hnumber hn)
    refine lastOf_unique (mem_assignBias.mpr ⟨board, v, hn, afe, hboard.symm ▸ hmap, rfl, rfl⟩) fun u hu => ?_
    obtain ⟨v', hv', rfl⟩ := hwhen u hu
    rw [hlast] at hv'
    cases hv'
    rfl

theorem lastOf_writes_none (hx : ∀ afe, x ≠ .output (.bias afe)) : lastOf ((sortedItems biases).flatMap assignBias) x = none := by
  refine lastOf_none fun u hu => ?_
  obtain ⟨-, -, -, afe, -, rfl, -⟩ := mem_assignBias.mp hu
  exact hx afe rfl

/-- The value of an override, as a field. -/
def given (items : List (Int × Int)) (n : Int) : UInt32 := ((lastOf items n).map code).getD 0

theorem toNat_given {n : Int} (hcodes : ∀ item ∈ items, 0 ≤ item.2 ∧ item.2 ≤ 4095) :
    ((given items n).toNat : Int) = (lastOf items n).getD 0 := by
  rw [given]
  rcases hlast : lastOf items n with - | v
  · rfl
  · exact toNat_code (hcodes _ (mem_of_lastOf hlast))

theorem given_le {n : Int} (hcodes : ∀ item ∈ items, 0 ≤ item.2 ∧ item.2 ≤ 4095) : given items n ≤ 4095 := by
  rw [given]
  rcases hlast : lastOf items n with - | v
  · exact (by decide : (0 : UInt32) ≤ 4095)
  · exact code_le (hcodes _ (mem_of_lastOf hlast))

variable (htrims : Overrides 39 args.ch_trim trims) (hbiases : Overrides 4 (args.afe_bias_dac ++ args.afe_bias_volts) biases)

include htrims in
theorem trim_overrideChannel (ch : PdsConfigureUtils.ChannelConfig) (hch : ch.trim = 0) :
    (overrideChannel trims ch).trim = given args.ch_trim (PdsConfigureUtils.channelId ch) := by
  rw [overrideChannel, given, ← htrims.lookup]
  rcases trims.lookup (PdsConfigureUtils.channelId ch) with - | v
  · exact hch
  · rfl

include htrims in
theorem channels_fit (hoffset : args.ch_offset ≤ 4095) :
    ∀ config ∈ (configOf args control trims biases).received.channels, config.trim ≤ 4095 ∧ config.offset ≤ 4095 := by
  intro config hconfig
  obtain ⟨ch, hch, rfl⟩ := List.mem_map.mp hconfig
  obtain ⟨d, hd, rfl⟩ := List.mem_map.mp hch
  obtain ⟨n, hn, rfl⟩ := List.mem_map.mp hd
  refine ⟨?_, hoffset⟩
  show (overrideChannel trims _).trim ≤ 4095
  rw [trim_overrideChannel htrims _ rfl]
  exact given_le htrims.codes

section Configured
variable {l : List (Setting × UInt32)} (hl : l = (entries (configOf args control trims biases).received).flatMap assignments)
include hl

include htrims in
theorem lastOf_trim {ch : Nat} (hch : ch < 40) : lastOf l (.channel .trim ch) = some (given args.ch_trim ch) := by
  rw [hl, Received.lastOf_channel nodup_channels (channel_configOf hch)]
  have hid : PdsConfigureUtils.channelId (PdsConfigureUtils.defaultChannel (defaults args control) ch) = ch :=
    PdsConfigureUtils.channelId_default (by omega)
  exact congrArg some ((trim_overrideChannel htrims _ rfl).trans (by rw [hid]))

theorem lastOf_offset {ch : Nat} (hch : ch < 40) : lastOf l (.channel .offset ch) = some args.ch_offset := by
  rw [hl, Received.lastOf_channel nodup_channels (channel_configOf hch)]
  rfl

theorem lastOf_gain (hmap : Chunker.afeBoard2PLMap board = some afe) : lastOf l (.output (.gain afe)) = some args.vgain := by
  rw [hl, Received.lastOf_gain nodup_afes (afe_configOf (AllChannels.board_lt hmap)) hmap]
  rfl

include hbiases in
theorem lastOf_bias (hmap : Chunker.afeBoard2PLMap board = some afe)
    (hnone : lastOf (args.afe_bias_dac ++ args.afe_bias_volts) (board : Int) = none) : lastOf l (.output (.bias afe)) = none := by
  have hboard := AllChannels.board_lt hmap
  rw [hl, Received.lastOf_bias nodup_afes (afe_configOf hboard) hmap]
  have hid : PdsConfigureUtils.afeId (PdsConfigureUtils.defaultAfe (defaults args control) board) = board :=
    PdsConfigureUtils.afeId_default (by omega)
  refine if_neg (not_not.mpr ?_)
  rw [overrideAfe, hid, hbiases.lookup, hnone]
  rfl

theorem lastOf_control (hcontrol : 0 ≤ control ∧ control ≤ 4095) : lastOf l (.output .hv) = some (code control) := by
  have hle : (configOf args control trims biases).biasctrl ≤ 4095 := code_le hcontrol
  rw [hl]
  exact Received.lastOf_hv hle

end Configured

end Set

/-! ### The exit code -/

variable {args : Args} {plan : Plan} {exit : Nat} {levels : Levels}

theorem main_run (hplan : prepare args = .ok plan) (h : (main (link b fate) args).run s = (.ok exit, t)) (hexit : exit ≤ 1) :
    t = stepAll b (writes plan) ((Request.configure plan.cfg.received).step b s) ∧
      (exit = 0 → ∃ response, (Request.configure plan.cfg.received).response b s = some response) := by
  rw [main, hplan] at h
  change (send (link b fate) plan >>= fun exit => pure (Except.ok exit)).run s = _ at h
  rw [StateT.run_bind] at h
  rcases hsend : (send (link b fate) plan).run s with ⟨exit', u⟩
  rw [hsend] at h
  cases h
  exact send_run hsend hexit

/-- What the whole session assigns: `made` by the configuration, and then the biases. -/
theorem sent_assigned (hbiases : Overrides 4 (args.afe_bias_dac ++ args.afe_bias_volts) plan.afe_bias_overrides)
    (hrange : (Request.configure plan.cfg.received).ConfiguresInRange)
    (htimely : Timely b (.configure plan.cfg.received :: writes plan) s) :
    ∃ made, Makes (lookup (kept s)) (Request.configure plan.cfg.received).meaning ((Request.configure plan.cfg.received).response b s) made ∧
      Assigned (made ++ (sortedItems plan.afe_bias_overrides).flatMap assignBias) s
        (stepAll b (writes plan) ((Request.configure plan.cfg.received).step b s)) := by
  obtain ⟨made, hmakes, hassigned⟩ := (serves hrange htimely.1).makes
  have hitems (item : Int × Int) (hitem : item ∈ sortedItems plan.afe_bias_overrides) : item ∈ args.afe_bias_dac ++ args.afe_bias_volts :=
    mem_of_lastOf ((hbiases.lookup item.1).symm.trans (mem_sortedItems.mp hitem))
  exact ⟨made, hmakes, hassigned.append (assigned_writes (fun item hitem => hbiases.numbers item (hitems item hitem))
    (fun item hitem => hbiases.codes item (hitems item hitem)) htimely.2)⟩

/-- A client that returns 0 or 1 has set the biases which its arguments name, and one that returns 0 the rest of the board, too. -/
theorem main_exit (levels : Levels) (fate : Request → ServerState → Fate)
    (hs : Reached b (fun r s => r.ConfiguresInRange ∧ ¬r.Throws b Spi.timeout s ∧ ¬r.Throws b Dac.timeout s) s)
    (hoffset : args.ch_offset ≤ 4095) (hplan : prepare args = .ok plan)
    (htimely : Timely b (.configure plan.cfg.received :: writes plan) s)
    (h : (main (link b fate) args).run s = (.ok exit, t)) (hexit : exit ≤ 1) :
    BiasesSet levels args t ∧ (exit = 0 → BoardSet levels args s t) := by
  obtain ⟨hcontrol, hbiases, trims, htrims, hcfg⟩ := prepared_of_ok hplan
  obtain ⟨rfl, hzero⟩ := main_run hplan h hexit
  have hrange : (Request.configure plan.cfg.received).ConfiguresInRange := Or.inl (hcfg ▸ channels_fit htrims hoffset)
  have hsc := Reached.step hs ⟨hrange, htimely.1⟩
  have ht := reached_stepAll hsc (fun r hr => by
    obtain ⟨item, -, rfl⟩ := List.mem_map.mp hr
    exact trivial) htimely.2
  obtain ⟨made, hmakes, hassigned⟩ := sent_assigned hbiases hrange htimely
  obtain ⟨values, hstores⟩ := exists_stores levels hs
  obtain ⟨values', hstores'⟩ := exists_stores levels ht
  have hheld {x : Setting} {v : UInt32} (hx : lastOf (made ++ (sortedItems plan.afe_bias_overrides).flatMap assignBias) x = some v ∨
      lastOf (made ++ (sortedItems plan.afe_bias_overrides).flatMap assignBias) x = none ∧ Held levels s v x) :=
    hassigned.held hstores.trim hstores.gain hstores'.trim hstores'.gain hx
  refine ⟨fun board afe hmap v hv => ⟨code v, toNat_code (hbiases.codes _ (mem_of_lastOf hv)), hheld (Or.inl ?_)⟩, fun hexit => ?_⟩
  · rw [lastOf_append, lastOf_writes hbiases hmap, hv]
    rfl
  · obtain ⟨response, hresponse⟩ := hzero hexit
    rw [hresponse] at hmakes
    have hmade : made = (entries (configOf args (args.biasctrl_volts.getD args.biasctrl_dac) trims plan.afe_bias_overrides).received).flatMap
        assignments := hcfg ▸ made_of_configure hmakes
    have hset {x : Setting} {v : UInt32} (hx : ∀ afe, x ≠ .output (.bias afe)) (hlast : lastOf made x = some v) :=
      hheld (Or.inl (by rw [lastOf_append, lastOf_writes_none hx, Option.none_or, hlast]))
    refine ⟨fun ch hch => ⟨_, toNat_given htrims.codes, hset nofun (lastOf_trim htrims hmade hch)⟩,
      fun ch hch => hset nofun (lastOf_offset hmade hch), fun board afe hmap => hset nofun (lastOf_gain hmade hmap),
      ⟨_, toNat_code hcontrol, hset nofun (lastOf_control hmade hcontrol)⟩, fun board afe hmap hnone w hw => hheld (Or.inr ⟨?_, hw⟩)⟩
    rw [lastOf_append, lastOf_writes hbiases hmap, hnone, lastOf_bias hbiases hmade hmap hnone]
    rfl

theorem writeBiases_answered (items : List (Int × Int)) (s : ServerState) : (writeBiases (link b fun _ _ => .answered) items).run s =
    (none, stepAll b (items.map fun item => .writeAFEBiasSet (code item.1) (code item.2)) s) := by
  induction items generalizing s with
  | nil => rfl
  | cons item items ih =>
    rw [writeBiases, StateT.run_bind]
    exact ih _

/-- A client whose requests are all answered ends by what the first response says. -/
theorem main_answered (hplan : prepare args = .ok plan)
    (hsuccess : (((Request.configure plan.cfg.received).response b s).map Response.success).getD false = true) :
    (main (link b fun _ _ => .answered) args).run s =
      (.ok 0, stepAll b (writes plan) ((Request.configure plan.cfg.received).step b s)) := by
  have hsend : (send (link b fun _ _ => .answered) plan).run s = (0, stepAll b (writes plan) ((Request.configure plan.cfg.received).step b s)) := by
    rw [send, StateT.run_bind]
    change (writeBiases (link b fun _ _ => .answered) (sortedItems plan.afe_bias_overrides) >>= _).run
      ((Request.configure plan.cfg.received).step b s) = _
    rw [StateT.run_bind, writeBiases_answered]
    change ((if (((Request.configure plan.cfg.received).response b s).map Response.success).getD false then 0 else 1), _) = _
    rw [if_pos hsuccess]
    rfl
  rw [main, hplan]
  change (send (link b fun _ _ => .answered) plan >>= fun exit => pure (Except.ok exit)).run s = _
  rw [StateT.run_bind, hsend]
  rfl

/-- A bias of zero for one AFE. -/
def oneBias : Args where
  host := "127.0.0.1"
  timeout := 6000
  cfg_timeout_ms := none
  vgain := 1600
  ch_offset := 2275
  lpf_val := 4
  pga_gain_val := false
  lna_gain_val := 2
  lna_clamp_val := 0
  adc_resolution := true
  biasctrl_dac := 1300
  biasctrl_volts := none
  afe_bias_dac := [(1, 0)]
  afe_bias_volts := []
  ch_trim := []

def onePlan : Plan where
  cfg := configOf oneBias 1300 ∅ ((∅ : Dict Int).insert 1 0)
  afe_bias_overrides := (∅ : Dict Int).insert 1 0

theorem writes_onePlan : writes onePlan = [.writeAFEBiasSet 1 0] := by
  have hentries : ((∅ : Dict Int).insert 1 0).entries = [⟨1, 0⟩] := rfl
  have hsorted : sortedItems ((∅ : Dict Int).insert 1 0) = [(1, 0)] := by
    rw [sortedItems, hentries]
    simp
  rw [writes, onePlan, hsorted]
  rfl

theorem main_exit_oneBias : ∃ t, (main (link .idle fun _ _ => .answered) oneBias).run ServerState.fresh = (.ok 0, t) ∧
    BiasesSet (fun _ _ => 0) oneBias t ∧ BoardSet (fun _ _ => 0) oneBias ServerState.fresh t := by
  have hplan : prepare oneBias = .ok onePlan := rfl
  have hsuccess : (((Request.configure onePlan.cfg.received).response .idle ServerState.fresh).map Response.success).getD false = true := by
    decide +kernel
  have hconfigure : (Request.configure onePlan.cfg.received).answers .idle ServerState.fresh = true := by decide +kernel
  have hwrite : (Request.writeAFEBiasSet 1 0).answers .idle ((Request.configure onePlan.cfg.received).step .idle ServerState.fresh) = true := by
    decide +kernel
  have htimely : Timely .idle (.configure onePlan.cfg.received :: writes onePlan) ServerState.fresh := by
    rw [writes_onePlan]
    exact ⟨⟨Request.not_throws hconfigure _, Request.not_throws hconfigure _⟩,
      ⟨Request.not_throws hwrite _, Request.not_throws hwrite _⟩, trivial⟩
  have hrun := main_answered hplan hsuccess
  have hset := main_exit (fun _ _ => 0) (fun _ _ => .answered) (.start _ _ _) (by decide) hplan htimely hrun (by decide)
  exact ⟨_, hrun, hset.1, hset.2 rfl⟩

end DaphneZmq.ConfigureFeMin
