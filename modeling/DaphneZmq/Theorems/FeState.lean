import DaphneZmq.FeState
import DaphneZmq.Theorems.Received
import DaphneZmq.Theorems.Store

/-! A snapshot of one server as the seed for another. The snapshot has what the server keeps for each setting; the request that is
built from it gives the other server these values, except that it keeps the biases which are zero in the snapshot. -/

namespace DaphneZmq.FeState
open Lib Lib.Device Lib.Overlay Lib.Overwrite
open Dac hiding Setting
open GainBias hiding outputs
open Handlers Rejection DaphneZmq.Configuration Store
open PdsConfigureUtils (Defaults makeDefaultConfig buildRequestFromSeed numbers ints each uint32 toInt)

/-- A server that no other client uses. -/
def atServer (b : Board) (r : Request) : StateM ServerState (Option Response) := fun s => (r.response b s, r.step b s)

/-- What a field has of settings that are read; there are none if the server refuses. -/
def reading (values : Values) (settings : List Setting) : UInt32 := (settings.map (lookup values)).headD 0

/-- The snapshot of a map. -/
def snapshotOf (values : Values) (afe_count : Nat) : Snapshot where
  offsets := (all .offset).map (lookup values)
  trims := (all .trim).map (lookup values)
  afes := (List.range afe_count).map fun afe => {
    id := afe
    attenuators := reading values (outputs .gain afe.toUInt32)
    v_bias := reading values (outputs .bias afe.toUInt32) }
  bias_ctrl := lookup values (.output .hv)

/-- A bias of zero is not set, so that the old one stays. -/
def AfeEntry.over (entry old : AfeEntry) : AfeEntry := { entry with v_bias := if entry.v_bias ≠ 0 then entry.v_bias else old.v_bias }

/-- What is in place after a snapshot has been restored over an old one. -/
def Snapshot.over (snapshot old : Snapshot) : Snapshot := { snapshot with afes := List.zipWith AfeEntry.over snapshot.afes old.afes }

/-- The DACs hold the values of a snapshot, apart from biases that are zero. -/
structure Holds (levels : Levels) (s : ServerState) (snapshot : Snapshot) : Prop where
  trims : ∀ ch v, snapshot.trims[ch]? = some v → Held levels s v (.channel .trim ch)
  offsets : ∀ ch v, snapshot.offsets[ch]? = some v → Held levels s v (.channel .offset ch)
  gains : ∀ entry ∈ snapshot.afes, ∀ afe, Chunker.afeBoard2PLMap entry.id = some afe → Held levels s entry.attenuators (.output (.gain afe))
  biases : ∀ entry ∈ snapshot.afes, ∀ afe, Chunker.afeBoard2PLMap entry.id = some afe → entry.v_bias ≠ 0 →
    Held levels s entry.v_bias (.output (.bias afe))
  control : Held levels s snapshot.bias_ctrl (.output .hv)

variable {b : Board} {s t u : ServerState} {levels : Levels} {values : Values} {settings : List Setting} {α β σ : Type}

/-! ### The snapshot of a server -/

theorem mapM_run {f : α → StateM σ β} {g : α → β} {s : σ} {l : List α} (h : ∀ a ∈ l, (f a).run s = (g a, s)) :
    (l.mapM f).run s = (l.map g, s) := by
  induction l with
  | nil => rfl
  | cons a l ih =>
    rw [List.mapM_cons, StateT.run_bind, h a List.mem_cons_self]
    show (l.mapM f >>= fun l' => pure (g a :: l')).run s = _
    rw [StateT.run_bind, ih fun b hb => h b (List.mem_cons_of_mem a hb)]
    rfl

theorem atServer_ok {r : Request} {response : Response} (h : r.prog b s = .ok response t) : (atServer b r).run s = (some response, t) := by
  show (r.response b s, r.step b s) = _
  rw [Request.response, Request.step, Request.handle, rethrow, h]

theorem atServer_error {r : Request} {e : String} (h : r.prog b s = .error e t) : (atServer b r).run s = (none, t) := by
  show (r.response b s, r.step b s) = _
  rw [Request.response, Request.step, Request.handle, rethrow, h]

/-- A request that reads settings finds the values that are kept, and leaves the server as it is. -/
theorem atServer_gets {m : Prog Nat UInt32 Daphne α} {reply : α → List UInt32} (h : Gets m reply settings s) {r : Request}
    {f : α → Response} (hf : ∀ a, f a = ⟨true, reply a⟩) (hprog : r.prog b = m >>= fun a => pure (f a)) :
    ∃ resp, (atServer b r).run s = (resp, s) ∧ fields resp = settings.map (lookup (kept s)) := by
  by_cases hsettings : settings = []
  · obtain ⟨e, he⟩ := h.refused hsettings
    refine ⟨none, atServer_error (by rw [hprog]; exact bind_error he), ?_⟩
    rw [hsettings]
    rfl
  · obtain ⟨a, ha, hreply⟩ := h.accepted hsettings
    refine ⟨some (f a), atServer_ok (by rw [hprog]; exact bind_ok ha), ?_⟩
    rw [hf]
    exact hreply

theorem field_eq {resp : Option Response} (h : fields resp = settings.map (lookup values)) : field resp = reading values settings := by
  rw [field, h, reading]

theorem readAfe_eq (b : Board) (afe : Nat) (s : ServerState) : (readAfe (atServer b) afe).run s =
    ({ id := afe, attenuators := reading (kept s) (outputs .gain afe.toUInt32), v_bias := reading (kept s) (outputs .bias afe.toUInt32) }, s) := by
  have hgains : Gets (Handlers.readAFEVgain afe.toUInt32) (fun v => [v]) (outputs .gain afe.toUInt32) s :=
    gets_output .afeAttenuation (fun _ => rfl) afe.toUInt32 s
  have hbiases : Gets (Handlers.readAFEBiasSet afe.toUInt32) (fun v => [v]) (outputs .bias afe.toUInt32) s :=
    gets_output .biasVoltage (fun _ => rfl) afe.toUInt32 s
  obtain ⟨resp_vg, hvg, hgain⟩ := atServer_gets (b := b) (r := .readAFEVgain afe.toUInt32) hgains (fun _ => rfl) rfl
  obtain ⟨resp_bias, hvb, hbias⟩ := atServer_gets (b := b) (r := .readAFEBiasSet afe.toUInt32) hbiases (fun _ => rfl) rfl
  rw [readAfe, StateT.run_bind, hvg, ← field_eq hgain, ← field_eq hbias]
  show (atServer b (.readAFEBiasSet afe.toUInt32) >>= fun resp_bias => _).run s = _
  rw [StateT.run_bind, hvb]
  rfl

theorem readAll_eq (b : Board) (afe_count : Nat) (s : ServerState) :
    (readAll (atServer b) afe_count).run s = (snapshotOf (kept s) afe_count, s) := by
  obtain ⟨trim_all, htrim, htrims⟩ := atServer_gets (b := b) (r := .readAllChannels .trim) (gets_readAllChannels .trim s) (fun _ => rfl) rfl
  obtain ⟨offset_all, hoffset, hoffsets⟩ :=
    atServer_gets (b := b) (r := .readAllChannels .offset) (gets_readAllChannels .offset s) (fun _ => rfl) rfl
  obtain ⟨resp_ctrl, hctrl, hcontrol⟩ := atServer_gets (b := b) (r := .readVbiasControl) (gets_readVbiasControl s) (fun _ => rfl) rfl
  have hafes := mapM_run (l := List.range afe_count) fun afe _ => readAfe_eq b afe s
  have hcode : field resp_ctrl = lookup (kept s) (.output .hv) := field_eq hcontrol
  rw [snapshotOf, ← htrims, ← hoffsets, ← hcode, readAll, StateT.run_bind, htrim]
  show (atServer b (.readAllChannels .offset) >>= fun offset_all => _).run s = _
  rw [StateT.run_bind, hoffset]
  show ((List.range afe_count).mapM (readAfe (atServer b)) >>= fun afe_entries => _).run s = _
  rw [StateT.run_bind, hafes]
  show (atServer b .readVbiasControl >>= fun resp_vbias_ctrl => _).run s = _
  rw [StateT.run_bind, hctrl]
  rfl

/-! ### The request from a snapshot -/

section Building
open PdsConfigureUtils

/-- A list of numbers that fit. -/
def codes (l : List UInt32) : Option (List (Value Empty)) := some ((l.map fun v => (v.toNat : Int)).map .int)

theorem maybeGet32_codes (l : List UInt32) (idx : Nat) (d : UInt32) : ∃ x, maybeGet32 numbers (codes l) idx d = .ok x := by
  rw [maybeGet32]
  rcases maybeGet_cases (codes l) idx with ⟨v, hv, hget⟩ | ⟨-, hget⟩
  · rw [codes, Option.bind_some, List.map_map, List.getElem?_map, Option.map_eq_some_iff] at hv
    obtain ⟨x, -, rfl⟩ := hv
    exact ⟨x, by rw [hget]; exact uint32_toNat x⟩
  · exact ⟨d, by rw [hget, uint32_toNat]⟩

theorem overlayChannel_codes (offsets trims gains : List UInt32) (idx : Nat) (ch : PdsConfigureUtils.ChannelConfig) :
    ∃ ch', overlayChannel numbers { offsets := codes offsets, trims := codes trims, gains := codes gains } idx ch = .ok ch' := by
  obtain ⟨offset, hoffset⟩ := maybeGet32_codes offsets idx ch.offset
  obtain ⟨trim, htrim⟩ := maybeGet32_codes trims idx ch.trim
  obtain ⟨gain, hgain⟩ := maybeGet32_codes gains idx ch.gain
  exact ⟨_, bind_eq_ok.mpr ⟨_, hoffset, bind_eq_ok.mpr ⟨_, htrim, bind_eq_ok.mpr ⟨_, hgain, rfl⟩⟩⟩⟩

/-- The lists of a snapshot for the AFEs, which has none for the submessages. -/
def levelLists (attenuators v_biases : List UInt32) : AfeLists Empty :=
  { attenuators := codes attenuators, v_biases := codes v_biases, adc_res := none, adc_fmt := none, adc_sb := none, pga_cut := none,
    pga_int := none, pga_gain := none, lna_clamp := none, lna_gain := none, lna_int := none }

theorem overlayAfe_codes (prefer_seed_common : Bool) (attenuators v_biases : List UInt32) (idx : Nat) (afe : PdsConfigureUtils.AFEConfig) :
    ∃ afe', overlayAfe numbers prefer_seed_common (levelLists attenuators v_biases) idx afe = .ok afe' := by
  obtain ⟨attenuator, hattenuator⟩ := maybeGet32_codes attenuators idx afe.attenuators
  obtain ⟨v_bias, hbias⟩ := maybeGet32_codes v_biases idx afe.v_bias
  cases prefer_seed_common
  · exact ⟨_, bind_eq_ok.mpr ⟨_, hattenuator, bind_eq_ok.mpr ⟨_, hbias, rfl⟩⟩⟩
  · exact ⟨_, bind_eq_ok.mpr ⟨_, hattenuator, bind_eq_ok.mpr ⟨_, hbias, rfl⟩⟩⟩

theorem inRange_nat {n : Nat} (hn : n < 2 ^ 32) : ∃ x, inRange 32 n = .ok x := by
  have hid : inRange 32 (BitVec.ofNat 32 n).toNat = .ok (BitVec.ofNat 32 n) := inRange_toNat _
  rw [BitVec.toNat_ofNat, Nat.mod_eq_of_lt hn] at hid
  exact ⟨_, hid⟩

theorem newChannel_ok {n : Nat} (hn : n < 2 ^ 32) : ∃ ch, newChannel n = .ok ch := by
  obtain ⟨id, hid⟩ := inRange_nat hn
  exact ⟨_, bind_eq_ok.mpr ⟨id, hid, rfl⟩⟩

theorem newAfe_ok {n : Nat} (hn : n < 2 ^ 32) : ∃ afe, newAfe n = .ok afe := by
  obtain ⟨id, hid⟩ := inRange_nat hn
  exact ⟨_, bind_eq_ok.mpr ⟨id, hid, rfl⟩⟩

theorem named_nats {blank : Int → Except Raised α} (hblank : ∀ n : Nat, n < 2 ^ 32 → ∃ a, blank n = .ok a) {ids : List Nat}
    (hids : ∀ n ∈ ids, n < 2 ^ 32) :
    ∀ v ∈ (ids.map fun (n : Nat) => (n : Int)).map Value.int, ∃ k, toInt numbers v = .ok k ∧ ∃ a, blank k = .ok a := by
  intro v hv
  obtain ⟨k, hk, rfl⟩ := List.mem_map.mp hv
  obtain ⟨n, hn, rfl⟩ := List.mem_map.mp hk
  exact ⟨n, rfl, hblank n (hids n hn)⟩

theorem afeIds_eq (snapshot : Snapshot) :
    snapshot.config.afeIds = ((snapshot.afes.map (·.id)).map fun (n : Nat) => (n : Int)).map .int :=
  congrArg (List.map Value.int) (List.map_map ..).symm

theorem codes_map (f : AfeEntry → UInt32) (afes : List AfeEntry) :
    codes (afes.map f) = some ((afes.map fun entry => ((f entry).toNat : Int)).map .int) :=
  congrArg (fun l => some (List.map Value.int l)) (List.map_map ..)

theorem afeLists_eq (snapshot : Snapshot) :
    snapshot.config.afeLists = levelLists (snapshot.afes.map (·.attenuators)) (snapshot.afes.map (·.v_bias)) := by
  rw [levelLists, codes_map, codes_map]
  rfl

/-- A snapshot whose AFEs have numbers that fit gives a request. -/
theorem exists_request (snapshot : Snapshot) (hids : ∀ entry ∈ snapshot.afes, entry.id < 2 ^ 32) (args : Defaults) (prefer_seed_common : Bool) :
    ∃ cfg, buildRequestFromSeed numbers snapshot.config (makeDefaultConfig args) prefer_seed_common = .ok cfg := by
  have hch : ∀ v ∈ snapshot.config.chIds, ∃ k, toInt numbers v = .ok k ∧ ∃ ch, newChannel k = .ok ch :=
    named_nats (fun _ hn => newChannel_ok hn) fun n hn => by
      have hlt := List.mem_range.mp hn
      omega
  have hafe : ∀ v ∈ snapshot.config.afeIds, ∃ k, toInt numbers v = .ok k ∧ ∃ afe, newAfe k = .ok afe := by
    rw [afeIds_eq]
    refine named_nats (fun _ hn => newAfe_ok hn) fun n hn => ?_
    obtain ⟨entry, hentry, rfl⟩ := List.mem_map.mp hn
    exact hids entry hentry
  obtain ⟨channels, hchannels⟩ : ∃ l, overlay (toInt numbers) ensureChannel (overlayChannel numbers snapshot.config.chanCfg.lists)
      snapshot.config.chIds (makeDefaultConfig args).channels = .ok l :=
    exists_overlay hch (overlayChannel_codes snapshot.offsets snapshot.trims (List.replicate 40 1)) 0 _
  obtain ⟨afes, hafes⟩ : ∃ l, overlay (toInt numbers) ensureAfe (overlayAfe numbers prefer_seed_common snapshot.config.afeLists)
      snapshot.config.afeIds (makeDefaultConfig args).afes = .ok l := by
    rw [afeLists_eq]
    exact exists_overlay hafe (overlayAfe_codes prefer_seed_common _ _) 0 _
  refine ⟨{ makeDefaultConfig args with biasctrl := snapshot.bias_ctrl, channels, afes, full_stream_channels := [] }, Built.ok ?_⟩
  exact ⟨⟨rfl, rfl, rfl, rfl, rfl, rfl, rfl⟩, rfl, uint32_toNat _, rfl, uint32_toNat _, uint64_toNat _, uint64_toNat _, uint64_toNat _,
    uint64_toNat _, uint64_toNat _, rfl, hchannels, hafes⟩

/-- What a request asks for that has been built from the snapshot of a map. -/
structure Asks (values : Values) (afe_count : Nat) (cfg : PdsConfigureUtils.ConfigureRequest) : Prop where
  biasctrl : cfg.biasctrl = lookup values (.output .hv)
  channels_nodup : (cfg.channels.map (·.id)).Nodup
  channels : ∀ ch : Nat, ch < 40 → ∃ config, cfg.channel? ch = some config ∧
    ∀ kind, Received.valueOf config.toChannelConfig kind = lookup values (.channel kind ch)
  others : ∀ ch : Nat, 40 ≤ ch → cfg.channel? ch = none
  afes_nodup : (cfg.afes.map (·.id)).Nodup
  afes : ∀ afe : Nat, afe < afe_count → ∃ config, cfg.afe? afe = some config ∧ config.attenuators = reading values (outputs .gain afe.toUInt32) ∧
    config.v_bias = reading values (outputs .bias afe.toUInt32)

variable {cfg : PdsConfigureUtils.ConfigureRequest} {afe_count : Nat} {args : Defaults} {prefer_seed_common : Bool}

theorem nodup_nats (n : Nat) : ((List.range n).map fun (k : Nat) => (k : Int)).Nodup := List.nodup_range.map fun _ _ => Int.ofNat_inj.mp

theorem takes_code {l : List Int} {idx : Nat} {x d y : UInt32} (h : Takes (uint32 numbers) ((ints l).get []) idx d y)
    (hx : l[idx]? = some (x.toNat : Int)) : y = x :=
  Except.ok.inj ((takes_ints h hx).symm.trans (uint32_toNat x))

theorem code_at {kind : Kind} {ch : Nat} (hch : ch < 40) :
    (((all kind).map (lookup values)).map fun (v : UInt32) => (v.toNat : Int))[ch]? = some ((lookup values (.channel kind ch)).toNat : Int) := by
  rw [all, List.getElem?_map, List.getElem?_map, List.getElem?_map, List.getElem?_range hch]
  rfl

theorem asks_of_ok (h : buildRequestFromSeed numbers (snapshotOf values afe_count).config (makeDefaultConfig args) prefer_seed_common = .ok cfg) :
    Asks values afe_count cfg := by
  have hbuilt := built_of_ok h
  have hc : Keyed channelId newChannel (overlayChannel numbers (snapshotOf values afe_count).config.chanCfg.lists) := keyed_channels _
  have ha : Keyed afeId newAfe (overlayAfe numbers prefer_seed_common (snapshotOf values afe_count).config.afeLists) := keyed_afes _ _
  have hids : (snapshotOf values afe_count).config.afeIds = ((List.range afe_count).map fun (afe : Nat) => (afe : Int)).map .int :=
    congrArg (List.map Value.int) (List.map_map ..)
  refine ⟨?_, ?_, fun ch hch => ?_, fun ch hch => ?_, ?_, fun afe hafe => ?_⟩
  · exact Except.ok.inj (hbuilt.biasctrl.symm.trans (uint32_toNat _))
  · exact nodup_map_toNat.mp (nodup_overlay hc hbuilt.channels (nodup_map_toNat.mpr (nodup_default_channels _)))
  · have hv : (snapshotOf values afe_count).config.chIds[ch]? = some (.int ch) := by
      rw [show (snapshotOf values afe_count).config.chIds = ((List.range 40).map fun (ch : Nat) => (ch : Int)).map .int from rfl,
        List.getElem?_map, List.getElem?_map, List.getElem?_range hch]
      rfl
    obtain ⟨a, config, -, hupdate, hentry⟩ := entry_named hc hbuilt.channels (distinct_ids (nodup_nats 40)) hv rfl
    rw [Nat.zero_add] at hupdate
    have htakes := (overlayChannel_ok hupdate).2.1
    refine ⟨config, hentry, fun kind => ?_⟩
    cases kind
    · exact takes_code htakes.trim (code_at hch)
    · exact takes_code htakes.offset (code_at hch)
  · have hnot : (ch : Int) ∉ (List.range 40).map fun (ch : Nat) => (ch : Int) := by
      intro hmem
      obtain ⟨n, hn, heq⟩ := List.mem_map.mp hmem
      have hlt := List.mem_range.mp hn
      omega
    exact (entry_unnamed hc hbuilt.channels (named_int hnot)).trans (default_others hch)
  · exact nodup_map_toNat.mp (nodup_overlay ha hbuilt.afes (nodup_map_toNat.mpr (nodup_default_afes _)))
  · have hv : (snapshotOf values afe_count).config.afeIds[afe]? = some (.int afe) := by
      rw [hids, List.getElem?_map, List.getElem?_map, List.getElem?_range hafe]
      rfl
    obtain ⟨a, config, -, hupdate, hentry⟩ := entry_named ha hbuilt.afes (hids ▸ distinct_ids (nodup_nats afe_count)) hv rfl
    rw [Nat.zero_add] at hupdate
    have htakes := (overlayAfe_ok hupdate).2.1
    have hat : (snapshotOf values afe_count).afes[afe]? = some { id := afe, attenuators := reading values (outputs .gain afe.toUInt32),
                                                                 v_bias := reading values (outputs .bias afe.toUInt32) } := by
      rw [snapshotOf, List.getElem?_map, List.getElem?_range hafe]
      rfl
    refine ⟨config, hentry, takes_code htakes.attenuators ?_, takes_code htakes.v_bias ?_⟩
    · rw [List.getElem?_map, hat]
      rfl
    · rw [List.getElem?_map, hat]
      rfl

end Building

/-! ### The other server -/

theorem reading_output {output : Nat → Output} {board afe : Nat} (hmap : Chunker.afeBoard2PLMap board = some afe) :
    reading values (outputs output board.toUInt32) = lookup values (.output (output afe)) := by
  have hboard := AllChannels.board_lt hmap
  have hsmall : board.toUInt32.toNat = board := Nat.mod_eq_of_lt (by omega)
  rw [reading, outputs, hsmall, hmap]
  rfl

section Accepted
variable {cfg : PdsConfigureUtils.ConfigureRequest} {afe_count : Nat} {ok : Bool} (hasks : Asks values afe_count cfg)
include hasks

/-- The server knows five AFEs. -/
theorem count_le (h : configureDaphne b cfg.received t = .ok ok u) : afe_count ≤ 5 := by
  by_contra hcount
  obtain ⟨config, hconfig, -⟩ := hasks.afes 5 (by omega)
  have hkey : PdsConfigureUtils.afeId config = (5 : Nat) := key_of_entry hconfig
  have hid : config.id.toNat = 5 := Int.ofNat_inj.mp hkey
  have hmem : _ ∈ cfg.received.afes := List.mem_map.mpr ⟨config, List.mem_of_find?_eq_some hconfig, rfl⟩
  have hentry : .afe _ ∈ entries cfg.received :=
    List.mem_append_right _ (List.mem_cons_of_mem _ (List.mem_map.mpr ⟨_, hmem, rfl⟩))
  have hfits := in_range_of_ok h _ hentry
  simp [Entry.offends, hid, Chunker.afeBoard2PLMap] at hfits

theorem channels_fit (hle : ∀ kind ch, ch < 40 → lookup values (.channel kind ch) ≤ 4095) :
    ∀ config ∈ cfg.received.channels, config.trim ≤ 4095 ∧ config.offset ≤ 4095 := by
  intro config hconfig
  obtain ⟨ch, hmem, rfl⟩ := List.mem_map.mp hconfig
  have hfound := Received.channel_of_mem hasks.channels_nodup hmem
  rcases Nat.lt_or_ge ch.id.toNat 40 with hlt | hge
  · obtain ⟨ch', hch', hvalues⟩ := hasks.channels ch.id.toNat hlt
    cases hfound.symm.trans hch'
    have htrim : ch.trim = lookup values (.channel .trim ch.id.toNat) := hvalues .trim
    have hoffset : ch.offset = lookup values (.channel .offset ch.id.toNat) := hvalues .offset
    exact ⟨htrim ▸ hle .trim _ hlt, hoffset ▸ hle .offset _ hlt⟩
  · cases hfound.symm.trans (hasks.others ch.id.toNat hge)

theorem lastOf_channel {kind : Kind} {ch : Nat} (hch : ch < 40) :
    lastOf ((entries cfg.received).flatMap assignments) (.channel kind ch) = some (lookup values (.channel kind ch)) := by
  obtain ⟨config, hconfig, hvalues⟩ := hasks.channels ch hch
  rw [Received.lastOf_channel hasks.channels_nodup hconfig, hvalues]

theorem lastOf_hv (hle : lookup values (.output .hv) ≤ 4095) :
    lastOf ((entries cfg.received).flatMap assignments) (.output .hv) = some (lookup values (.output .hv)) := by
  rw [← hasks.biasctrl] at hle ⊢
  exact Received.lastOf_hv hle

theorem lastOf_gain {board afe : Nat} (hmap : Chunker.afeBoard2PLMap board = some afe) (hboard : board < afe_count) :
    lastOf ((entries cfg.received).flatMap assignments) (.output (.gain afe)) = some (lookup values (.output (.gain afe))) := by
  obtain ⟨config, hconfig, hgain, -⟩ := hasks.afes board hboard
  rw [Received.lastOf_gain hasks.afes_nodup hconfig hmap, hgain, reading_output hmap]

theorem lastOf_bias {board afe : Nat} (hmap : Chunker.afeBoard2PLMap board = some afe) (hboard : board < afe_count) :
    lastOf ((entries cfg.received).flatMap assignments) (.output (.bias afe)) =
      if lookup values (.output (.bias afe)) ≠ 0 then some (lookup values (.output (.bias afe))) else none := by
  obtain ⟨config, hconfig, -, hbias⟩ := hasks.afes board hboard
  rw [Received.lastOf_bias hasks.afes_nodup hconfig hmap, hbias, reading_output hmap]

theorem snapshotOf_assigned (hcount : afe_count ≤ 5) (hle : lookup values (.output .hv) ≤ 4095)
    (h : Assigned ((entries cfg.received).flatMap assignments) t u) :
    snapshotOf (kept u) afe_count = (snapshotOf values afe_count).over (snapshotOf (kept t) afe_count) := by
  have hchannels (kind : Kind) : (all kind).map (lookup (kept u)) = (all kind).map (lookup values) := by
    refine List.map_congr_left fun x hx => ?_
    obtain ⟨ch, hch, rfl⟩ := List.mem_map.mp hx
    rw [lookup_of_assigned h, lastOf_channel hasks (List.mem_range.mp hch)]
    rfl
  have hcontrol : lookup (kept u) (.output .hv) = lookup values (.output .hv) := by
    rw [lookup_of_assigned h, lastOf_hv hasks hle]
    rfl
  have hafes : (snapshotOf (kept u) afe_count).afes = ((snapshotOf values afe_count).over (snapshotOf (kept t) afe_count)).afes := by
    show List.map _ _ = List.zipWith AfeEntry.over (List.map _ _) (List.map _ _)
    rw [List.zipWith_map, List.zipWith_self]
    refine List.map_congr_left fun board hboard => ?_
    have hlt := List.mem_range.mp hboard
    obtain ⟨afe, hmap⟩ := AllChannels.exists_afe (hlt.trans_le hcount)
    simp only [AfeEntry.over, reading_output hmap, lookup_of_assigned h, lastOf_gain hasks hmap hlt, lastOf_bias hasks hmap hlt,
      Option.getD_some, AfeEntry.mk.injEq, true_and]
    split
    · rfl
    · rfl
  exact Snapshot.ext (hchannels .offset) (hchannels .trim) hafes hcontrol

theorem holds_of_configured (hle : lookup values (.output .hv) ≤ 4095)
    (h : Configured levels cfg.received t u) : Holds levels u (snapshotOf values afe_count) := by
  have hchannels {kind : Kind} {ch : Nat} {v : UInt32} (hv : ((all kind).map (lookup values))[ch]? = some v) :
      Held levels u v (.channel kind ch) := by
    rw [all, List.map_map, List.getElem?_map, Option.map_eq_some_iff] at hv
    obtain ⟨ch', hch', rfl⟩ := hv
    obtain ⟨hlt, rfl⟩ := List.getElem?_eq_some_iff.mp hch'
    rw [List.length_range] at hlt
    rw [List.getElem_range]
    exact h.set _ _ (lastOf_channel hasks hlt)
  refine ⟨fun ch v => hchannels, fun ch v => hchannels, ?_, ?_, h.set _ _ (lastOf_hv hasks hle)⟩
  · rintro entry hentry afe hmap
    obtain ⟨board, hboard, rfl⟩ := List.mem_map.mp hentry
    have hlt := List.mem_range.mp hboard
    show Held levels u (reading values (outputs .gain board.toUInt32)) _
    rw [reading_output hmap]
    exact h.set _ _ (lastOf_gain hasks hmap hlt)
  · rintro entry hentry afe hmap hne
    obtain ⟨board, hboard, rfl⟩ := List.mem_map.mp hentry
    have hlt := List.mem_range.mp hboard
    have hvalue : reading values (outputs .bias board.toUInt32) = lookup values (.output (.bias afe)) := reading_output hmap
    show Held levels u (reading values (outputs .bias board.toUInt32)) _
    rw [hvalue]
    exact h.set _ _ ((lastOf_bias hasks hmap hlt).trans (if_pos (hvalue ▸ hne)))

end Accepted

/-- The snapshot of a server is the seed of a request, and another server that accepts the request has the snapshot afterwards,
    over the biases that it had. -/
theorem snapshot_restored (levels : Levels) (b b' : Board) (afe_count : Nat) (args : Defaults) (prefer_seed_common : Bool)
    (hcount : afe_count ≤ 2 ^ 32)
    (hs : Reached b (fun r s => r.ConfiguresInRange ∧ ¬r.Throws b Spi.timeout s ∧ ¬r.Throws b Dac.timeout s) s)
    (ht : Reached b' (fun r s => r.ConfiguresInRange ∧ ¬r.Throws b' Spi.timeout s ∧ ¬r.Throws b' Dac.timeout s) t) :
    ∃ snapshot old cfg, (readAll (atServer b) afe_count).run s = (snapshot, s) ∧ (readAll (atServer b') afe_count).run t = (old, t) ∧
      buildRequestFromSeed numbers snapshot.config (makeDefaultConfig args) prefer_seed_common = .ok cfg ∧
      ∀ ok u, configureDaphne b' cfg.received t = .ok ok u → afe_count ≤ 5 ∧
        (readAll (atServer b') afe_count).run u = (snapshot.over old, u) ∧ Holds levels u snapshot := by
  have hids : ∀ entry ∈ (snapshotOf (kept s) afe_count).afes, entry.id < 2 ^ 32 := by
    rintro entry hentry
    obtain ⟨afe, hafe, rfl⟩ := List.mem_map.mp hentry
    exact (List.mem_range.mp hafe).trans_le hcount
  obtain ⟨cfg, hcfg⟩ := exists_request (snapshotOf (kept s) afe_count) hids args prefer_seed_common
  refine ⟨_, _, cfg, readAll_eq b afe_count s, readAll_eq b' afe_count t, hcfg, fun ok u h => ?_⟩
  have hasks := asks_of_ok hcfg
  have hfive := count_le hasks h
  obtain ⟨values, hstores⟩ := exists_stores levels hs
  have hle := hstores.control_le
  have hassigned := wp_ok (assigns_configureDaphne (b := b') cfg.received t).run h
  refine ⟨hfive, ?_, ?_⟩
  · rw [readAll_eq, snapshotOf_assigned hasks hfive hle hassigned]
  · exact holds_of_configured hasks hle (configured_of_ok levels ht (channels_fit hasks fun _ _ hch => hstores.channel_le hch) h)

/-- A server with one trim. -/
def trimmed : ServerState := (Request.writeTrimSingleChannel 9 100 true).step .idle ServerState.fresh

def trimSnapshot : Snapshot := ((readAll (atServer .idle) 5).run trimmed).1

def trimRequest : PdsConfigureUtils.ConfigureRequest :=
  match buildRequestFromSeed numbers trimSnapshot.config (makeDefaultConfig {}) true with
  | .ok cfg => cfg
  | .error _ => {}

theorem snapshot_restored_trim : ∃ old u, configureDaphne .idle trimRequest.received ServerState.fresh = .ok true u ∧
    (readAll (atServer .idle) 5).run u = (trimSnapshot.over old, u) ∧ Holds (fun _ _ => 0) u trimSnapshot := by
  obtain ⟨u, hu⟩ := (BiasControl.succeeds_iff .idle trimRequest.received ServerState.fresh).mp (by decide +kernel)
  have hanswers : (Request.writeTrimSingleChannel 9 100 true).answers .idle ServerState.fresh = true := by decide +kernel
  obtain ⟨snapshot, old, cfg, hsnapshot, -, hcfg, h⟩ := snapshot_restored (s := trimmed) (t := ServerState.fresh)
    (fun _ _ => 0) .idle .idle 5 {} true (by decide) (.step (.start _ _ _) ⟨trivial, Request.not_throws hanswers _, Request.not_throws hanswers _⟩) (.start _ _ _)
  have hsame : trimSnapshot = snapshot := congrArg Prod.fst hsnapshot
  have hrequest : trimRequest = cfg := by rw [trimRequest, hsame, hcfg]
  exact ⟨old, u, hu, hsame ▸ (h true u (hrequest ▸ hu)).2⟩

end DaphneZmq.FeState
