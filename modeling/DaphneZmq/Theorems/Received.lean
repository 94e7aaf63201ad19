import DaphneZmq.Theorems.Configuration
import DaphneZmq.Theorems.PdsConfigureUtils

/-! What the server assigns for a request that a client has built. The ids of its entries are pairwise distinct, so that each channel
and each AFE is given the values of its own entry. -/

namespace DaphneZmq.Received
open Lib.Device Lib.Overlay Lib.Overwrite
open Rejection (Setting Entry entries)
open DaphneZmq.Configuration

/-! ### What is assigned -/

section Assignments
variable {cfg : ConfigureRequest} {a : Setting × UInt32} {v : UInt32}

theorem mem_assignments : a ∈ (entries cfg).flatMap assignments ↔ (∃ config ∈ cfg.channels, a ∈ assignments (.channel config)) ∨
    a ∈ assignments (.control (BiasControl.codeOf cfg)) ∨ ∃ config ∈ cfg.afes, a ∈ assignments (.afe config) := by
  simp only [entries, List.flatMap_append, List.flatMap_cons, List.mem_append, List.flatMap_map, List.mem_flatMap]

theorem mem_afe {config : AFEConfig} : a ∈ assignments (.afe config) ↔ ∃ afe, Chunker.afeBoard2PLMap config.id.toNat = some afe ∧
    (a = (.output (.gain afe), config.attenuators) ∨ config.v_bias ≠ 0 ∧ a = (.output (.bias afe), config.v_bias)) := by
  simp only [assignments, List.mem_flatMap, Option.mem_toList, List.mem_cons]
  refine exists_congr fun afe => and_congr_right fun _ => or_congr_right ?_
  split
  next h => rw [List.mem_singleton, and_iff_right h]
  next h => exact ⟨fun hmem => absurd hmem List.not_mem_nil, fun hmem => absurd hmem.1 h⟩

theorem mem_control {code : Option UInt32} : a ∈ assignments (.control code) ↔ ∃ v, code = some v ∧ a = (.output .hv, v) := by
  simp only [assignments, List.mem_map, Option.mem_toList]
  exact exists_congr fun v => and_congr_right fun _ => eq_comm

def valueOf (config : ChannelConfig) : Dac.Kind → UInt32
  | .trim => config.trim
  | .offset => config.offset

theorem mem_config {config : ChannelConfig} : a ∈ assignments (.channel config) ↔
    ∃ kind, a = (.channel kind config.id.toNat, valueOf config kind) := by
  simp only [assignments, List.mem_cons, List.not_mem_nil, or_false]
  constructor
  · rintro (rfl | rfl)
    · exact ⟨.trim, rfl⟩
    · exact ⟨.offset, rfl⟩
  · rintro ⟨kind, rfl⟩
    cases kind
    · exact Or.inl rfl
    · exact Or.inr rfl

theorem mem_channel {kind : Dac.Kind} {ch : Nat} : (.channel kind ch, v) ∈ (entries cfg).flatMap assignments ↔
    ∃ config ∈ cfg.channels, config.id.toNat = ch ∧ v = valueOf config kind := by
  simp only [mem_assignments, mem_config, mem_afe, mem_control, Prod.mk.injEq, reduceCtorEq, false_and, and_false, exists_false, or_false]
  refine exists_congr fun config => and_congr_right fun _ => ?_
  constructor
  · rintro ⟨kind', hx, hv⟩
    cases hx
    exact ⟨rfl, hv⟩
  · rintro ⟨rfl, hv⟩
    exact ⟨kind, rfl, hv⟩

theorem mem_gain {afe : Nat} : (.output (.gain afe), v) ∈ (entries cfg).flatMap assignments ↔
    ∃ config ∈ cfg.afes, Chunker.afeBoard2PLMap config.id.toNat = some afe ∧ v = config.attenuators := by
  simp only [mem_assignments, mem_config, mem_afe, mem_control, Prod.mk.injEq, reduceCtorEq, false_and, and_false, exists_false, or_false,
    false_or, Setting.output.injEq, GainBias.Output.gain.injEq]
  refine exists_congr fun config => and_congr_right fun _ => ?_
  constructor
  · rintro ⟨afe', hmap, rfl, hv⟩
    exact ⟨hmap, hv⟩
  · rintro ⟨hmap, hv⟩
    exact ⟨afe, hmap, rfl, hv⟩

theorem mem_bias {afe : Nat} : (.output (.bias afe), v) ∈ (entries cfg).flatMap assignments ↔
    ∃ config ∈ cfg.afes, Chunker.afeBoard2PLMap config.id.toNat = some afe ∧ config.v_bias ≠ 0 ∧ v = config.v_bias := by
  simp only [mem_assignments, mem_config, mem_afe, mem_control, Prod.mk.injEq, reduceCtorEq, false_and, and_false, exists_false,
    false_or, Setting.output.injEq, GainBias.Output.bias.injEq]
  refine exists_congr fun config => and_congr_right fun _ => ?_
  constructor
  · rintro ⟨afe', hmap, hne, rfl, hv⟩
    exact ⟨hmap, hne, hv⟩
  · rintro ⟨hmap, hne, hv⟩
    exact ⟨afe, hmap, hne, rfl, hv⟩

theorem mem_hv : (.output .hv, v) ∈ (entries cfg).flatMap assignments ↔ BiasControl.codeOf cfg = some v := by
  rw [mem_assignments, mem_control]
  simp only [mem_config, mem_afe, Prod.mk.injEq, reduceCtorEq, Setting.output.injEq, false_and, and_false, exists_false, or_false,
    false_or, true_and, exists_eq_right']

end Assignments

/-! ### The entry of a setting -/

variable {cfg : PdsConfigureUtils.ConfigureRequest}

section Channels
variable (hnodup : (cfg.channels.map (·.id)).Nodup)
include hnodup

theorem channel_of_mem {ch : PdsConfigureUtils.ChannelConfig} (hmem : ch ∈ cfg.channels) :
    cfg.channel? (PdsConfigureUtils.channelId ch) = some ch := by
  rcases hfind : cfg.channel? (PdsConfigureUtils.channelId ch) with - | ch'
  · exact absurd rfl (entry_eq_none.mp hfind ch hmem)
  · have hkey : PdsConfigureUtils.channelId ch' = PdsConfigureUtils.channelId ch := key_of_entry hfind
    rw [List.inj_on_of_nodup_map hnodup (List.mem_of_find?_eq_some hfind) hmem (UInt32.toNat_inj.mp (Int.ofNat_inj.mp hkey))]

theorem lastOf_channel {kind : Dac.Kind} {n : Nat} {ch : PdsConfigureUtils.ChannelConfig} (hch : cfg.channel? n = some ch) :
    lastOf ((entries cfg.received).flatMap assignments) (.channel kind n) = some (valueOf ch.toChannelConfig kind) := by
  have hkey : PdsConfigureUtils.channelId ch = n := key_of_entry hch
  have hid : ch.id.toNat = n := Int.ofNat_inj.mp hkey
  have hmem : ch ∈ cfg.channels := List.mem_of_find?_eq_some hch
  refine lastOf_unique (mem_channel.mpr ⟨ch.toChannelConfig, List.mem_map.mpr ⟨ch, hmem, rfl⟩, hid, rfl⟩) fun w hw => ?_
  obtain ⟨config, hconfig, hid', rfl⟩ := mem_channel.mp hw
  obtain ⟨ch', hch', rfl⟩ := List.mem_map.mp hconfig
  have hsame : ch' = ch := List.inj_on_of_nodup_map hnodup hch' hmem (UInt32.toNat_inj.mp (hid'.trans hid.symm))
  rw [hsame]

end Channels

section Afes
variable (hnodup : (cfg.afes.map (·.id)).Nodup)
include hnodup

/-- No two entries are for one AFE of the server, which has its own index for it. -/
theorem afe_of_map {n afe : Nat} {config : PdsConfigureUtils.AFEConfig} (hconfig : cfg.afe? n = some config)
    (hmap : Chunker.afeBoard2PLMap n = some afe) {config' : PdsConfigureUtils.AFEConfig} (hmem : config' ∈ cfg.afes)
    (hmap' : Chunker.afeBoard2PLMap config'.id.toNat = some afe) : config' = config := by
  have hkey : PdsConfigureUtils.afeId config = n := key_of_entry hconfig
  refine List.inj_on_of_nodup_map hnodup hmem (List.mem_of_find?_eq_some hconfig) (UInt32.toNat_inj.mp ?_)
  rw [TrimOffset.afeBoard2PLMap_inj hmap' hmap, Int.ofNat_inj.mp hkey]

theorem lastOf_gain {n afe : Nat} {config : PdsConfigureUtils.AFEConfig} (hconfig : cfg.afe? n = some config)
    (hmap : Chunker.afeBoard2PLMap n = some afe) :
    lastOf ((entries cfg.received).flatMap assignments) (.output (.gain afe)) = some config.attenuators := by
  have hkey : PdsConfigureUtils.afeId config = n := key_of_entry hconfig
  have hid : config.id.toNat = n := Int.ofNat_inj.mp hkey
  refine lastOf_unique (mem_gain.mpr ⟨_, List.mem_map.mpr ⟨config, List.mem_of_find?_eq_some hconfig, rfl⟩, ?_, rfl⟩) fun w hw => ?_
  · exact hid ▸ hmap
  · obtain ⟨config', hconfig', hmap', rfl⟩ := mem_gain.mp hw
    obtain ⟨config'', hmem, rfl⟩ := List.mem_map.mp hconfig'
    rw [afe_of_map hnodup hconfig hmap hmem hmap']

theorem lastOf_bias {n afe : Nat} {config : PdsConfigureUtils.AFEConfig} (hconfig : cfg.afe? n = some config)
    (hmap : Chunker.afeBoard2PLMap n = some afe) : lastOf ((entries cfg.received).flatMap assignments) (.output (.bias afe)) =
      if config.v_bias ≠ 0 then some config.v_bias else none := by
  have hkey : PdsConfigureUtils.afeId config = n := key_of_entry hconfig
  have hid : config.id.toNat = n := Int.ofNat_inj.mp hkey
  have hwhen (w : UInt32) (hw : (.output (.bias afe), w) ∈ (entries cfg.received).flatMap assignments) :
      config.v_bias ≠ 0 ∧ w = config.v_bias := by
    obtain ⟨config', hconfig', hmap', hne, rfl⟩ := mem_bias.mp hw
    obtain ⟨config'', hmem, rfl⟩ := List.mem_map.mp hconfig'
    rw [← afe_of_map hnodup hconfig hmap hmem hmap']
    exact ⟨hne, rfl⟩
  split
  next hne =>
    refine lastOf_unique (mem_bias.mpr ⟨_, List.mem_map.mpr ⟨config, List.mem_of_find?_eq_some hconfig, rfl⟩, ?_, hne, rfl⟩)
      fun w hw => (hwhen w hw).2
    exact hid ▸ hmap
  next hzero => exact lastOf_none fun w hw => hzero (hwhen w hw).1

end Afes

theorem lastOf_hv (hle : cfg.biasctrl ≤ 4095) :
    lastOf ((entries cfg.received).flatMap assignments) (.output .hv) = some cfg.biasctrl := by
  have hcode : BiasControl.codeOf cfg.received = some cfg.biasctrl := if_pos hle
  refine lastOf_unique (mem_hv.mpr hcode) fun w hw => ?_
  exact Option.some.inj ((mem_hv.mp hw).symm.trans hcode)

end DaphneZmq.Received
