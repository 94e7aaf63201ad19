import DaphneZmq.Theorems.AllChannels
import DaphneZmq.Theorems.Received
import DaphneZmq.Theorems.VgainOffsets

/-! What a point of a gain sweep makes of the board, from the anchors to the DACs: the sweep lays a seed over its default request, and
the server works off the entries of the request. -/

namespace DaphneZmq.SweepPoint
open Lib.Device Lib.Overlay
open Rejection (Setting Entry entries)
open DaphneZmq.Configuration Received

section Asked
open VgainSweep
variable {cfg : PdsConfigureUtils.ConfigureRequest} {args : Args} {rows : List AnchorRow} {vgain : Int} (h : Asked args rows vgain cfg)
include h

/-- A channel that is not one of the sweep keeps the defaults. -/
theorem others_default {channel : Int} (hchannel : channel ∉ CHANNEL_ORDER) {ch : PdsConfigureUtils.ChannelConfig}
    (hch : cfg.channel? channel = some ch) : ch.trim = 0 ∧ ch.offset = 2275 := by
  rw [h.others channel hchannel] at hch
  obtain ⟨n, -, rfl⟩ := List.mem_map.mp (List.mem_of_find?_eq_some hch)
  exact ⟨rfl, rfl⟩

theorem in_range (hmax : max args.offset_min args.offset_max ≤ 4095) :
    ∀ config ∈ cfg.received.channels, config.trim ≤ 4095 ∧ config.offset ≤ 4095 := by
  intro config hconfig
  obtain ⟨ch, hmem, rfl⟩ := List.mem_map.mp hconfig
  have hch := channel_of_mem h.channels_nodup hmem
  by_cases hordered : PdsConfigureUtils.channelId ch ∈ CHANNEL_ORDER
  · obtain ⟨ch', hch', htrim, -, hsettled⟩ := h.ordered _ hordered
    rw [hch] at hch'
    cases hch'
    have hle := hsettled.le_max
    refine ⟨htrim ▸ (by decide), UInt32.le_iff_toNat_le.mpr ?_⟩
    show ch.offset.toNat ≤ 4095
    omega
  · obtain ⟨htrim, hoffset⟩ := others_default h hordered hch
    exact ⟨htrim ▸ (by decide), hoffset ▸ (by decide)⟩

end Asked

variable {b : Board} {s t : ServerState}

end DaphneZmq.SweepPoint
