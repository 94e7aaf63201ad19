import DaphneZmq.Ads7138

/-! # When the frames of the ADS7138 are read whole

A frame has fewer bytes than the loop reads as soon as their number does not fit in a byte. -/

namespace DaphneZmq.Ads7138
open Lib.Checked LedSnrScan

variable {K : Type} [Double K] {driver : ADS7138_Driver} {numSamples : UInt8} {rawData : List UInt8}

/-- The driver throws, or it returns a value for each sample of each enabled channel, each from its two bytes of the
    stream; no index is outside the raw bytes. -/
def Decodes (K : Type) [Double K] (driver : ADS7138_Driver) (numSamples : UInt8) : Prop :=
  Safe (fun values : List K => values.length = numSamples.toNat * numEnabledChannels driver ∧
    ∀ i < numSamples.toNat * numEnabledChannels driver, values[i]? =
      some (voltage (sampleOf (driver.ADC_ADS7138.stream (2 * i)) (driver.ADC_ADS7138.stream (2 * i + 1)))))
    (readData driver numSamples)

theorem bytesToRead_eq : bytesToRead driver numSamples = 2 * (numSamples.toNat * numEnabledChannels driver) := Nat.mul_comm _ _

theorem parseAt_cases (rawData : List UInt8) (i : Nat) :
    (∃ x : K, parseAt rawData i = .ok x) ∨ (parseAt rawData i : Prog K) = .error .outOfRange := by
  rw [parseAt]
  rcases read_cases rawData i with ⟨hi, hhi⟩ | hfault
  · rcases read_cases rawData (i + 1 : Nat) with ⟨lo, hlo⟩ | hfault
    · rw [hhi, hlo]
      exact .inl ⟨_, rfl⟩
    · rw [hhi, hfault]
      exact .inr rfl
  · rw [hfault]
    exact .inr rfl

theorem getElem?_stream {stream : Nat → UInt8} {n i : Nat} (h : i < n) :
    ((List.range n).map stream)[i]? = some (stream i) := by
  rw [List.getElem?_map, List.getElem?_range h, Option.map_some]

theorem parseAt_stream {stream : Nat → UInt8} {n i : Nat} (h : i + 1 < n) :
    (parseAt ((List.range n).map stream) i : Prog K) = .ok (voltage (sampleOf (stream i) (stream (i + 1)))) := by
  rw [parseAt, read_ok (getElem?_stream (Nat.lt_of_succ_lt h)), read_ok (getElem?_stream h)]
  rfl

/-- A frame that is read whole, or not at all. -/
theorem decodes_of_fits (h : bytesToRead driver numSamples ≤ 255) : Decodes K driver numSamples := by
  rw [Decodes, readData]
  split
  · exact .thrown _
  split
  · exact .thrown _
  rw [readFrame]
  split
  · have hnum : (UInt8.ofNat (bytesToRead driver numSamples)).toNat =
        2 * (numSamples.toNat * numEnabledChannels driver) := by
      rw [UInt8.toNat_ofNat', Nat.mod_eq_of_lt (by omega), bytesToRead_eq]
    have hloop : ∀ i ∈ (List.range (numSamples.toNat * numEnabledChannels driver)).map (2 * ·),
        (parseAt ((List.range (UInt8.ofNat (bytesToRead driver numSamples)).toNat).map driver.ADC_ADS7138.stream) i : Prog K) =
          .ok (voltage (sampleOf (driver.ADC_ADS7138.stream i) (driver.ADC_ADS7138.stream (i + 1)))) := by
      intro i hi
      obtain ⟨k, hk, rfl⟩ := List.mem_map.mp hi
      rw [List.mem_range] at hk
      exact parseAt_stream (by rw [hnum]; omega)
    refine .bind (.ok rfl) ?_
    rintro _ rfl
    rw [mapM_ok hloop]
    refine .ok ⟨by simp, fun i hi => ?_⟩
    rw [List.getElem?_map, List.getElem?_map, List.getElem?_range hi]
    rfl
  · exact .thrown _

theorem decodes_of_throws (h : driver.ADC_ADS7138.gives (bytesToRead driver numSamples % 256) = false) :
    Decodes K driver numSamples := by
  rw [Decodes, readData]
  split
  · exact .thrown _
  split
  · exact .thrown _
  rw [readFrame, UInt8.toNat_ofNat', h]
  exact .thrown _

/-- A frame with too few bytes. -/
theorem not_decodes (hlong : 255 < bytesToRead driver numSamples)
    (hgives : driver.ADC_ADS7138.gives (bytesToRead driver numSamples % 256) = true) : ¬Decodes K driver numSamples := by
  have hbytes : bytesToRead driver numSamples = 2 * (numSamples.toNat * numEnabledChannels driver) := bytesToRead_eq
  have hsamples : numSamples ≠ 0 := by
    rintro rfl
    rw [hbytes] at hlong
    simp at hlong
  have hchannels : numEnabledChannels driver ≠ 0 := by
    intro hzero
    rw [hbytes, hzero] at hlong
    simp at hlong
  have hfault : (readData driver numSamples : Prog (List K)) = .error .outOfRange := by
    rw [readData, if_neg hsamples, if_neg hchannels, readFrame, UInt8.toNat_ofNat', hgives, if_pos rfl]
    -- the first index past the end is even, as all indices of the loop are
    refine mapM_eq_outOfRange (fun i _ => parseAt_cases _ i) ⟨bytesToRead driver numSamples % 256, ?_, ?_⟩
    · refine List.mem_map.mpr ⟨bytesToRead driver numSamples % 256 / 2, List.mem_range.mpr (by omega), ?_⟩
      show 2 * (bytesToRead driver numSamples % 256 / 2) = bytesToRead driver numSamples % 256
      omega
    · rw [parseAt, read_past (by simp)]
      rfl
  exact fun hdecodes => hdecodes.ne_outOfRange hfault

/-- The frame is decoded as it should be exactly if its bytes can be counted in a byte, or the device does not give as many
    as are asked for. -/
theorem decodes_iff (K : Type) [Double K] (driver : ADS7138_Driver) (numSamples : UInt8) :
    Decodes K driver numSamples ↔ numSamples.toNat * numEnabledChannels driver * 2 ≤ 255 ∨
      driver.ADC_ADS7138.gives (bytesToRead driver numSamples % 256) = false := by
  constructor
  · intro hdecodes
    by_contra hnot
    obtain ⟨hlong, hgives⟩ := not_or.mp hnot
    exact not_decodes (Nat.lt_of_not_le hlong) (Bool.of_not_eq_false hgives) hdecodes
  · rintro (hfits | hthrows)
    · exact decodes_of_fits hfits
    · exact decodes_of_throws hthrows

/-- Eight channels of a device that gives all it is asked for. -/
def allChannels : ADS7138_Driver where
  ADC_ADS7138 := { devicePath := "/dev/i2c-1", deviceAddress := 0x10, gives := fun _ => true, stream := fun _ => 0 }
  enabled_channels := List.replicate 8 true

/-- Of the 272 bytes of 17 samples the frame has 16, and the loop goes on behind them. -/
theorem allChannels_not_decodes : ¬(∀ (driver : ADS7138_Driver) (numSamples : UInt8), 1 ≤ numSamples →
    Decodes Float driver numSamples) := fun h =>
  not_decodes (show 255 < bytesToRead allChannels 17 by decide) rfl (h allChannels 17 (by decide))

end DaphneZmq.Ads7138
