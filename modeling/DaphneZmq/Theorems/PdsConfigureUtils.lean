import DaphneZmq.PdsConfigureUtils

/-! # What a seed leaves of the default request

Each field of a named channel or AFE takes the value of its own list at the position of the name, or keeps the default
where the list is too short, is null or is missing. -/

namespace DaphneZmq.PdsConfigureUtils
open Lib.Overlay

variable {X : Type} {lib : Library X} {values : Option (List (Value X))} {idx : Nat}

/-! ### One field -/

/-- A field takes the value of its list at a position, and its default where the list does not reach the position. -/
def Takes {β : Type} (conv : Value X → Except Raised β) (values : Option (List (Value X))) (idx : Nat) (default b : β) :
    Prop :=
  match values.bind fun values => values[idx]? with
  | some v => conv v = .ok b
  | none => b = default

theorem maybeGet_cases (values : Option (List (Value X))) (idx : Nat) :
    (∃ v, (values.bind fun values => values[idx]?) = some v ∧ ∀ d, maybeGet values idx d = v) ∨
      (values.bind fun values => values[idx]?) = none ∧ ∀ d, maybeGet values idx d = d := by
  cases values with
  | none => exact .inr ⟨rfl, fun _ => rfl⟩
  | some values =>
    rcases hv : values[idx]? with - | v
    · exact .inr ⟨hv, fun d => by rw [maybeGet, hv, Option.getD_none]⟩
    · exact .inl ⟨v, hv, fun d => by rw [maybeGet, hv, Option.getD_some]⟩

theorem inRange_toNat {w : Nat} (x : BitVec w) : inRange w x.toNat = .ok x := by
  have hlt : (x.toNat : Int) < 2 ^ w := by exact_mod_cast x.isLt
  rw [inRange, if_pos ⟨Int.natCast_nonneg _, hlt⟩, BitVec.ofInt_natCast, BitVec.ofNat_toNat, BitVec.setWidth_eq]

theorem uint32_toNat (x : UInt32) : uint32 lib (.int x.toNat) = .ok x := by
  rw [uint32, assign, ← UInt32.toNat_toBitVec, inRange_toNat]
  rfl

theorem uint64_toNat (x : UInt64) : uint64 lib (.int x.toNat) = .ok x := by
  rw [uint64, assign, ← UInt64.toNat_toBitVec, inRange_toNat]
  rfl

theorem toBool_bool (b : Bool) : toBool lib (.bool b) = b := rfl

theorem maybeGet32_takes {d b : UInt32} (h : maybeGet32 lib values idx d = .ok b) : Takes (uint32 lib) values idx d b := by
  rw [maybeGet32] at h
  rcases maybeGet_cases values idx with ⟨v, hv, hget⟩ | ⟨hnone, hget⟩
  · rw [hget] at h
    simpa only [Takes, hv] using h
  · rw [hget, uint32_toNat] at h
    cases h
    simp only [Takes, hnone]

theorem maybeGetBool_takes (d : Bool) :
    Takes (fun v => .ok (toBool lib v)) values idx d (maybeGetBool lib values idx d) := by
  rw [maybeGetBool]
  rcases maybeGet_cases values idx with ⟨v, hv, hget⟩ | ⟨hnone, hget⟩
  · simp only [Takes, hv, hget]
  · simp only [Takes, hnone, hget, toBool_bool]

/-- A field that has been taken is taken again. -/
theorem maybeGet32_again {d b : UInt32} (h : maybeGet32 lib values idx d = .ok b) : maybeGet32 lib values idx b = .ok b := by
  rw [maybeGet32] at h ⊢
  rcases maybeGet_cases values idx with ⟨v, -, hget⟩ | ⟨-, hget⟩
  · rwa [hget] at h ⊢
  · rw [hget, uint32_toNat]

theorem maybeGetBool_again (d : Bool) :
    maybeGetBool lib values idx (maybeGetBool lib values idx d) = maybeGetBool lib values idx d := by
  rw [maybeGetBool, maybeGetBool]
  rcases maybeGet_cases values idx with ⟨v, -, hget⟩ | ⟨-, hget⟩
  · rw [hget, hget]
  · rw [hget, hget, toBool_bool]

theorem given32_again {value : Option (Value X)} {d b : UInt32} (h : given32 lib value d = .ok b) :
    given32 lib value b = .ok b := by
  cases value with
  | none => exact uint32_toNat b
  | some v => exact h

theorem given64_again {value : Option (Value X)} {d b : UInt64} (h : given64 lib value d = .ok b) :
    given64 lib value b = .ok b := by
  cases value with
  | none => exact uint64_toNat b
  | some v => exact h

/-! ### Submessages -/

section
variable {α : Type} {new : α} {set : α → Except Raised α} {m m' : Option α}

/-- A list that is missing changes nothing, so that the fields read as if it had been used. -/
theorem whenGiven_ok (hnone : values = none → ∀ a, set a = .ok a) (h : whenGiven values new set m = .ok m') :
    set (m.getD new) = .ok (m'.getD new) ∧ (values.isSome → m'.isSome) ∧ (m.isSome → m'.isSome) := by
  cases values with
  | none =>
    cases h
    exact ⟨hnone rfl _, (fun h => absurd h Bool.false_ne_true), id⟩
  | some values =>
    rcases hset : set (m.getD new) with e | a
    · rw [whenGiven, hset] at h
      cases h
    · rw [whenGiven, hset] at h
      cases h
      exact ⟨rfl, fun _ => rfl, fun _ => rfl⟩

theorem whenGiven_fixed (hgiven : values.isSome → m.isSome) (hset : set (m.getD new) = .ok (m.getD new)) :
    whenGiven values new set m = .ok m := by
  cases values with
  | none => rfl
  | some values =>
    obtain ⟨a, rfl⟩ := Option.isSome_iff_exists.mp (hgiven rfl)
    rw [whenGiven, hset]
    rfl

end

variable {lists : AfeLists X}

theorem maybeGet32_none (d : UInt32) (h : values = none) : maybeGet32 lib values idx d = .ok d := by
  rw [h, maybeGet32, maybeGet, uint32_toNat]

theorem maybeGetBool_none (d : Bool) (h : values = none) : maybeGetBool lib values idx d = d := by
  rw [h, maybeGetBool, maybeGet, toBool_bool]

/-- The fields of a submessage, as they read before and after its overlay. -/
structure AdcTaken (lib : Library X) (lists : AfeLists X) (idx : Nat) (adc adc' : Option ADCConfig) : Prop where
  resolution : (adc'.getD ADCConfig.new).resolution = maybeGetBool lib lists.adc_res idx (adc.getD ADCConfig.new).resolution
  output_format : (adc'.getD ADCConfig.new).output_format =
    maybeGetBool lib lists.adc_fmt idx (adc.getD ADCConfig.new).output_format
  sb_first : (adc'.getD ADCConfig.new).sb_first = maybeGetBool lib lists.adc_sb idx (adc.getD ADCConfig.new).sb_first
  given : lists.adc_res.isSome ∨ lists.adc_fmt.isSome ∨ lists.adc_sb.isSome → adc'.isSome

theorem overlayAdc_ok {adc adc' : Option ADCConfig} (h : overlayAdc lib lists idx adc = .ok adc') :
    AdcTaken lib lists idx adc adc' := by
  obtain ⟨adc₁, h₁, h⟩ := bind_eq_ok.mp h
  obtain ⟨adc₂, h₂, h₃⟩ := bind_eq_ok.mp h
  obtain ⟨hset₁, hgiven₁, -⟩ := whenGiven_ok (fun hnone adc => by rw [maybeGetBool_none _ hnone]) h₁
  obtain ⟨hset₂, hgiven₂, hkept₂⟩ := whenGiven_ok (fun hnone adc => by rw [maybeGetBool_none _ hnone]) h₂
  obtain ⟨hset₃, hgiven₃, hkept₃⟩ := whenGiven_ok (fun hnone adc => by rw [maybeGetBool_none _ hnone]) h₃
  have h₁ := Except.ok.inj hset₁
  have h₂ := Except.ok.inj hset₂
  have h₃ := Except.ok.inj hset₃
  refine ⟨?_, ?_, ?_, ?_⟩
  · rw [← h₃, ← h₂, ← h₁]
  · rw [← h₃, ← h₂, ← h₁]
  · rw [← h₃, ← h₂, ← h₁]
  · rintro (hres | hfmt | hsb)
    · exact hkept₃ (hkept₂ (hgiven₁ hres))
    · exact hkept₃ (hgiven₂ hfmt)
    · exact hgiven₃ hsb

theorem AdcTaken.again {adc adc' : Option ADCConfig} (h : AdcTaken lib lists idx adc adc') :
    overlayAdc lib lists idx adc' = .ok adc' := by
  have hres : maybeGetBool lib lists.adc_res idx (adc'.getD ADCConfig.new).resolution =
      (adc'.getD ADCConfig.new).resolution := by rw [h.resolution, maybeGetBool_again]
  have hfmt : maybeGetBool lib lists.adc_fmt idx (adc'.getD ADCConfig.new).output_format =
      (adc'.getD ADCConfig.new).output_format := by rw [h.output_format, maybeGetBool_again]
  have hsb : maybeGetBool lib lists.adc_sb idx (adc'.getD ADCConfig.new).sb_first =
      (adc'.getD ADCConfig.new).sb_first := by rw [h.sb_first, maybeGetBool_again]
  refine bind_eq_ok.mpr ⟨adc', whenGiven_fixed (fun hs => h.given (.inl hs)) (by rw [hres]), ?_⟩
  refine bind_eq_ok.mpr ⟨adc', whenGiven_fixed (fun hs => h.given (.inr (.inl hs))) (by rw [hfmt]), ?_⟩
  exact whenGiven_fixed (fun hs => h.given (.inr (.inr hs))) (by rw [hsb])

structure PgaTaken (lib : Library X) (lists : AfeLists X) (idx : Nat) (pga pga' : Option PGAConfig) : Prop where
  lpf_cut_frequency : maybeGet32 lib lists.pga_cut idx (pga.getD PGAConfig.new).lpf_cut_frequency =
    .ok (pga'.getD PGAConfig.new).lpf_cut_frequency
  integrator_disable : (pga'.getD PGAConfig.new).integrator_disable =
    maybeGetBool lib lists.pga_int idx (pga.getD PGAConfig.new).integrator_disable
  gain : (pga'.getD PGAConfig.new).gain = maybeGetBool lib lists.pga_gain idx (pga.getD PGAConfig.new).gain
  given : lists.pga_cut.isSome ∨ lists.pga_int.isSome ∨ lists.pga_gain.isSome → pga'.isSome

theorem overlayPga_ok {pga pga' : Option PGAConfig} (h : overlayPga lib lists idx pga = .ok pga') :
    PgaTaken lib lists idx pga pga' := by
  obtain ⟨pga₁, h₁, h⟩ := bind_eq_ok.mp h
  obtain ⟨pga₂, h₂, h₃⟩ := bind_eq_ok.mp h
  obtain ⟨hset₁, hgiven₁, -⟩ := whenGiven_ok (fun hnone pga => by rw [maybeGet32_none _ hnone]; rfl) h₁
  obtain ⟨hset₂, hgiven₂, hkept₂⟩ := whenGiven_ok (fun hnone pga => by rw [maybeGetBool_none _ hnone]) h₂
  obtain ⟨hset₃, hgiven₃, hkept₃⟩ := whenGiven_ok (fun hnone pga => by rw [maybeGetBool_none _ hnone]) h₃
  obtain ⟨cut, hcut, hset₁⟩ := bind_eq_ok.mp hset₁
  have h₁ := Except.ok.inj hset₁
  have h₂ := Except.ok.inj hset₂
  have h₃ := Except.ok.inj hset₃
  refine ⟨?_, ?_, ?_, ?_⟩
  · rw [← h₃, ← h₂, ← h₁, hcut]
  · rw [← h₃, ← h₂, ← h₁]
  · rw [← h₃, ← h₂, ← h₁]
  · rintro (hcut | hint | hgain)
    · exact hkept₃ (hkept₂ (hgiven₁ hcut))
    · exact hkept₃ (hgiven₂ hint)
    · exact hgiven₃ hgain

theorem PgaTaken.again {pga pga' : Option PGAConfig} (h : PgaTaken lib lists idx pga pga') :
    overlayPga lib lists idx pga' = .ok pga' := by
  have hcut := maybeGet32_again h.lpf_cut_frequency
  have hint : maybeGetBool lib lists.pga_int idx (pga'.getD PGAConfig.new).integrator_disable =
      (pga'.getD PGAConfig.new).integrator_disable := by rw [h.integrator_disable, maybeGetBool_again]
  have hgain : maybeGetBool lib lists.pga_gain idx (pga'.getD PGAConfig.new).gain = (pga'.getD PGAConfig.new).gain := by
    rw [h.gain, maybeGetBool_again]
  refine bind_eq_ok.mpr ⟨pga', whenGiven_fixed (fun hs => h.given (.inl hs)) (by rw [hcut]; rfl), ?_⟩
  refine bind_eq_ok.mpr ⟨pga', whenGiven_fixed (fun hs => h.given (.inr (.inl hs))) (by rw [hint]), ?_⟩
  exact whenGiven_fixed (fun hs => h.given (.inr (.inr hs))) (by rw [hgain])

structure LnaTaken (lib : Library X) (lists : AfeLists X) (idx : Nat) (lna lna' : Option LNAConfig) : Prop where
  clamp : maybeGet32 lib lists.lna_clamp idx (lna.getD LNAConfig.new).clamp = .ok (lna'.getD LNAConfig.new).clamp
  gain : maybeGet32 lib lists.lna_gain idx (lna.getD LNAConfig.new).gain = .ok (lna'.getD LNAConfig.new).gain
  integrator_disable : (lna'.getD LNAConfig.new).integrator_disable =
    maybeGetBool lib lists.lna_int idx (lna.getD LNAConfig.new).integrator_disable
  given : lists.lna_clamp.isSome ∨ lists.lna_gain.isSome ∨ lists.lna_int.isSome → lna'.isSome

theorem overlayLna_ok {lna lna' : Option LNAConfig} (h : overlayLna lib lists idx lna = .ok lna') :
    LnaTaken lib lists idx lna lna' := by
  obtain ⟨lna₁, h₁, h⟩ := bind_eq_ok.mp h
  obtain ⟨lna₂, h₂, h₃⟩ := bind_eq_ok.mp h
  obtain ⟨hset₁, hgiven₁, -⟩ := whenGiven_ok (fun hnone lna => by rw [maybeGet32_none _ hnone]; rfl) h₁
  obtain ⟨hset₂, hgiven₂, hkept₂⟩ := whenGiven_ok (fun hnone lna => by rw [maybeGet32_none _ hnone]; rfl) h₂
  obtain ⟨hset₃, hgiven₃, hkept₃⟩ := whenGiven_ok (fun hnone lna => by rw [maybeGetBool_none _ hnone]) h₃
  obtain ⟨clamp, hclamp, hset₁⟩ := bind_eq_ok.mp hset₁
  obtain ⟨gain, hgain, hset₂⟩ := bind_eq_ok.mp hset₂
  have h₁ := Except.ok.inj hset₁
  have h₂ := Except.ok.inj hset₂
  have h₃ := Except.ok.inj hset₃
  refine ⟨?_, ?_, ?_, ?_⟩
  · rw [← h₃, ← h₂, ← h₁, hclamp]
  · rw [← h₁] at hgain
    rw [← h₃, ← h₂, hgain]
  · rw [← h₃, ← h₂, ← h₁]
  · rintro (hclamp | hgain | hint)
    · exact hkept₃ (hkept₂ (hgiven₁ hclamp))
    · exact hkept₃ (hgiven₂ hgain)
    · exact hgiven₃ hint

theorem LnaTaken.again {lna lna' : Option LNAConfig} (h : LnaTaken lib lists idx lna lna') :
    overlayLna lib lists idx lna' = .ok lna' := by
  have hclamp := maybeGet32_again h.clamp
  have hgain := maybeGet32_again h.gain
  have hint : maybeGetBool lib lists.lna_int idx (lna'.getD LNAConfig.new).integrator_disable =
      (lna'.getD LNAConfig.new).integrator_disable := by rw [h.integrator_disable, maybeGetBool_again]
  refine bind_eq_ok.mpr ⟨lna', whenGiven_fixed (fun hs => h.given (.inl hs)) (by rw [hclamp]; rfl), ?_⟩
  refine bind_eq_ok.mpr ⟨lna', whenGiven_fixed (fun hs => h.given (.inr (.inl hs))) (by rw [hgain]; rfl), ?_⟩
  exact whenGiven_fixed (fun hs => h.given (.inr (.inr hs))) (by rw [hint])

/-! ### Channels and AFEs -/

/-- The fields of a channel are those of its default `d`, each overlaid with the own list at a position. -/
structure ChannelTakes (lib : Library X) (lists : ChannelLists X) (idx : Nat) (d ch : ChannelConfig) : Prop where
  offset : Takes (uint32 lib) lists.offsets idx d.offset ch.offset
  trim : Takes (uint32 lib) lists.trims idx d.trim ch.trim
  gain : Takes (uint32 lib) lists.gains idx d.gain ch.gain

theorem overlayChannel_ok {lists : ChannelLists X} {d ch : ChannelConfig} (h : overlayChannel lib lists idx d = .ok ch) :
    ch.id = d.id ∧ ChannelTakes lib lists idx d ch ∧ overlayChannel lib lists idx ch = .ok ch := by
  obtain ⟨offset, hoffset, h⟩ := bind_eq_ok.mp h
  obtain ⟨trim, htrim, h⟩ := bind_eq_ok.mp h
  obtain ⟨gain, hgain, h⟩ := bind_eq_ok.mp h
  cases h
  refine ⟨rfl, ⟨maybeGet32_takes hoffset, maybeGet32_takes htrim, maybeGet32_takes hgain⟩, ?_⟩
  refine bind_eq_ok.mpr ⟨_, maybeGet32_again hoffset, ?_⟩
  refine bind_eq_ok.mpr ⟨_, maybeGet32_again htrim, ?_⟩
  exact bind_eq_ok.mpr ⟨_, maybeGet32_again hgain, rfl⟩

/-- The lists of the submessages are used if the seed is preferred for them. -/
def common (prefer_seed_common : Bool) (values : Option (List (Value X))) : Option (List (Value X)) :=
  if prefer_seed_common then values else none

/-- What `bool(value)` stores. -/
def bool (lib : Library X) (value : Value X) : Except Raised Bool := .ok (toBool lib value)

structure AfeTakes (lib : Library X) (prefer_seed_common : Bool) (lists : AfeLists X) (idx : Nat) (d afe : AFEConfig) :
    Prop where
  attenuators : Takes (uint32 lib) lists.attenuators idx d.attenuators afe.attenuators
  v_bias : Takes (uint32 lib) lists.v_biases idx d.v_bias afe.v_bias
  resolution : Takes (bool lib) (common prefer_seed_common lists.adc_res) idx (d.adc.getD ADCConfig.new).resolution
    (afe.adc.getD ADCConfig.new).resolution
  output_format : Takes (bool lib) (common prefer_seed_common lists.adc_fmt) idx (d.adc.getD ADCConfig.new).output_format
    (afe.adc.getD ADCConfig.new).output_format
  sb_first : Takes (bool lib) (common prefer_seed_common lists.adc_sb) idx (d.adc.getD ADCConfig.new).sb_first
    (afe.adc.getD ADCConfig.new).sb_first
  lpf_cut_frequency : Takes (uint32 lib) (common prefer_seed_common lists.pga_cut) idx
    (d.pga.getD PGAConfig.new).lpf_cut_frequency (afe.pga.getD PGAConfig.new).lpf_cut_frequency
  pga_integrator_disable : Takes (bool lib) (common prefer_seed_common lists.pga_int) idx
    (d.pga.getD PGAConfig.new).integrator_disable (afe.pga.getD PGAConfig.new).integrator_disable
  pga_gain : Takes (bool lib) (common prefer_seed_common lists.pga_gain) idx (d.pga.getD PGAConfig.new).gain
    (afe.pga.getD PGAConfig.new).gain
  clamp : Takes (uint32 lib) (common prefer_seed_common lists.lna_clamp) idx (d.lna.getD LNAConfig.new).clamp
    (afe.lna.getD LNAConfig.new).clamp
  lna_gain : Takes (uint32 lib) (common prefer_seed_common lists.lna_gain) idx (d.lna.getD LNAConfig.new).gain
    (afe.lna.getD LNAConfig.new).gain
  lna_integrator_disable : Takes (bool lib) (common prefer_seed_common lists.lna_int) idx
    (d.lna.getD LNAConfig.new).integrator_disable (afe.lna.getD LNAConfig.new).integrator_disable

theorem takes_bool {values : Option (List (Value X))} {d b : Bool} (h : b = maybeGetBool lib values idx d) :
    Takes (bool lib) values idx d b := h ▸ maybeGetBool_takes d

theorem overlayAfe_common_ok {d afe : AFEConfig} (h : overlayAfe lib true lists idx d = .ok afe) :
    afe.id = d.id ∧ AfeTakes lib true lists idx d afe ∧ overlayAfe lib true lists idx afe = .ok afe := by
  obtain ⟨attenuators, hattenuators, h⟩ := bind_eq_ok.mp h
  obtain ⟨v_bias, hbias, h⟩ := bind_eq_ok.mp h
  obtain ⟨adc, hadc, h⟩ := bind_eq_ok.mp h
  obtain ⟨pga, hpga, h⟩ := bind_eq_ok.mp h
  obtain ⟨lna, hlna, h⟩ := bind_eq_ok.mp h
  cases h
  have hadc := overlayAdc_ok hadc
  have hpga := overlayPga_ok hpga
  have hlna := overlayLna_ok hlna
  refine ⟨rfl, ?_, ?_⟩
  · exact {
      attenuators := maybeGet32_takes hattenuators
      v_bias := maybeGet32_takes hbias
      resolution := takes_bool hadc.resolution
      output_format := takes_bool hadc.output_format
      sb_first := takes_bool hadc.sb_first
      lpf_cut_frequency := maybeGet32_takes hpga.lpf_cut_frequency
      pga_integrator_disable := takes_bool hpga.integrator_disable
      pga_gain := takes_bool hpga.gain
      clamp := maybeGet32_takes hlna.clamp
      lna_gain := maybeGet32_takes hlna.gain
      lna_integrator_disable := takes_bool hlna.integrator_disable }
  · refine bind_eq_ok.mpr ⟨_, maybeGet32_again hattenuators, ?_⟩
    refine bind_eq_ok.mpr ⟨_, maybeGet32_again hbias, ?_⟩
    refine bind_eq_ok.mpr ⟨_, hadc.again, ?_⟩
    refine bind_eq_ok.mpr ⟨_, hpga.again, ?_⟩
    exact bind_eq_ok.mpr ⟨_, hlna.again, rfl⟩

theorem takes_none {β : Type} {conv : Value X → Except Raised β} (d : β) : Takes conv (common false values) idx d d := rfl

theorem overlayAfe_own_ok {d afe : AFEConfig} (h : overlayAfe lib false lists idx d = .ok afe) :
    afe.id = d.id ∧ AfeTakes lib false lists idx d afe ∧ overlayAfe lib false lists idx afe = .ok afe := by
  obtain ⟨attenuators, hattenuators, h⟩ := bind_eq_ok.mp h
  obtain ⟨v_bias, hbias, h⟩ := bind_eq_ok.mp h
  cases h
  refine ⟨rfl, ?_, ?_⟩
  · exact ⟨maybeGet32_takes hattenuators, maybeGet32_takes hbias, takes_none _, takes_none _, takes_none _, takes_none _,
      takes_none _, takes_none _, takes_none _, takes_none _, takes_none _⟩
  · refine bind_eq_ok.mpr ⟨_, maybeGet32_again hattenuators, ?_⟩
    exact bind_eq_ok.mpr ⟨_, maybeGet32_again hbias, rfl⟩

theorem overlayAfe_ok {prefer_seed_common : Bool} {d afe : AFEConfig}
    (h : overlayAfe lib prefer_seed_common lists idx d = .ok afe) :
    afe.id = d.id ∧ AfeTakes lib prefer_seed_common lists idx d afe ∧
      overlayAfe lib prefer_seed_common lists idx afe = .ok afe := by
  cases prefer_seed_common
  · exact overlayAfe_own_ok h
  · exact overlayAfe_common_ok h

theorem toNat_of_inRange {w : Nat} {n : Int} {x : BitVec w} (h : inRange w n = .ok x) : (x.toNat : Int) = n := by
  rw [inRange] at h
  split at h
  · next hn =>
    cases h
    rw [BitVec.toNat_ofInt, Int.toNat_of_nonneg (Int.emod_nonneg _ (by exact_mod_cast (Nat.two_pow_pos w).ne'))]
    exact Int.emod_eq_of_lt hn.1 (by exact_mod_cast hn.2)
  · cases h

theorem keyed_channels (lists : ChannelLists X) : Keyed channelId newChannel (overlayChannel lib lists) where
  blank {k ch} h := by
    obtain ⟨id, hid, h⟩ := bind_eq_ok.mp h
    cases h
    exact toNat_of_inRange hid
  update {i d ch} h := by rw [channelId, channelId, (overlayChannel_ok h).1]

theorem keyed_afes (prefer_seed_common : Bool) (lists : AfeLists X) :
    Keyed afeId newAfe (overlayAfe lib prefer_seed_common lists) where
  blank {k afe} h := by
    obtain ⟨id, hid, h⟩ := bind_eq_ok.mp h
    cases h
    exact toNat_of_inRange hid
  update {i d afe} h := by rw [afeId, afeId, (overlayAfe_ok h).1]

/-! ### The request -/

/-- What an entry that may be missing stands for. -/
def Entry.read {α : Type} (default : α) (e : Entry α) : α := (e.get default).getD default

def Seed.chanCfg (seed_cfg : Seed X) : ChannelAnalogConf X := seed_cfg.channel_analog_conf.read {}

def Seed.chIds (seed_cfg : Seed X) : List (Value X) := seed_cfg.chanCfg.ids.read []

def Seed.afesCfg (seed_cfg : Seed X) : Afes X := seed_cfg.afes.read {}

def Seed.afeIds (seed_cfg : Seed X) : List (Value X) := seed_cfg.afesCfg.ids.read []

def Seed.afeLists (seed_cfg : Seed X) : AfeLists X :=
  PdsConfigureUtils.afeLists seed_cfg.afesCfg (seed_cfg.afesCfg.adcs.read {}) (seed_cfg.afesCfg.pgas.read {})
    (seed_cfg.afesCfg.lnas.read {})

theorem read_of_required {α : Type} {raised : Raised} {default a : α} {e : Entry α}
    (h : required raised (e.get default) = .ok a) : a = e.read default ∧ e.get default = some a := by
  rw [Entry.read]
  rcases hget : e.get default with - | b
  · rw [hget] at h
    cases h
  · rw [hget] at h
    cases h
    exact ⟨rfl, rfl⟩

/-- The dictionaries and the lists of ids are not null. -/
structure Seed.Present (seed_cfg : Seed X) : Prop where
  chan_cfg : seed_cfg.channel_analog_conf.get {} = some seed_cfg.chanCfg
  ch_ids : seed_cfg.chanCfg.ids.get [] = some seed_cfg.chIds
  afes : seed_cfg.afes.get {} = some seed_cfg.afesCfg
  adcs : seed_cfg.afesCfg.adcs.get {} = some (seed_cfg.afesCfg.adcs.read {})
  pgas : seed_cfg.afesCfg.pgas.get {} = some (seed_cfg.afesCfg.pgas.read {})
  lnas : seed_cfg.afesCfg.lnas.get {} = some (seed_cfg.afesCfg.lnas.read {})
  afe_ids : seed_cfg.afesCfg.ids.get [] = some seed_cfg.afeIds

/-- How a request comes from a seed and its default, field by field. -/
structure Built (lib : Library X) (seed_cfg : Seed X) (prefer_seed_common : Bool) (d cfg : ConfigureRequest) : Prop where
  present : seed_cfg.Present
  daphne_address : cfg.daphne_address = d.daphne_address
  slot : given32 lib seed_cfg.slot_id d.slot = .ok cfg.slot
  timeout_ms : cfg.timeout_ms = d.timeout_ms
  biasctrl : given32 lib seed_cfg.bias_ctrl d.biasctrl = .ok cfg.biasctrl
  threshold : given64 lib seed_cfg.self_trigger_threshold d.self_trigger_threshold = .ok cfg.self_trigger_threshold
  xcorr : given64 lib seed_cfg.self_trigger_xcorr d.self_trigger_xcorr = .ok cfg.self_trigger_xcorr
  tp_conf : given64 lib seed_cfg.tp_conf d.tp_conf = .ok cfg.tp_conf
  compensator : given64 lib seed_cfg.compensator d.compensator = .ok cfg.compensator
  inverters : given64 lib (seed_cfg.inverter.or seed_cfg.inverters) d.inverters = .ok cfg.inverters
  full_stream_channels : fullStreamChannels lib seed_cfg = .ok cfg.full_stream_channels
  channels : overlay (toInt lib) ensureChannel (overlayChannel lib seed_cfg.chanCfg.lists) seed_cfg.chIds d.channels =
    .ok cfg.channels
  afes : overlay (toInt lib) ensureAfe (overlayAfe lib prefer_seed_common seed_cfg.afeLists) seed_cfg.afeIds d.afes =
    .ok cfg.afes

variable {seed_cfg : Seed X} {prefer_seed_common : Bool} {d cfg : ConfigureRequest}

theorem built_of_ok (h : buildRequestFromSeed lib seed_cfg d prefer_seed_common = .ok cfg) :
    Built lib seed_cfg prefer_seed_common d cfg := by
  obtain ⟨slot, hslot, h⟩ := bind_eq_ok.mp h
  obtain ⟨biasctrl, hbias, h⟩ := bind_eq_ok.mp h
  obtain ⟨threshold, hthreshold, h⟩ := bind_eq_ok.mp h
  obtain ⟨xcorr, hxcorr, h⟩ := bind_eq_ok.mp h
  obtain ⟨tp_conf, htp, h⟩ := bind_eq_ok.mp h
  obtain ⟨compensator, hcompensator, h⟩ := bind_eq_ok.mp h
  obtain ⟨inverters, hinverters, h⟩ := bind_eq_ok.mp h
  obtain ⟨stream, hstream, h⟩ := bind_eq_ok.mp h
  obtain ⟨chan_cfg, hchan, h⟩ := bind_eq_ok.mp h
  obtain ⟨rfl, hchan⟩ := read_of_required hchan
  obtain ⟨ch_ids, hids, h⟩ := bind_eq_ok.mp h
  obtain ⟨rfl, hids⟩ := read_of_required hids
  obtain ⟨channels, hchannels, h⟩ := bind_eq_ok.mp h
  obtain ⟨afes_cfg, hafes, h⟩ := bind_eq_ok.mp h
  obtain ⟨rfl, hafes⟩ := read_of_required hafes
  obtain ⟨adcs, hadcs, h⟩ := bind_eq_ok.mp h
  obtain ⟨rfl, hadcs⟩ := read_of_required hadcs
  obtain ⟨pgas, hpgas, h⟩ := bind_eq_ok.mp h
  obtain ⟨rfl, hpgas⟩ := read_of_required hpgas
  obtain ⟨lnas, hlnas, h⟩ := bind_eq_ok.mp h
  obtain ⟨rfl, hlnas⟩ := read_of_required hlnas
  obtain ⟨afe_ids, hafe_ids, h⟩ := bind_eq_ok.mp h
  obtain ⟨rfl, hafe_ids⟩ := read_of_required hafe_ids
  obtain ⟨afes, hoverlay, h⟩ := bind_eq_ok.mp h
  cases h
  exact ⟨⟨hchan, hids, hafes, hadcs, hpgas, hlnas, hafe_ids⟩, rfl, hslot, rfl, hbias, hthreshold, hxcorr, htp,
    hcompensator, hinverters, hstream, hchannels, hoverlay⟩

theorem Built.ok (h : Built lib seed_cfg prefer_seed_common d cfg) :
    buildRequestFromSeed lib seed_cfg d prefer_seed_common = .ok cfg := by
  have hp := h.present
  refine bind_eq_ok.mpr ⟨_, h.slot, bind_eq_ok.mpr ⟨_, h.biasctrl, bind_eq_ok.mpr ⟨_, h.threshold, ?_⟩⟩⟩
  refine bind_eq_ok.mpr ⟨_, h.xcorr, bind_eq_ok.mpr ⟨_, h.tp_conf, bind_eq_ok.mpr ⟨_, h.compensator, ?_⟩⟩⟩
  refine bind_eq_ok.mpr ⟨_, h.inverters, bind_eq_ok.mpr ⟨_, h.full_stream_channels, ?_⟩⟩
  refine bind_eq_ok.mpr ⟨_, by rw [hp.chan_cfg, deref, required], ?_⟩
  refine bind_eq_ok.mpr ⟨_, by rw [hp.ch_ids, iterable, required], ?_⟩
  refine bind_eq_ok.mpr ⟨_, h.channels, bind_eq_ok.mpr ⟨_, by rw [hp.afes, deref, required], ?_⟩⟩
  refine bind_eq_ok.mpr ⟨_, by rw [hp.adcs, deref, required], bind_eq_ok.mpr ⟨_, by rw [hp.pgas, deref, required], ?_⟩⟩
  refine bind_eq_ok.mpr ⟨_, by rw [hp.lnas, deref, required], ?_⟩
  refine bind_eq_ok.mpr ⟨_, by rw [hp.afe_ids, iterable, required], ?_⟩
  refine bind_eq_ok.mpr ⟨_, h.afes, ?_⟩
  rw [← h.daphne_address, ← h.timeout_ms]
  rfl

theorem Built.again (h : Built lib seed_cfg prefer_seed_common d cfg)
    (hch : seed_cfg.chIds.Pairwise fun v w => toInt lib v ≠ toInt lib w)
    (hafe : seed_cfg.afeIds.Pairwise fun v w => toInt lib v ≠ toInt lib w) :
    Built lib seed_cfg prefer_seed_common cfg cfg where
  present := h.present
  daphne_address := rfl
  slot := given32_again h.slot
  timeout_ms := rfl
  biasctrl := given32_again h.biasctrl
  threshold := given64_again h.threshold
  xcorr := given64_again h.xcorr
  tp_conf := given64_again h.tp_conf
  compensator := given64_again h.compensator
  inverters := given64_again h.inverters
  full_stream_channels := h.full_stream_channels
  channels := overlay_idempotent (keyed_channels _) (fun h => (overlayChannel_ok h).2.2) h.channels hch
  afes := overlay_idempotent (keyed_afes _ _) (fun h => (overlayAfe_ok h).2.2) h.afes hafe

def ConfigureRequest.channel? (cfg : ConfigureRequest) (n : Int) : Option ChannelConfig := entry channelId n cfg.channels

def ConfigureRequest.afe? (cfg : ConfigureRequest) (n : Int) : Option AFEConfig := entry afeId n cfg.afes

/-- A request is its default `d` with the seed laid over it: the ids are what `int` makes of the names in the seed. -/
structure Overlaid (lib : Library X) (seed_cfg : Seed X) (prefer_seed_common : Bool) (d cfg : ConfigureRequest) : Prop where
  channels_nodup : (cfg.channels.map (·.id)).Nodup
  afes_nodup : (cfg.afes.map (·.id)).Nodup
  channels_unnamed : ∀ n, (∀ v ∈ seed_cfg.chIds, toInt lib v ≠ .ok n) → cfg.channel? n = d.channel? n
  afes_unnamed : ∀ n, (∀ v ∈ seed_cfg.afeIds, toInt lib v ≠ .ok n) → cfg.afe? n = d.afe? n
  channels_named : ∀ idx v, seed_cfg.chIds[idx]? = some v → ∃ n ch, toInt lib v = .ok n ∧ cfg.channel? n = some ch ∧
    ChannelTakes lib seed_cfg.chanCfg.lists idx ((d.channel? n).getD ChannelConfig.new) ch
  afes_named : ∀ idx v, seed_cfg.afeIds[idx]? = some v → ∃ n afe, toInt lib v = .ok n ∧ cfg.afe? n = some afe ∧
    AfeTakes lib prefer_seed_common seed_cfg.afeLists idx ((d.afe? n).getD AFEConfig.new) afe
  again : buildRequestFromSeed lib seed_cfg cfg prefer_seed_common = .ok cfg

theorem nodup_map_toNat {α : Type} {id : α → UInt32} {l : List α} :
    (l.map fun a => ((id a).toNat : Int)).Nodup ↔ (l.map id).Nodup := by
  have hinj : Function.Injective fun x : UInt32 => (x.toNat : Int) := fun x y h =>
    UInt32.toNat_inj.mp (Int.ofNat_inj.mp h)
  rw [← List.nodup_map_iff hinj, List.map_map]
  rfl

theorem ChannelTakes.of_base {lists : ChannelLists X} {n : Int} {l : List ChannelConfig} {a ch : ChannelConfig}
    (hbase : base channelId newChannel n l = .ok a) (h : ChannelTakes lib lists idx a ch) :
    ChannelTakes lib lists idx ((entry channelId n l).getD ChannelConfig.new) ch := by
  rw [base] at hbase
  rcases hentry : entry channelId n l with - | c
  · rw [hentry] at hbase
    obtain ⟨id, -, hbase⟩ := bind_eq_ok.mp hbase
    cases hbase
    exact ⟨h.offset, h.trim, h.gain⟩
  · rw [hentry] at hbase
    cases hbase
    exact h

theorem AfeTakes.of_base {n : Int} {l : List AFEConfig} {a afe : AFEConfig} (hbase : base afeId newAfe n l = .ok a)
    (h : AfeTakes lib prefer_seed_common lists idx a afe) :
    AfeTakes lib prefer_seed_common lists idx ((entry afeId n l).getD AFEConfig.new) afe := by
  rw [base] at hbase
  rcases hentry : entry afeId n l with - | c
  · rw [hentry] at hbase
    obtain ⟨id, -, hbase⟩ := bind_eq_ok.mp hbase
    cases hbase
    exact ⟨h.attenuators, h.v_bias, h.resolution, h.output_format, h.sb_first, h.lpf_cut_frequency, h.pga_integrator_disable,
      h.pga_gain, h.clamp, h.lna_gain, h.lna_integrator_disable⟩
  · rw [hentry] at hbase
    cases hbase
    exact h

/-- What a seed makes of a default request, both with ids that are pairwise distinct. -/
theorem buildRequestFromSeed_overlaid (lib : Library X) (seed_cfg : Seed X) (prefer_seed_common : Bool)
    (defaults_cfg cfg : ConfigureRequest) (hchannels : (defaults_cfg.channels.map (·.id)).Nodup)
    (hafes : (defaults_cfg.afes.map (·.id)).Nodup)
    (hch : seed_cfg.chIds.Pairwise fun v w => toInt lib v ≠ toInt lib w)
    (hafe : seed_cfg.afeIds.Pairwise fun v w => toInt lib v ≠ toInt lib w)
    (h : buildRequestFromSeed lib seed_cfg defaults_cfg prefer_seed_common = .ok cfg) :
    Overlaid lib seed_cfg prefer_seed_common defaults_cfg cfg := by
  have hbuilt := built_of_ok h
  have hc : Keyed channelId newChannel (overlayChannel lib seed_cfg.chanCfg.lists) := keyed_channels _
  have ha : Keyed afeId newAfe (overlayAfe lib prefer_seed_common seed_cfg.afeLists) := keyed_afes _ _
  refine ⟨?_, ?_, ?_, ?_, ?_, ?_, (hbuilt.again hch hafe).ok⟩
  · exact nodup_map_toNat.mp (nodup_overlay hc hbuilt.channels (nodup_map_toNat.mpr hchannels))
  · exact nodup_map_toNat.mp (nodup_overlay ha hbuilt.afes (nodup_map_toNat.mpr hafes))
  · exact fun n hnot => entry_unnamed hc hbuilt.channels hnot
  · exact fun n hnot => entry_unnamed ha hbuilt.afes hnot
  · intro idx v hv
    obtain ⟨n, hn⟩ := ident_of_overlay hc hbuilt.channels v (List.mem_of_getElem? hv)
    obtain ⟨a, ch, hbase, hupdate, hentry⟩ := entry_named hc hbuilt.channels hch hv hn
    rw [Nat.zero_add] at hupdate
    exact ⟨n, ch, hn, hentry, (overlayChannel_ok hupdate).2.1.of_base hbase⟩
  · intro idx v hv
    obtain ⟨n, hn⟩ := ident_of_overlay ha hbuilt.afes v (List.mem_of_getElem? hv)
    obtain ⟨a, afe, hbase, hupdate, hentry⟩ := entry_named ha hbuilt.afes hafe hv hn
    rw [Nat.zero_add] at hupdate
    exact ⟨n, afe, hn, hentry, (overlayAfe_ok hupdate).2.1.of_base hbase⟩

/-- A library for seeds with numbers only. -/
def noOther : Library Empty := ⟨nofun, nofun, nofun, .error .typeError⟩

/-- A seed for a new channel and one of the defaults, with an offset for the first only. -/
def twoChannels : Seed Empty where
  channel_analog_conf := .value { ids := .value [.int 5, .int 3], offsets := .value [.int 7], trims := .null }
  afes := .value { ids := .value [.int 0], adcs := .value { resolution := .value [.int 1] } }

def oneChannel : ConfigureRequest where
  channels := [{ id := 3, trim := 1, offset := 2, gain := 1 }]
  afes := [{ AFEConfig.new with v_bias := 9 }]

theorem twoChannels_overlaid : ∃ cfg, buildRequestFromSeed noOther twoChannels oneChannel true = .ok cfg ∧
    Overlaid noOther twoChannels true oneChannel cfg :=
  ⟨_, rfl, buildRequestFromSeed_overlaid noOther twoChannels true oneChannel _ (by decide) (by decide)
    (by simp [Seed.chIds, Seed.chanCfg, Entry.read, Entry.get, twoChannels, toInt])
    (by simp [Seed.afeIds, Seed.afesCfg, Entry.read, Entry.get, twoChannels]) rfl⟩

/-! ### Seeds of numbers -/

theorem takes_each {β : Type} {conv : Value Empty → Except Raised β} {n idx : Nat} {value : Int} {d b : β}
    (h : Takes conv ((each n value).get []) idx d b) (hidx : idx < n) : conv (.int value) = .ok b := by
  rw [each, Entry.get, Takes, Option.bind_some, List.getElem?_replicate, if_pos hidx] at h
  exact h

theorem takes_each_eq {β : Type} {conv : Value Empty → Except Raised β} {n idx : Nat} {value : Int} {d b a : β}
    (h : Takes conv ((each n value).get []) idx d b) (hidx : idx < n) (ha : conv (.int value) = .ok a) : b = a :=
  Except.ok.inj ((takes_each h hidx).symm.trans ha)

theorem takes_ints {β : Type} {conv : Value Empty → Except Raised β} {values : List Int} {idx : Nat} {value : Int} {d b : β}
    (h : Takes conv ((ints values).get []) idx d b) (hidx : values[idx]? = some value) : conv (.int value) = .ok b := by
  rw [ints, Entry.get, Takes, Option.bind_some, List.getElem?_map, hidx] at h
  exact h

theorem toNat_of_uint32 {n : Int} {x : UInt32} (h : uint32 numbers (.int n) = .ok x) : (x.toNat : Int) = n := by
  rw [uint32, assign] at h
  rcases hrange : inRange 32 n with e | w
  · rw [hrange] at h
    cases h
  · rw [hrange] at h
    cases h
    exact toNat_of_inRange hrange

theorem distinct_ids {ids : List Int} (h : ids.Nodup) :
    (ids.map Value.int).Pairwise fun v w => toInt numbers v ≠ toInt numbers w :=
  List.pairwise_map.mpr (h.imp fun hne heq => hne (Except.ok.inj heq))

theorem named_int {ids : List Int} {n : Int} (hn : n ∉ ids) : ∀ v ∈ ids.map Value.int, toInt numbers v ≠ .ok n := by
  intro v hv heq
  obtain ⟨m, hm, rfl⟩ := List.mem_map.mp hv
  cases heq
  exact hn hm

theorem nodup_default_channels (args : Defaults) : ((makeDefaultConfig args).channels.map (·.id)).Nodup :=
  (by decide : (((List.range 40).map fun ch => ch.toUInt32)).Nodup)

theorem nodup_default_afes (args : Defaults) : ((makeDefaultConfig args).afes.map (·.id)).Nodup :=
  (by decide : (((List.range 5).map fun afe => afe.toUInt32)).Nodup)

theorem toNat_toUInt32 {n : Nat} (hn : n < 2 ^ 32) : n.toUInt32.toNat = n := Nat.mod_eq_of_lt hn

theorem channelId_default {args : Defaults} {n : Nat} (hn : n < 2 ^ 32) : channelId (defaultChannel args n) = n :=
  congrArg Int.ofNat (toNat_toUInt32 hn)

theorem afeId_default {args : Defaults} {n : Nat} (hn : n < 2 ^ 32) : afeId (defaultAfe args n) = n := congrArg Int.ofNat (toNat_toUInt32 hn)

theorem default_channel {args : Defaults} {n : Nat} (hn : n < 40) : (makeDefaultConfig args).channel? n = some (defaultChannel args n) := by
  have hid : channelId (defaultChannel args n) = n := channelId_default (by omega)
  rw [← hid]
  refine entry_made (List.mem_range.mpr hn) fun j hj heq => ?_
  have hlt := List.mem_range.mp hj
  rw [channelId_default (by omega), channelId_default (by omega)] at heq
  exact Int.ofNat_inj.mp heq

theorem default_others {args : Defaults} {n : Nat} (hn : 40 ≤ n) : (makeDefaultConfig args).channel? n = none := by
  refine entry_eq_none.mpr fun ch hch heq => ?_
  obtain ⟨m, hm, rfl⟩ := List.mem_map.mp hch
  have hlt := List.mem_range.mp hm
  rw [channelId_default (by omega)] at heq
  omega

theorem default_afe {args : Defaults} {n : Nat} (hn : n < 5) : (makeDefaultConfig args).afe? n = some (defaultAfe args n) := by
  have hid : afeId (defaultAfe args n) = n := afeId_default (by omega)
  rw [← hid]
  refine entry_made (List.mem_range.mpr hn) fun j hj heq => ?_
  have hlt := List.mem_range.mp hj
  rw [afeId_default (by omega), afeId_default (by omega)] at heq
  exact Int.ofNat_inj.mp heq

end DaphneZmq.PdsConfigureUtils
