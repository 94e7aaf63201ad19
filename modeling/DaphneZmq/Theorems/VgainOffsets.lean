import DaphneZmq.Theorems.PdsConfigureUtils
import DaphneZmq.Theorems.VgainSweep
import Mathlib.Data.List.Induction
import Mathlib.Tactic.Linarith

/-! What the request of a point of a gain sweep asks for. A channel's offset lies between those of the anchors next to the gain, so that
it is the anchor's own at an anchor and stays as it is beyond the last one. -/

namespace DaphneZmq.VgainSweep
open Lib.Overlay PdsConfigureUtils
open MergeLedIntensityRuns (Dict sortedItems lookup_insert mem_sortedItems)

/-! ### Rounding -/

theorem le_round (q : ℚ) : ⌊q⌋ ≤ round q := by
  unfold round
  split_ifs <;> omega

theorem round_le (q : ℚ) : round q ≤ ⌊q⌋ + 1 := by
  unfold round
  split_ifs <;> omega

theorem round_intCast (n : Int) : round n = n := by
  rw [round, Int.floor_intCast, if_pos (by norm_num)]

theorem round_mono {p q : ℚ} (h : p ≤ q) : round p ≤ round q := by
  rcases (Int.floor_mono h).lt_or_eq with hlt | heq
  · exact (round_le p).trans ((Int.add_one_le_of_lt hlt).trans (le_round q))
  · unfold round
    rw [heq]
    split_ifs <;> first | omega | (exfalso; linarith)

/-! ### Segments -/

variable {vgain : Int} {points : List (Int × Int)}

/-- The gains go up. -/
def Ascending (points : List (Int × Int)) : Prop := points.Pairwise fun p q => p.1 < q.1

/-- A value on the segment between two points. -/
theorem segment_between {x₁ x₂ x : ℚ} (hlo : x₁ ≤ x) (hhi : x ≤ x₂) (hlt : x₁ < x₂) {y₁ y₂ lo hi : ℚ} (h₁ : lo ≤ y₁ ∧ y₁ ≤ hi)
    (h₂ : lo ≤ y₂ ∧ y₂ ≤ hi) : lo ≤ y₁ + (x - x₁) / (x₂ - x₁) * (y₂ - y₁) ∧ y₁ + (x - x₁) / (x₂ - x₁) * (y₂ - y₁) ≤ hi := by
  have hspan : 0 < x₂ - x₁ := sub_pos.mpr hlt
  have hfrac : 0 ≤ (x - x₁) / (x₂ - x₁) := div_nonneg (sub_nonneg.mpr hlo) hspan.le
  have hfrac' : (x - x₁) / (x₂ - x₁) ≤ 1 := (div_le_one hspan).mpr (by linarith)
  constructor <;> nlinarith

/-- The loop finds the first segment that the gain is on. -/
theorem onSegment_spec {first last : Int × Int} (hs : Ascending points) (hhead : points.head? = some first)
    (hlast : points.getLast? = some last) (hfirst : first.1 ≤ vgain) (hbefore : vgain < last.1) :
    ∃ before p q after, points = before ++ p :: q :: after ∧ p.1 ≤ vgain ∧ vgain ≤ q.1 ∧
      onSegment vgain points = some (p.2 + (vgain - p.1 : ℚ) / (q.1 - p.1) * (q.2 - p.2)) := by
  induction points generalizing first with
  | nil => cases hhead
  | cons p points ih =>
    cases hhead
    cases points with
    | nil =>
      obtain rfl : p = last := by simpa using hlast
      omega
    | cons q points =>
      have hpq : p.1 < q.1 := (List.pairwise_cons.mp hs).1 q (List.mem_cons_self ..)
      by_cases hon : vgain ≤ q.1
      · refine ⟨[], p, q, points, rfl, hfirst, hon, ?_⟩
        rw [onSegment, if_pos ⟨hfirst, hon⟩]
        dsimp only
        rw [if_pos (by omega), Int.cast_sub]
      · rw [List.getLast?_cons_cons] at hlast
        obtain ⟨before, p', q', after, hsplit, hlo, hhi, hvalue⟩ :=
          ih (List.pairwise_cons.mp hs).2 rfl hlast (Int.le_of_lt (Int.not_le.mp hon))
        refine ⟨p :: before, p', q', after, by rw [hsplit, List.cons_append], hlo, hhi, ?_⟩
        rw [onSegment, if_neg fun h => hon h.2]
        exact hvalue

/-- A point with no other between it and the gain. -/
def Near (points : List (Int × Int)) (vgain : Int) (p : Int × Int) : Prop :=
  ∀ w ∈ points, ¬(p.1 < w.1 ∧ w.1 ≤ vgain) ∧ ¬(vgain ≤ w.1 ∧ w.1 < p.1)

theorem mem_segment {before after : List (Int × Int)} {p q : Int × Int} (hs : Ascending (before ++ p :: q :: after)) {w : Int × Int}
    (hw : w ∈ before ++ p :: q :: after) : w.1 < p.1 ∨ w = p ∨ w = q ∨ q.1 < w.1 := by
  obtain ⟨-, hrest, hcross⟩ := List.pairwise_append.mp hs
  rcases List.mem_append.mp hw with hmem | hmem
  · exact Or.inl (hcross w hmem p (List.mem_cons_self ..))
  rcases List.mem_cons.mp hmem with rfl | hmem
  · exact Or.inr (Or.inl rfl)
  rcases List.mem_cons.mp hmem with rfl | hmem
  · exact Or.inr (Or.inr (Or.inl rfl))
  · exact Or.inr (Or.inr (Or.inr ((List.pairwise_cons.mp (List.pairwise_cons.mp hrest).2).1 w hmem)))

theorem near_first {first : Int × Int} (hs : Ascending points) (hhead : points.head? = some first) (hle : vgain ≤ first.1) :
    Near points vgain first := by
  obtain ⟨rest, rfl⟩ : ∃ rest, points = first :: rest := List.head?_eq_some_iff.mp hhead
  intro w hw
  rcases List.mem_cons.mp hw with rfl | hmem
  · omega
  · have := (List.pairwise_cons.mp hs).1 w hmem
    omega

theorem near_last {last : Int × Int} (hs : Ascending points) (hlast : points.getLast? = some last) (hle : last.1 ≤ vgain) :
    Near points vgain last := by
  obtain ⟨rest, rfl⟩ : ∃ rest, points = rest ++ [last] := List.getLast?_eq_some_iff.mp hlast
  intro w hw
  rcases List.mem_append.mp hw with hmem | hmem
  · have := (List.pairwise_append.mp hs).2.2 w hmem last (List.mem_singleton_self _)
    omega
  · rw [List.mem_singleton.mp hmem]
    omega

/-- On a segment, the value lies between those of its ends that are near. -/
theorem segment_bounds {before after : List (Int × Int)} {p q : Int × Int} (hs : Ascending (before ++ p :: q :: after))
    (hp : p.1 ≤ vgain) (hq : vgain ≤ q.1) {lo hi : Int}
    (h : ∀ w ∈ before ++ p :: q :: after, Near (before ++ p :: q :: after) vgain w → lo ≤ w.2 ∧ w.2 ≤ hi) :
    (lo : ℚ) ≤ p.2 + (vgain - p.1 : ℚ) / (q.1 - p.1) * (q.2 - p.2) ∧ p.2 + (vgain - p.1 : ℚ) / (q.1 - p.1) * (q.2 - p.2) ≤ hi := by
  have hpq : p.1 < q.1 := (List.pairwise_cons.mp (List.pairwise_append.mp hs).2.1).1 q (List.mem_cons_self ..)
  have hspan : (q.1 - p.1 : ℚ) ≠ 0 := sub_ne_zero.mpr (by exact_mod_cast hpq.ne')
  have hbounds {w : Int × Int} (hw : w = p ∨ w = q) (hnear : ∀ u ∈ [p, q], ¬(w.1 < u.1 ∧ u.1 ≤ vgain) ∧ ¬(vgain ≤ u.1 ∧ u.1 < w.1)) :
      (lo : ℚ) ≤ w.2 ∧ (w.2 : ℚ) ≤ hi := by
    have hmem : w ∈ before ++ p :: q :: after := by rcases hw with rfl | rfl <;> simp
    have hvalue := h w hmem fun u hu => by
      rcases mem_segment hs hu with hlt | rfl | rfl | hlt
      · rcases hw with rfl | rfl <;> omega
      · exact hnear u (by simp)
      · exact hnear u (by simp)
      · rcases hw with rfl | rfl <;> omega
    exact_mod_cast hvalue
  rcases hp.lt_or_eq with hltp | heqp
  · rcases hq.lt_or_eq with hltq | heqq
    · refine segment_between (by exact_mod_cast hp) (by exact_mod_cast hq) (by exact_mod_cast hpq) (hbounds (.inl rfl) ?_)
        (hbounds (.inr rfl) ?_)
      · intro u hu
        rcases List.mem_pair.mp hu with rfl | rfl <;> omega
      · intro u hu
        rcases List.mem_pair.mp hu with rfl | rfl <;> omega
    · rw [heqq, div_self hspan, one_mul, add_sub_cancel]
      refine hbounds (.inr rfl) fun u hu => ?_
      rcases List.mem_pair.mp hu with rfl | rfl <;> omega
  · rw [← heqp, sub_self, zero_div, zero_mul, add_zero]
    refine hbounds (.inl rfl) fun u hu => ?_
    rcases List.mem_pair.mp hu with rfl | rfl <;> omega

/-- The value lies between those of the points that are near. -/
theorem interpolate_between (hs : Ascending points) (hne : points ≠ []) {lo hi : Int}
    (h : ∀ p ∈ points, Near points vgain p → lo ≤ p.2 ∧ p.2 ≤ hi) :
    ∃ value, interpolate points vgain = .ok value ∧ (lo : ℚ) ≤ value ∧ value ≤ hi := by
  have hhead := List.head?_eq_some_head hne
  have hlast := List.getLast?_eq_some_getLast hne
  have hcast {p : Int × Int} (hp : lo ≤ p.2 ∧ p.2 ≤ hi) : (lo : ℚ) ≤ p.2 ∧ (p.2 : ℚ) ≤ hi := by exact_mod_cast hp
  unfold interpolate
  rw [hhead, hlast]
  dsimp only
  split
  next hle => exact ⟨_, rfl, hcast (h _ (List.mem_of_head? hhead) (near_first hs hhead hle))⟩
  next hfirst =>
  split
  next hle => exact ⟨_, rfl, hcast (h _ (List.mem_of_getLast? hlast) (near_last hs hlast hle))⟩
  next hbefore =>
  obtain ⟨before, p, q, after, rfl, hp, hq, hvalue⟩ :=
    onSegment_spec hs hhead hlast (Int.le_of_lt (Int.not_le.mp hfirst)) (Int.not_le.mp hbefore)
  refine ⟨_, rfl, ?_⟩
  rw [hvalue, Option.getD_some]
  exact segment_bounds hs hp hq h

theorem exists_interpolate (hne : points ≠ []) (vgain : Int) : ∃ value, interpolate points vgain = .ok value := by
  unfold interpolate
  rw [List.head?_eq_some_head hne, List.getLast?_eq_some_getLast hne]
  dsimp only
  split_ifs <;> exact ⟨_, rfl⟩

/-! ### Anchors -/

theorem forall₂_of_mapM {ε α β : Type} {f : α → Except ε β} {R : α → β → Prop} {xs : List α} {ys : List β} (h : xs.mapM f = .ok ys)
    (hf : ∀ x ∈ xs, ∀ y, f x = .ok y → R x y) : List.Forall₂ R xs ys := by
  induction xs generalizing ys with
  | nil =>
    cases h
    exact .nil
  | cons x xs ih =>
    rw [List.mapM_cons] at h
    obtain ⟨y, hy, h⟩ := bind_eq_ok.mp h
    obtain ⟨ys', hys, h⟩ := bind_eq_ok.mp h
    cases h
    exact .cons (hf x (List.mem_cons_self ..) y hy) (ih hys fun w hw => hf w (List.mem_cons_of_mem _ hw))

theorem ascending_sortedItems (d : Dict Int) : Ascending (sortedItems d) := by
  have hsorted : (sortedItems d).Pairwise fun p q => decide (p.1 ≤ q.1) = true :=
    List.pairwise_mergeSort (fun _ _ _ h h' => decide_eq_true ((of_decide_eq_true h).trans (of_decide_eq_true h')))
      (fun p q => by simpa using Int.le_total p.1 q.1) _
  have hnodup : ((sortedItems d).map Prod.fst).Nodup := by
    have hperm := (List.mergeSort_perm (d.entries.map fun entry => (entry.1, entry.2)) fun a b => a.1 ≤ b.1).map Prod.fst
    rw [List.map_map] at hperm
    exact hperm.nodup_iff.mpr d.nodupKeys
  refine (hsorted.and (List.pairwise_map.mp hnodup)).imp fun {p q} h => ?_
  have hle : p.1 ≤ q.1 := of_decide_eq_true h.1
  omega

def anchorAt (anchors : Anchors) (channel vgain : Int) : Option Int := (anchors.lookup channel).bind (AList.lookup vgain)

theorem anchorAt_addAnchor (anchors : Anchors) (row : AnchorRow) (channel vgain : Int) :
    anchorAt (addAnchor anchors row) channel vgain =
      if row.channel = channel ∧ row.vgain = vgain then some row.closest_offset_to_2000 else anchorAt anchors channel vgain := by
  unfold anchorAt addAnchor
  rw [lookup_insert]
  by_cases hchannel : row.channel = channel
  · rw [if_pos hchannel, Option.bind_some, lookup_insert]
    subst hchannel
    simp only [true_and]
    split
    · rfl
    · rcases anchors.lookup row.channel with - | offsets <;> rfl
  · rw [if_neg hchannel, if_neg fun h => hchannel h.1]

theorem anchorAt_foldl (rows : List AnchorRow) (channel vgain : Int) :
    anchorAt (rows.foldl addAnchor ∅) channel vgain = anchorOf rows channel vgain := by
  induction rows using List.reverseRecOn with
  | nil => rfl
  | append_singleton rows row ih =>
    rw [List.foldl_append, List.foldl_cons, List.foldl_nil, anchorAt_addAnchor, ih, anchorOf, anchorOf, List.reverse_append,
      List.reverse_singleton, List.singleton_append, List.find?_cons]
    by_cases h : row.channel = channel ∧ row.vgain = vgain
    · rw [if_pos h, decide_eq_true h]
      rfl
    · rw [if_neg h, decide_eq_false h]

/-- No channel is there without an offset. -/
theorem exists_anchor {rows : List AnchorRow} {channel : Int} {offsets : Dict Int}
    (h : (rows.foldl addAnchor ∅).lookup channel = some offsets) : ∃ vgain offset, offsets.lookup vgain = some offset := by
  induction rows using List.reverseRecOn generalizing offsets with
  | nil => cases h
  | append_singleton rows row ih =>
    rw [List.foldl_append, List.foldl_cons, List.foldl_nil, addAnchor, lookup_insert] at h
    split at h
    · cases h
      exact ⟨_, _, AList.lookup_insert _⟩
    · exact ih h

theorem getElem?_of_forall₂ {α β : Type} {R : α → β → Prop} {xs : List α} {ys : List β} (h : List.Forall₂ R xs ys) {idx : Nat} {x : α}
    (hx : xs[idx]? = some x) : ∃ y, ys[idx]? = some y ∧ R x y := by
  obtain ⟨hlt, rfl⟩ := List.getElem?_eq_some_iff.mp hx
  exact ⟨ys.get ⟨idx, h.length_eq ▸ hlt⟩, List.getElem?_eq_getElem _, h.get hlt (h.length_eq ▸ hlt)⟩

theorem loadAnchorOffsets_ok {csv_path : String} {rows : List AnchorRow} {anchors : Anchors}
    (h : loadAnchorOffsets csv_path rows = .ok anchors) :
    anchors = rows.foldl addAnchor ∅ ∧ ∀ channel ∈ CHANNEL_ORDER, ∃ offsets, anchors.lookup channel = some offsets := by
  unfold loadAnchorOffsets at h
  dsimp only at h
  split at h
  · cases h
  next hmissing =>
    cases h
    refine ⟨rfl, fun channel hchannel => ?_⟩
    have hnot := List.filter_eq_nil_iff.mp (not_not.mp hmissing) channel hchannel
    rw [Option.isNone_iff_eq_none] at hnot
    exact Option.ne_none_iff_exists'.mp hnot

/-! ### Offsets -/

theorem settle_mono {offset_subtract offset_min offset_max : Int} {a b : Int} (h : a ≤ b) :
    settle offset_subtract offset_min offset_max a ≤ settle offset_subtract offset_min offset_max b := by
  unfold settle
  omega

/-- The offset of a channel lies between those of the neighbouring anchors, and in the range. -/
structure Settled (args : Args) (rows : List AnchorRow) (channel vgain offset : Int) : Prop where
  min_le : args.offset_min ≤ offset
  le_max : offset ≤ max args.offset_min args.offset_max
  between : ∀ lo hi, (∀ v o, Neighbour rows channel vgain v → anchorOf rows channel v = some o → lo ≤ o ∧ o ≤ hi) →
    settle args.offset_subtract args.offset_min args.offset_max lo ≤ offset ∧
      offset ≤ settle args.offset_subtract args.offset_min args.offset_max hi

variable {args : Args} {rows : List AnchorRow} {anchors : Anchors} {channel : Int}

theorem interpolateChannelOffset_spec (hload : loadAnchorOffsets args.anchor_csv rows = .ok anchors)
    (hchannel : channel ∈ CHANNEL_ORDER) (vgain : Int) :
    ∃ offset, interpolateChannelOffset anchors args.offset_subtract args.offset_min args.offset_max channel vgain = .ok offset ∧
      Settled args rows channel vgain offset := by
  obtain ⟨rfl, hpresent⟩ := loadAnchorOffsets_ok hload
  obtain ⟨offsets, hoffsets⟩ := hpresent channel hchannel
  have hanchor (v : Int) : anchorOf rows channel v = offsets.lookup v := by
    rw [← anchorAt_foldl, anchorAt, hoffsets, Option.bind_some]
  have hne : sortedItems offsets ≠ [] := by
    obtain ⟨v, o, ho⟩ := exists_anchor hoffsets
    exact List.ne_nil_of_mem (mem_sortedItems.mpr ho)
  have hbetween {lo hi : Int}
      (h : ∀ v o, Neighbour rows channel vgain v → anchorOf rows channel v = some o → lo ≤ o ∧ o ≤ hi) :
      ∃ value, interpolate (sortedItems offsets) vgain = .ok value ∧ (lo : ℚ) ≤ value ∧ value ≤ hi := by
    refine interpolate_between (ascending_sortedItems offsets) hne fun p hp hnear => h p.1 p.2 ⟨?_, ?_⟩ ?_
    · rw [hanchor, mem_sortedItems.mp hp]
      exact Option.some_ne_none _
    · intro w hw
      rw [hanchor] at hw
      obtain ⟨o, ho⟩ := Option.ne_none_iff_exists'.mp hw
      exact hnear (w, o) (mem_sortedItems.mpr ho)
    · rw [hanchor, mem_sortedItems.mp hp]
  obtain ⟨value, hvalue⟩ := exists_interpolate hne vgain
  refine ⟨settle args.offset_subtract args.offset_min args.offset_max (round value), ?_, Int.le_max_left .., ?_, fun lo hi h => ?_⟩
  · rw [interpolateChannelOffset, hoffsets]
    dsimp only
    rw [hvalue]
    rfl
  · unfold settle
    omega
  · obtain ⟨value', hvalue', hlo, hhi⟩ := hbetween h
    rw [hvalue] at hvalue'
    cases hvalue'
    refine ⟨settle_mono ?_, settle_mono ?_⟩
    · rw [← round_intCast lo]
      exact round_mono hlo
    · rw [← round_intCast hi]
      exact round_mono hhi

theorem offsetsByChannel_ok (hload : loadAnchorOffsets args.anchor_csv rows = .ok anchors) {vgain : Int} {offsets : List Int}
    (h : offsetsByChannel args anchors vgain = .ok offsets) :
    List.Forall₂ (fun channel offset => Settled args rows channel vgain offset) CHANNEL_ORDER offsets := by
  refine forall₂_of_mapM h fun channel hchannel offset hoffset => ?_
  obtain ⟨offset', hoffset', hsettled⟩ := interpolateChannelOffset_spec hload hchannel vgain
  rw [hoffset] at hoffset'
  cases hoffset'
  exact hsettled

/-! ### Requests -/

variable {vgain : Int} {offsets : List Int} {cfg : PdsConfigureUtils.ConfigureRequest}

/-- The request of a point. -/
structure Asked (args : Args) (rows : List AnchorRow) (vgain : Int) (cfg : PdsConfigureUtils.ConfigureRequest) : Prop where
  host : cfg.daphne_address = args.host
  timeout_ms : (cfg.timeout_ms.toNat : Int) = args.timeout_ms
  biasctrl : cfg.biasctrl = 1300
  channels_nodup : (cfg.channels.map (·.id)).Nodup
  ordered : ∀ channel ∈ CHANNEL_ORDER, ∃ ch, cfg.channel? channel = some ch ∧ ch.trim = 0 ∧ ch.gain = 1 ∧
    Settled args rows channel vgain ch.offset.toNat
  others : ∀ channel, channel ∉ CHANNEL_ORDER → cfg.channel? channel = (makeDefaultConfig (defaults args.host cfg.timeout_ms)).channel? channel
  afes_nodup : (cfg.afes.map (·.id)).Nodup
  afes : ∀ (idx : Nat) v_bias, AFE_BIAS_DAC[idx]? = some v_bias → ∃ afe, cfg.afe? idx = some afe ∧ (afe.attenuators.toNat : Int) = vgain ∧
    (afe.v_bias.toNat : Int) = v_bias ∧ afe.adc.getD ADCConfig.new = { resolution := false, output_format := true, sb_first := false } ∧
    afe.pga.getD PGAConfig.new = { lpf_cut_frequency := 4, integrator_disable := true, gain := false } ∧
    afe.lna.getD LNAConfig.new = { clamp := 0, gain := 2, integrator_disable := true }

theorem takes_channel {idx : Nat} {offset : Int} {d ch : PdsConfigureUtils.ChannelConfig} (hidx : idx < CHANNEL_ORDER.length)
    (hoffset : offsets[idx]? = some offset)
    (h : ChannelTakes numbers (buildSeedConfig vgain offsets).chanCfg.lists idx d ch) :
    ch.trim = 0 ∧ ch.gain = 1 ∧ (ch.offset.toNat : Int) = offset :=
  ⟨takes_each_eq h.trim hidx rfl, takes_each_eq h.gain hidx rfl, toNat_of_uint32 (takes_ints h.offset hoffset)⟩

theorem adc_eq {adc : ADCConfig} {resolution output_format sb_first : Bool} (hres : adc.resolution = resolution)
    (hfmt : adc.output_format = output_format) (hsb : adc.sb_first = sb_first) : adc = { resolution, output_format, sb_first } := by
  rw [← hres, ← hfmt, ← hsb]

theorem pga_eq {pga : PdsConfigureUtils.PGAConfig} {lpf_cut_frequency : UInt32} {integrator_disable gain : Bool}
    (hcut : pga.lpf_cut_frequency = lpf_cut_frequency) (hint : pga.integrator_disable = integrator_disable) (hgain : pga.gain = gain) :
    pga = { lpf_cut_frequency, integrator_disable, gain } := by
  rw [← hcut, ← hint, ← hgain]

theorem lna_eq {lna : LNAConfig} {clamp gain : UInt32} {integrator_disable : Bool} (hclamp : lna.clamp = clamp)
    (hgain : lna.gain = gain) (hint : lna.integrator_disable = integrator_disable) : lna = { clamp, gain, integrator_disable } := by
  rw [← hclamp, ← hgain, ← hint]

theorem takes_afe {idx : Nat} {v_bias : Int} {d afe : PdsConfigureUtils.AFEConfig} (hbias : AFE_BIAS_DAC[idx]? = some v_bias)
    (h : AfeTakes numbers true (buildSeedConfig vgain offsets).afeLists idx d afe) :
    (afe.attenuators.toNat : Int) = vgain ∧ (afe.v_bias.toNat : Int) = v_bias ∧
      afe.adc.getD ADCConfig.new = { resolution := false, output_format := true, sb_first := false } ∧
      afe.pga.getD PGAConfig.new = { lpf_cut_frequency := 4, integrator_disable := true, gain := false } ∧
      afe.lna.getD LNAConfig.new = { clamp := 0, gain := 2, integrator_disable := true } := by
  have hidx : idx < AFE_IDS.length := (List.getElem?_eq_some_iff.mp hbias).1
  refine ⟨toNat_of_uint32 (takes_each h.attenuators hidx), toNat_of_uint32 (takes_ints h.v_bias hbias), ?_, ?_, ?_⟩
  · exact adc_eq (takes_each_eq h.resolution hidx rfl) (takes_each_eq h.output_format hidx rfl) (takes_each_eq h.sb_first hidx rfl)
  · exact pga_eq (takes_each_eq h.lpf_cut_frequency hidx rfl) (takes_each_eq h.pga_integrator_disable hidx rfl)
      (takes_each_eq h.pga_gain hidx rfl)
  · exact lna_eq (takes_each_eq h.clamp hidx rfl) (takes_each_eq h.lna_gain hidx rfl)
      (takes_each_eq h.lna_integrator_disable hidx rfl)

theorem makeConfigRequest_ok {host : String} {timeout_ms : Int} {seed_cfg : Seed Empty}
    (h : makeConfigRequest host timeout_ms seed_cfg = .ok cfg) :
    cfg.daphne_address = host ∧ (cfg.timeout_ms.toNat : Int) = timeout_ms ∧ ∃ built,
      Built numbers seed_cfg true (makeDefaultConfig (defaults host cfg.timeout_ms)) built ∧ cfg.biasctrl = built.biasctrl ∧
        cfg.channels = built.channels ∧ cfg.afes = built.afes := by
  obtain ⟨timeout, htimeout, h⟩ := bind_eq_ok.mp h
  obtain ⟨built, hbuilt, h⟩ := bind_eq_ok.mp h
  cases h
  exact ⟨rfl, toNat_of_inRange htimeout, built, built_of_ok hbuilt, rfl, rfl, rfl⟩

theorem Requests.asked (h : Requests args rows vgain cfg) : Asked args rows vgain cfg := by
  obtain ⟨anchors, offsets, hload, hoffsets, hcfg⟩ := h
  obtain ⟨hhost, htimeout, built, hbuilt, hbiasctrl, hchannels, hafes⟩ := makeConfigRequest_ok hcfg
  have hc : Keyed channelId newChannel (overlayChannel numbers (buildSeedConfig vgain offsets).chanCfg.lists) := keyed_channels _
  have ha : Keyed afeId newAfe (overlayAfe numbers true (buildSeedConfig vgain offsets).afeLists) := keyed_afes _ _
  have hordered := offsetsByChannel_ok hload hoffsets
  refine ⟨hhost, htimeout, hbiasctrl.trans (Except.ok.inj hbuilt.biasctrl).symm, ?_, ?_, ?_, ?_, ?_⟩
  · rw [hchannels]
    exact nodup_map_toNat.mp (nodup_overlay hc hbuilt.channels (nodup_map_toNat.mpr (nodup_default_channels _)))
  · intro channel hchannel
    obtain ⟨idx, hidx⟩ := List.mem_iff_getElem?.mp hchannel
    have hv : (buildSeedConfig vgain offsets).chIds[idx]? = some (.int channel) := by
      rw [show (buildSeedConfig vgain offsets).chIds = CHANNEL_ORDER.map .int from rfl, List.getElem?_map, hidx, Option.map_some]
    obtain ⟨a, ch, -, hupdate, hentry⟩ := entry_named hc hbuilt.channels (distinct_ids (by decide)) hv rfl
    rw [Nat.zero_add] at hupdate
    obtain ⟨offset, hoffset, hsettled⟩ := getElem?_of_forall₂ hordered hidx
    obtain ⟨htrim, hgain, heq⟩ := takes_channel (List.getElem?_eq_some_iff.mp hidx).1 hoffset (overlayChannel_ok hupdate).2.1
    refine ⟨ch, ?_, htrim, hgain, heq ▸ hsettled⟩
    rw [ConfigureRequest.channel?, hchannels]
    exact hentry
  · intro channel hchannel
    rw [ConfigureRequest.channel?, hchannels]
    exact entry_unnamed hc hbuilt.channels (named_int hchannel)
  · rw [hafes]
    exact nodup_map_toNat.mp (nodup_overlay ha hbuilt.afes (nodup_map_toNat.mpr (nodup_default_afes _)))
  · intro idx v_bias hbias
    have hidx : idx < 5 := (List.getElem?_eq_some_iff.mp hbias).1
    have hv : (buildSeedConfig vgain offsets).afeIds[idx]? = some (.int idx) := by
      rw [show (buildSeedConfig vgain offsets).afeIds = (List.range 5).map fun (afe : Nat) => Value.int afe from rfl, List.getElem?_map,
        List.getElem?_range hidx, Option.map_some]
    obtain ⟨a, afe, -, hupdate, hentry⟩ := entry_named ha hbuilt.afes (distinct_ids (by decide)) hv rfl
    rw [Nat.zero_add] at hupdate
    refine ⟨afe, ?_, takes_afe hbias (overlayAfe_ok hupdate).2.1⟩
    rw [ConfigureRequest.afe?, hafes]
    exact hentry

end DaphneZmq.VgainSweep
