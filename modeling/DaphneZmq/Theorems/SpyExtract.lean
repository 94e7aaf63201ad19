import DaphneZmq.SpyExtract
import Mathlib.Data.List.Pairwise
import Mathlib.Tactic.Ring

/-! The bulk extractions of a spy buffer against `getMappedData`: an extraction that has come to word `m` has stored the
samples below `m * 2`, whichever of the loops it is in. -/

namespace DaphneZmq.SpyBuffer
open Lib

variable {src : Nat → UInt32} {n : UInt32} {a m : Nat} {e : Extraction}

/-! ### The loops -/

/-- From word `a` on, the words below `m` are read and their samples are stored. -/
structure Covers (src : Nat → UInt32) (a m : Nat) (e : Extraction) : Prop where
  i : e.i.toNat = m
  idx : e.idx.toNat = m * 2
  reads : ∀ r ∈ e.reads, r < m
  stores : ∀ w, w ∈ e.stores ↔ (a * 2 ≤ w.1 ∧ w.1 < m * 2) ∧ w.2 = getMappedData src w.1

theorem toNat_add {x y : UInt32} (h : x.toNat + y.toNat < 2 ^ 32) : (x + y).toNat = x.toNat + y.toNat := by
  rw [UInt32.toNat_add, Nat.mod_eq_of_lt h]

theorem toNat_half (n : UInt32) : (n / 2).toNat = n.toNat / 2 := UInt32.toNat_div n 2

theorem covers_start {i idx : UInt32} (h : idx.toNat = i.toNat * 2) : Covers src i.toNat i.toNat (.start i idx) where
  i := rfl
  idx := h
  reads r hr := by cases hr
  stores w := by
    constructor
    · intro hw
      cases hw
    · rintro ⟨⟨hlow, hhigh⟩, -⟩
      omega

theorem Covers.word (h : Covers src a m e) (ha : a ≤ m) (hm : m < 2 ^ 31 - 1) : Covers src a (m + 1) (e.word src) := by
  have hone : (1 : UInt32).toNat = 1 := rfl
  have hi : (e.i + 1).toNat = m + 1 := by rw [toNat_add (by rw [h.i, hone]; omega), h.i, hone]
  have hidx : (e.idx + 1).toNat = m * 2 + 1 := by rw [toNat_add (by rw [h.idx, hone]; omega), h.idx, hone]
  refine ⟨hi, ?_, fun r hr => ?_, fun w => ?_⟩
  · show (e.idx + 1 + 1).toNat = (m + 1) * 2
    rw [toNat_add (by rw [hidx, hone]; omega), hidx, hone]
    omega
  · rcases List.mem_append.mp hr with hr | hr
    · exact Nat.lt_succ_of_lt (h.reads r hr)
    · rw [List.mem_singleton.mp hr, h.i]
      exact Nat.lt_succ_self m
  · obtain ⟨k, v⟩ := w
    have heven := getMappedData_even src m
    have hodd := getMappedData_odd src m
    simp only [Extraction.word, List.mem_append, h.stores, List.mem_cons, Prod.mk.injEq, List.not_mem_nil, or_false, h.i,
      h.idx, hidx]
    constructor
    · rintro (⟨hk, rfl⟩ | ⟨rfl, rfl⟩ | ⟨rfl, rfl⟩)
      · exact ⟨by omega, rfl⟩
      · exact ⟨by omega, heven.symm⟩
      · exact ⟨by omega, hodd.symm⟩
    · rintro ⟨hk, rfl⟩
      by_cases hlast : k < m * 2
      · exact Or.inl ⟨by omega, rfl⟩
      · obtain rfl | rfl : k = m * 2 ∨ k = m * 2 + 1 := by omega
        · exact Or.inr (Or.inl ⟨rfl, heven⟩)
        · exact Or.inr (Or.inr ⟨rfl, hodd⟩)

theorem Covers.vector (h : Covers src a m e) (ha : a ≤ m) (hm : m + 4 < 2 ^ 31) : Covers src a (m + 4) (e.vector src) := by
  refine ⟨?_, ?_, fun r hr => ?_, fun w => ?_⟩
  · show (e.i + 4).toNat = m + 4
    rw [toNat_add (by rw [h.i]; show m + 4 < _; omega), h.i]
    rfl
  · show (e.idx + 8).toNat = (m + 4) * 2
    rw [toNat_add (by rw [h.idx]; show m * 2 + 8 < _; omega), h.idx]
    show m * 2 + 8 = _
    omega
  · rcases List.mem_append.mp hr with hr | hr
    · have := h.reads r hr
      omega
    · rw [h.i] at hr
      simp only [List.mem_cons, List.not_mem_nil, or_false] at hr
      omega
  · have hlanes : Extraction.lanes src e.i.toNat e.idx.toNat = simdStores src m := by
      rw [h.i, h.idx]
      rfl
    show w ∈ e.stores ++ _ ↔ _
    rw [hlanes, List.mem_append, h.stores, mem_simdStores]
    constructor
    · rintro (⟨hk, hv⟩ | ⟨hk, hv⟩)
      · exact ⟨by omega, hv⟩
      · exact ⟨by omega, hv⟩
    · rintro ⟨hk, hv⟩
      by_cases hlast : w.1 < m * 2
      · exact Or.inl ⟨by omega, hv⟩
      · exact Or.inr ⟨by omega, hv⟩

/-- The loop over single words. -/
theorem wordLoop_spec (h : Covers src a m e) (ha : a ≤ m) (hm : m ≤ n.toNat / 2) :
    ∃ e', loop (fun e : Extraction => e.i < n / 2) (Extraction.word src) (n / 2).toNat e = some e' ∧
      Covers src a (n.toNat / 2) e' := by
  have hn := n.toNat_lt
  have hguard (k : Nat) (e : Extraction) (hk : k ≤ n.toNat / 2 - m) (he : Covers src a (m + k) e) :
      decide (e.i < n / 2) = true ↔ k < n.toNat / 2 - m := by
    rw [decide_eq_true_iff, UInt32.lt_iff_toNat_lt, he.i, toNat_half]
    omega
  have hstep (k : Nat) (e : Extraction) (hk : k < n.toNat / 2 - m) (he : Covers src a (m + k) e) :
      Covers src a (m + (k + 1)) (e.word src) := he.word (by omega) (by omega)
  have hloop := loop_counted (fun k e => Covers src a (m + k) e) hguard hstep (k := 0) h (Nat.zero_le _)
    (show n.toNat / 2 - m ≤ 0 + (n / 2).toNat by rw [toNat_half]; omega)
  rwa [Nat.add_sub_cancel' hm] at hloop

/-- The vector loop of `extractMappedDataBulkSIMD(dst, nSamples)`. -/
theorem vectorLoop_spec (h : Covers src 0 0 e) :
    ∃ e', loop (fun e : Extraction => e.i + 3 < n / 2) (Extraction.vector src) (n / 2).toNat e = some e' ∧
      Covers src 0 (n.toNat / 2 / 4 * 4) e' := by
  have hn := n.toNat_lt
  have hguard (k : Nat) (e : Extraction) (hk : k ≤ n.toNat / 2 / 4) (he : Covers src 0 (k * 4) e) :
      decide (e.i + 3 < n / 2) = true ↔ k < n.toNat / 2 / 4 := by
    have hthree : (e.i + 3).toNat = k * 4 + 3 := by
      rw [toNat_add (by rw [he.i]; show k * 4 + 3 < _; omega), he.i]
      rfl
    rw [decide_eq_true_iff, UInt32.lt_iff_toNat_lt, hthree, toNat_half]
    omega
  have hstep (k : Nat) (e : Extraction) (hk : k < n.toNat / 2 / 4) (he : Covers src 0 (k * 4) e) :
      Covers src 0 ((k + 1) * 4) (e.vector src) := by
    rw [Nat.succ_mul]
    exact he.vector (Nat.zero_le _) (by omega)
  exact loop_counted (fun k e => Covers src 0 (k * 4) e) hguard hstep (k := 0) h (Nat.zero_le _)
    (show n.toNat / 2 / 4 ≤ 0 + (n / 2).toNat by rw [toNat_half]; omega)

/-- An odd last sample is the low one of the word after the last whole one. -/
theorem oddSample_spec (h : Covers src a (n.toNat / 2) e) (ha : a ≤ n.toNat / 2) :
    (∀ r ∈ (e.oddSample src n).reads, r < (n.toNat + 1) / 2) ∧
      ∀ w, w ∈ (e.oddSample src n).stores ↔ (a * 2 ≤ w.1 ∧ w.1 < n.toNat) ∧ w.2 = getMappedData src w.1 := by
  have hmod : n % 2 ≠ 0 ↔ n.toNat % 2 = 1 := by
    rw [Ne, ← UInt32.toNat_inj, UInt32.toNat_mod]
    show ¬n.toNat % 2 = 0 ↔ _
    omega
  unfold Extraction.oddSample
  split
  · rename_i hodd
    rw [hmod] at hodd
    refine ⟨fun r hr => ?_, fun w => ?_⟩
    · rcases List.mem_append.mp hr with hr | hr
      · have := h.reads r hr
        omega
      · rw [List.mem_singleton.mp hr, toNat_half]
        omega
    · obtain ⟨k, v⟩ := w
      have heven := getMappedData_even src (n.toNat / 2)
      simp only [List.mem_append, h.stores, List.mem_singleton, Prod.mk.injEq, h.idx, toNat_half]
      constructor
      · rintro (⟨hk, rfl⟩ | ⟨rfl, rfl⟩)
        · exact ⟨by omega, rfl⟩
        · exact ⟨by omega, heven.symm⟩
      · rintro ⟨hk, rfl⟩
        by_cases hlast : k < n.toNat / 2 * 2
        · exact Or.inl ⟨by omega, rfl⟩
        · obtain rfl : k = n.toNat / 2 * 2 := by omega
          exact Or.inr ⟨rfl, heven⟩
  · rename_i heven
    rw [hmod] at heven
    refine ⟨fun r hr => ?_, fun w => ?_⟩
    · have := h.reads r hr
      omega
    · rw [h.stores]
      exact and_congr_left fun _ => by omega

/-- The rest of an extraction, from any word on. -/
theorem words_spec (h : Covers src a m e) (ha : a ≤ m) (hm : m ≤ n.toNat / 2) :
    ∃ e', Extraction.words src n e = some e' ∧ (∀ r ∈ e'.reads, r < (n.toNat + 1) / 2) ∧
      ∀ w, w ∈ e'.stores ↔ (a * 2 ≤ w.1 ∧ w.1 < n.toNat) ∧ w.2 = getMappedData src w.1 := by
  obtain ⟨e₁, hloop, h₁⟩ := wordLoop_spec h ha hm
  exact ⟨e₁.oddSample src n, by rw [Extraction.words, hloop, Option.map_some], oddSample_spec h₁ (Nat.le_trans ha hm)⟩

/-! ### The destination -/

/-- Stores whose values depend on their index only. -/
theorem written_eq {f : Nat → UInt32} {ws : List (Nat × UInt32)} (hf : ∀ w ∈ ws, w.2 = f w.1) (dst : Nat → UInt32) (k : Nat) :
    written dst ws k = if ∃ w ∈ ws, w.1 = k then f k else dst k := by
  induction ws generalizing dst with
  | nil => simp [written]
  | cons w ws ih =>
    have ih := ih (fun x hx => hf x (List.mem_cons_of_mem _ hx)) (Function.update dst w.1 w.2)
    rw [show written dst (w :: ws) = written (Function.update dst w.1 w.2) ws from rfl, ih]
    by_cases hlater : ∃ w ∈ ws, w.1 = k
    · simp [hlater]
    · by_cases hw : w.1 = k
      · subst hw
        rw [if_neg hlater, if_pos ⟨w, List.mem_cons_self, rfl⟩, Function.update_self, hf w List.mem_cons_self]
      · have hnone : ¬∃ x ∈ w :: ws, x.1 = k := by
          rintro ⟨x, hx, hk⟩
          rcases List.mem_cons.mp hx with rfl | hx
          · exact hw hk
          · exact hlater ⟨x, hx, hk⟩
        rw [if_neg hlater, if_neg hnone, Function.update_of_ne (Ne.symm hw)]

/-- The words that an extraction reads and the stores that it makes: the first `n` samples and nothing else, from the
words that hold them. -/
structure Extracts (src : Nat → UInt32) (n : Nat) (reads : List Nat) (stores : List (Nat × UInt32)) : Prop where
  reads : ∀ r ∈ reads, r < (n + 1) / 2
  indices (k : Nat) : (∃ w ∈ stores, w.1 = k) ↔ k < n
  result (dst : Nat → UInt32) (s : Nat) : written dst stores s = if s < n then getMappedData src s else dst s

theorem extracts_of {n : Nat} {reads : List Nat} {stores : List (Nat × UInt32)} (hreads : ∀ r ∈ reads, r < (n + 1) / 2)
    (hstores : ∀ w, w ∈ stores ↔ w.1 < n ∧ w.2 = getMappedData src w.1) : Extracts src n reads stores := by
  have hindices (k : Nat) : (∃ w ∈ stores, w.1 = k) ↔ k < n := by
    constructor
    · rintro ⟨w, hw, rfl⟩
      exact ((hstores w).mp hw).1
    · intro hk
      exact ⟨(k, getMappedData src k), (hstores _).mpr ⟨hk, rfl⟩, rfl⟩
  refine ⟨hreads, hindices, fun dst s => ?_⟩
  rw [written_eq (fun w hw => ((hstores w).mp hw).2)]
  exact if_congr (hindices s) rfl rfl

/-! ### The parallel rounds -/

section Parallel
variable (c : Channels) (n : UInt32) (channel_index : Fin 40)

theorem toNat_simdLimit : (Channels.simdLimit n).toNat = n.toNat / 2 / 4 * 4 := by
  have hn := n.toNat_lt
  have hquot : (n / 2 / 4).toNat = n.toNat / 2 / 4 := by
    rw [UInt32.toNat_div, toNat_half]
    rfl
  rw [Channels.simdLimit, UInt32.toNat_mul, hquot]
  show n.toNat / 2 / 4 * 4 % 2 ^ 32 = _
  omega

theorem toNat_twice {i : UInt32} (h : i.toNat < 2 ^ 31) : (i * 2).toNat = i.toNat * 2 := by
  rw [UInt32.toNat_mul]
  show i.toNat * 2 % 2 ^ 32 = _
  omega

/-- A round, run on its own, stores the samples of its four words. -/
theorem parallelRound_covers {k : Nat} (hk : k < n.toNat / 2 / 4) : Covers (c.channel_ptrs channel_index) (k * 4) (k * 4 + 4)
    (c.parallelRound channel_index (UInt32.ofNat (k * 4))) := by
  have hn := n.toNat_lt
  have hi : (UInt32.ofNat (k * 4)).toNat = k * 4 := by
    rw [UInt32.toNat_ofNat']
    omega
  have hstart : Covers (c.channel_ptrs channel_index) _ _ (.start (UInt32.ofNat (k * 4)) (UInt32.ofNat (k * 4) * 2)) :=
    covers_start (toNat_twice (by omega))
  rw [hi] at hstart
  exact hstart.vector (Nat.le_refl _) (by omega)

theorem mem_parallelRounds {v : Extraction} : v ∈ c.parallelRounds n channel_index ↔
    ∃ k < n.toNat / 2 / 4, c.parallelRound channel_index (UInt32.ofNat (k * 4)) = v := by
  simp only [Channels.parallelRounds, List.mem_map, List.mem_range, toNat_simdLimit, Nat.mul_div_cancel _ (by decide : 0 < 4)]

/-- The vectorised prefix is stored, sample by sample. -/
theorem mem_parallelStores (w : Nat × UInt32) : w ∈ (c.parallelRounds n channel_index).flatMap (·.stores) ↔
    w.1 < n.toNat / 2 / 4 * 4 * 2 ∧ w.2 = getMappedData (c.channel_ptrs channel_index) w.1 := by
  simp only [List.mem_flatMap, mem_parallelRounds]
  constructor
  · rintro ⟨v, ⟨k, hk, rfl⟩, hw⟩
    obtain ⟨hindex, hvalue⟩ := ((parallelRound_covers c n channel_index hk).stores w).mp hw
    exact ⟨by omega, hvalue⟩
  · rintro ⟨hindex, hvalue⟩
    have hk : w.1 / 8 < n.toNat / 2 / 4 := by omega
    exact ⟨_, ⟨w.1 / 8, hk, rfl⟩, ((parallelRound_covers c n channel_index hk).stores w).mpr ⟨by omega, hvalue⟩⟩

/-- Two rounds store to different places. -/
theorem parallelRounds_disjoint : (c.parallelRounds n channel_index).Pairwise fun v v' =>
    ∀ w ∈ v.stores, ∀ w' ∈ v'.stores, w.1 ≠ w'.1 := by
  rw [Channels.parallelRounds, toNat_simdLimit, Nat.mul_div_cancel _ (by decide : 0 < 4), List.pairwise_map]
  refine List.pairwise_lt_range.imp_of_mem fun {k k'} hk hk' hlt w hw w' hw' => ?_
  obtain ⟨hindex, -⟩ := ((parallelRound_covers c n channel_index (List.mem_range.mp hk)).stores w).mp hw
  obtain ⟨hindex', -⟩ := ((parallelRound_covers c n channel_index (List.mem_range.mp hk')).stores w').mp hw'
  omega

end Parallel

/-! ### The extractions -/

/-- The stores that a dump makes, in one of their orders. -/
theorem mem_dumped {c : Channels} {n : UInt32} {channel_index : Fin 40} {e : Extraction}
    (h : ∀ w, w ∈ e.stores ↔ (n.toNat / 2 / 4 * 4 * 2 ≤ w.1 ∧ w.1 < n.toNat) ∧
      w.2 = getMappedData (c.channel_ptrs channel_index) w.1) (w : Nat × UInt32) :
    w ∈ (c.parallelRounds n channel_index).flatMap (·.stores) ++ e.stores ↔
      w ∈ SpyBuffer.extractMappedDataBulkSIMD (c.channel_ptrs channel_index) n.toNat := by
  rw [List.mem_append, mem_parallelStores, h, mem_extractMappedDataBulkSIMD, ← or_and_right]
  exact and_congr_left fun _ => by omega

/-- Each of the three extractions stores the first `n` samples and reads only the words that hold them. The parallel rounds
store to places of their own, which make up the vectorised prefix, so their stores may come in any order. -/
theorem extractions_spec (c : Channels) (n : UInt32) (channel_index : Fin 40) :
    (∃ e, c.extractMappedDataBulk n = some e ∧
      Extracts (c.channel_ptrs c.current_channel_index) n.toNat e.reads e.stores) ∧
    (∃ e, c.extractMappedDataBulkSIMD n = some e ∧
      Extracts (c.channel_ptrs c.current_channel_index) n.toNat e.reads e.stores) ∧
    ∃ e, c.leftovers n channel_index = some e ∧
      ((c.parallelRounds n channel_index).Pairwise fun v v' => ∀ w ∈ v.stores, ∀ w' ∈ v'.stores, w.1 ≠ w'.1) ∧
      (∀ k, (∃ v ∈ c.parallelRounds n channel_index, ∃ w ∈ v.stores, w.1 = k) ↔ k < (Channels.simdLimit n).toNat * 2) ∧
      ∀ ws, ws.Perm ((c.parallelRounds n channel_index).flatMap (·.stores)) →
        Extracts (c.channel_ptrs channel_index) n.toNat ((c.parallelRounds n channel_index).flatMap (·.reads) ++ e.reads)
          (ws ++ e.stores) := by
  have hzero : Covers (c.channel_ptrs c.current_channel_index) 0 0 (.start 0 0) := covers_start (i := 0) rfl
  refine ⟨?_, ?_, ?_⟩
  · obtain ⟨e, hwords, hreads, hstores⟩ := words_spec (n := n) hzero (Nat.le_refl 0) (Nat.zero_le _)
    exact ⟨e, hwords, extracts_of hreads fun w => by rw [hstores]; simp⟩
  · obtain ⟨e₁, hloop, h₁⟩ := vectorLoop_spec (n := n) hzero
    obtain ⟨e, hwords, hreads, hstores⟩ := words_spec (n := n) h₁ (Nat.zero_le _) (by omega)
    refine ⟨e, ?_, extracts_of hreads fun w => by rw [hstores]; simp⟩
    rw [Channels.extractMappedDataBulkSIMD, hloop, Option.bind_some, hwords]
  · have hlimit := toNat_simdLimit n
    have hn := n.toNat_lt
    have hstart : Covers (c.channel_ptrs channel_index) _ _ (.start (Channels.simdLimit n) (Channels.simdLimit n * 2)) :=
      covers_start (toNat_twice (by omega))
    rw [hlimit] at hstart
    obtain ⟨e, hwords, hreads, hstores⟩ := words_spec (n := n) hstart (Nat.le_refl _) (by omega)
    have hmem := mem_parallelStores c n channel_index
    refine ⟨e, hwords, parallelRounds_disjoint c n channel_index, fun k => ?_, fun ws hws => extracts_of (fun r hr => ?_) fun w => ?_⟩
    · rw [hlimit]
      constructor
      · rintro ⟨v, hv, w, hw, rfl⟩
        exact ((hmem w).mp (List.mem_flatMap.mpr ⟨v, hv, hw⟩)).1
      · intro hk
        obtain ⟨v, hv, hw⟩ := List.mem_flatMap.mp ((hmem (k, getMappedData (c.channel_ptrs channel_index) k)).mpr ⟨hk, rfl⟩)
        exact ⟨v, hv, _, hw, rfl⟩
    · rcases List.mem_append.mp hr with hr | hr
      · obtain ⟨v, hv, hr⟩ := List.mem_flatMap.mp hr
        obtain ⟨k, hk, rfl⟩ := (mem_parallelRounds c n channel_index).mp hv
        have := (parallelRound_covers c n channel_index hk).reads r hr
        omega
      · exact hreads r hr
    · rw [List.mem_append, hws.mem_iff, ← List.mem_append, mem_dumped hstores, mem_extractMappedDataBulkSIMD]

end DaphneZmq.SpyBuffer
