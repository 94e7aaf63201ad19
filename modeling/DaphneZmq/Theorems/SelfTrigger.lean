import DaphneZmq.SelfTrigger
import Mathlib.Tactic.Ring

/-! # What a configure request leaves in the self-trigger registers

The three mappings of the thresholds and the masks can fail independently. The registers are given by the mapping of
the HIGH mask alone, once the request has succeeded: the other two have not failed then. -/

namespace DaphneZmq
open Lib.Device
namespace SelfTrigger

variable {D : Type} {fails : Nat → Option String} {cfg : ConfigureRequest} {s : State Nat UInt32 D}

/-! ### Channels and masks -/

theorem mem_unique {a : UInt32} : ∀ {xs : List UInt32}, a ∈ unique xs ↔ a ∈ xs
  | [] => Iff.rfl
  | [x] => Iff.rfl
  | x :: y :: xs => by
    rw [unique]
    split
    · rename_i h
      rw [mem_unique, h]
      simp
    · rw [List.mem_cons, mem_unique, ← List.mem_cons]

theorem mem_listed {ch : UInt32} : ch ∈ listed cfg ↔ ∃ c ∈ cfg.channels, c.id = ch := by
  rw [listed, mem_unique, List.mem_insertionSort, List.mem_map]

theorem testBit_one_shiftLeft {n : UInt32} (hn : n.toNat < 32) {i : Nat} (hi : i < 32) :
    ((1 : UInt32) <<< n).toNat.testBit i = decide (n.toNat = i) := by
  rw [UInt32.toNat_shiftLeft, Nat.mod_eq_of_lt hn, Nat.testBit_mod_two_pow, decide_eq_true hi, Bool.true_and, UInt32.toNat_one,
    Nat.one_shiftLeft, Nat.testBit_two_pow]

theorem testBit_foldl {bit : UInt32 → Option UInt32} {i : Nat} (hi : i < 32) : ∀ {channels : List UInt32} {mask : UInt32},
    (∀ ch ∈ channels, ∀ n, bit ch = some n → n.toNat < 32) → ((channels.foldl (setBit bit) mask).toNat.testBit i = true ↔
      mask.toNat.testBit i = true ∨ ∃ ch ∈ channels, ∃ n, bit ch = some n ∧ n.toNat = i)
  | [], mask, _ => by simp
  | ch :: channels, mask, hbit => by
    rw [List.foldl_cons, testBit_foldl hi fun c hc => hbit c (List.mem_cons_of_mem _ hc), setBit]
    cases hch : bit ch with
    | none => simp [hch]
    | some n =>
      simp only [UInt32.toNat_or, Nat.testBit_or, testBit_one_shiftLeft (hbit ch List.mem_cons_self n hch) hi, Bool.or_eq_true,
        decide_eq_true_eq, List.mem_cons, exists_eq_or_imp, hch, Option.some.injEq, exists_eq_left', or_assoc]

theorem testBit_maskOf {bit : UInt32 → Option UInt32} {channels : List UInt32} {i : Nat} (hi : i < 32)
    (hbit : ∀ ch ∈ channels, ∀ n, bit ch = some n → n.toNat < 32) :
    (maskOf bit channels).toNat.testBit i = true ↔ ∃ ch ∈ channels, ∃ n, bit ch = some n ∧ n.toNat = i := by
  rw [maskOf, testBit_foldl hi hbit]
  simp

theorem testBit_maskLow {channels : List UInt32} {i : Nat} (hi : i < 32) :
    (maskLow channels).toNat.testBit i = true ↔ ∃ ch ∈ channels, ch.toNat = i := by
  have hlt {ch : UInt32} : ch < 32 ↔ ch.toNat < 32 := UInt32.lt_iff_toNat_lt
  rw [maskLow, testBit_maskOf hi]
  · refine exists_congr fun ch => and_congr_right fun _ => ⟨?_, fun h => ⟨ch, if_pos (hlt.mpr (h ▸ hi)), h⟩⟩
    rintro ⟨n, hn, rfl⟩
    split at hn
    · rw [Option.some.inj hn]
    · cases hn
  · intro ch _ n hn
    split at hn
    · rename_i h
      rw [← Option.some.inj hn]
      exact hlt.mp h
    · cases hn

theorem testBit_maskHigh {channels : List UInt32} (hch : ∀ ch ∈ channels, ch.toNat < 40) {i : Nat} (hi : i < 32) :
    (maskHigh channels).toNat.testBit i = true ↔ ∃ ch ∈ channels, ch.toNat = 32 + i := by
  have hsub {ch : UInt32} (h : ¬ch < 32) : 32 ≤ ch.toNat ∧ (ch - 32).toNat = ch.toNat - 32 := by
    have hle : (32 : UInt32) ≤ ch := UInt32.not_lt.mp h
    exact ⟨UInt32.le_iff_toNat_le.mp hle, UInt32.toNat_sub_of_le _ _ hle⟩
  rw [maskHigh, testBit_maskOf hi]
  · refine exists_congr fun ch => and_congr_right fun _ => ⟨?_, fun h => ?_⟩
    · rintro ⟨n, hn, rfl⟩
      split at hn
      · cases hn
      · rename_i h
        rw [← Option.some.inj hn, (hsub h).2]
        have := (hsub h).1
        omega
    · have hnot : ¬ch < 32 := by
        rw [UInt32.lt_iff_toNat_lt, h]
        exact Nat.not_lt.mpr (Nat.le_add_right 32 i)
      refine ⟨ch - 32, if_neg hnot, ?_⟩
      rw [(hsub hnot).2]
      omega
  · intro ch hmem n hn
    split at hn
    · cases hn
    · rename_i h
      rw [← Option.some.inj hn, (hsub h).2]
      have := hch ch hmem
      omega

/-! ### Thresholds -/

/-- The threshold that a request asks for, cut to 28 bits. -/
def requestedThreshold (cfg : ConfigureRequest) : Nat :=
  min (if cfg.self_trigger_xcorr ≠ 0 then cfg.self_trigger_xcorr.toNat % 2 ^ 28 else cfg.self_trigger_threshold.toNat)
    (2 ^ 28 - 1)

theorem toNat_rawThreshold (cfg : ConfigureRequest) : (rawThreshold cfg).toNat =
    if cfg.self_trigger_xcorr ≠ 0 then cfg.self_trigger_xcorr.toNat % 2 ^ 28 else cfg.self_trigger_threshold.toNat := by
  unfold rawThreshold
  split
  · rw [UInt64.toNat_and, ← Nat.and_two_pow_sub_one_eq_mod]
    rfl
  · rfl

theorem toNat_thrVal (cfg : ConfigureRequest) : (thrVal cfg).toNat = requestedThreshold cfg := by
  rw [requestedThreshold, ← toNat_rawThreshold, thrVal]
  have hmax : (0x0FFFFFFF : UInt64).toNat = 2 ^ 28 - 1 := rfl
  split
  · rename_i h
    rw [gt_iff_lt, UInt64.lt_iff_toNat_lt, hmax] at h
    rw [Nat.min_eq_right h.le]
    rfl
  · rename_i h
    rw [gt_iff_lt, UInt64.lt_iff_toNat_lt, hmax, Nat.not_lt] at h
    rw [Nat.min_eq_left h, UInt64.toNat_toUInt32, Nat.mod_eq_of_lt (by omega)]

/-- The threshold register of a channel. -/
def thresholdReg (ch : UInt32) : Nat := thresholdBase - fpgaBase + ch.toNat * thresholdStride

theorem thresholdReg_inj {ch ch' : UInt32} (h : thresholdReg ch = thresholdReg ch') : ch = ch' := by
  rw [← UInt32.toNat_inj]
  unfold thresholdReg thresholdStride at h
  omega

/-- What the writes of the thresholds leave. -/
structure ThresholdsWritten (channels : List UInt32) (value : UInt32) (n : Nat) (s t : State Nat UInt32 D) : Prop where
  accesses : t.accesses = s.accesses + n
  written : ∀ ch ∈ channels, t.cells (thresholdReg ch) = value
  kept : ∀ a, (∀ ch ∈ channels, a ≠ thresholdReg ch) → t.cells a = s.cells a

theorem forM_writeU32 (mem : DevMem) (hbase : mem.base = thresholdBase) (hlength : thresholdStride * 40 + 4 ≤ mem.length)
    (value : UInt32) : ∀ {channels : List UInt32} {s : State Nat UInt32 D}, (∀ ch ∈ channels, ch.toNat < 40) →
    ∃ t, (channels.forM fun ch => mem.writeU32 (ch.toNat * thresholdStride) value) s = .ok () t ∧
      ThresholdsWritten channels value channels.length s t
  | [], s, _ => ⟨s, rfl, rfl, fun _ h => absurd h List.not_mem_nil, fun _ _ => rfl⟩
  | ch :: channels, s, hch => by
    have hlt := hch ch List.mem_cons_self
    have haligned : ch.toNat * thresholdStride % 4 = 0 := by
      unfold thresholdStride
      omega
    have hwrite := mem.writeU32_eq haligned (by unfold thresholdStride at hlength ⊢; omega) value s
    rw [hbase] at hwrite
    obtain ⟨t, hrun, haccesses, hwritten, hkept⟩ := forM_writeU32 mem hbase hlength value
      (s := s.afterWrite (thresholdReg ch) value) fun c hc => hch c (List.mem_cons_of_mem _ hc)
    refine ⟨t, ?_, ?_, fun c hc => ?_, fun a ha => ?_⟩
    · show (mem.writeU32 _ value >>= fun _ => channels.forM _) s = _
      rw [bind_ok hwrite]
      exact hrun
    · rw [haccesses, List.length_cons]
      simp only [State.afterWrite]
      omega
    · by_cases hlater : c ∈ channels
      · exact hwritten c hlater
      · obtain rfl : c = ch := (List.mem_cons.mp hc).resolve_right hlater
        rw [hkept _ fun c' hc' heq => hlater (by rwa [thresholdReg_inj heq]), State.afterWrite_cells, Function.update_self]
    · rw [hkept a fun c hc => ha c (List.mem_cons_of_mem _ hc), State.afterWrite_cells,
        Function.update_of_ne (ha ch List.mem_cons_self)]

theorem writeThresholds_cases (fails : Nat → Option String) (hch : ∀ ch ∈ listed cfg, ch.toNat < 40) (value : UInt32) :
    (∃ e, fails s.accesses = some e ∧ writeThresholds fails (listed cfg) value s = .error e s.tick) ∨
      ∃ t, writeThresholds fails (listed cfg) value s = .ok () t ∧
        ThresholdsWritten (listed cfg) value ((listed cfg).length + 1) s t := by
  cases hfails : fails s.accesses with
  | some e =>
    refine Or.inl ⟨e, rfl, ?_⟩
    rw [writeThresholds, bind_error (DevMem.mapMemory_error hfails)]
  | none =>
    obtain ⟨t, hrun, haccesses, hwritten, hkept⟩ := forM_writeU32 (D := D) ⟨thresholdBase, _⟩ rfl
      (by decide : _ ≤ DevMem.alignToPage (thresholdStride * 40 + 4 + thresholdBase % pageSize)) value (s := s.tick) hch
    refine Or.inr ⟨t, ?_, ?_, hwritten, hkept⟩
    · rw [writeThresholds, bind_ok (DevMem.mapMemory_ok hfails)]
      exact hrun
    · rw [haccesses]
      simp only [State.tick]
      omega

/-! ### Masks -/

def lowReg : Nat := maskRegLow - fpgaBase
def highReg : Nat := maskRegHigh - fpgaBase

/-- The 40-bit mask of the two registers. -/
def enableMask (t : State Nat UInt32 D) : Nat := (t.cells lowReg).toNat ||| ((t.cells highReg).toNat <<< 32)

theorem testBit_enableMask {t : State Nat UInt32 D} (ch : Nat) : (enableMask t).testBit ch =
    if ch < 32 then (t.cells lowReg).toNat.testBit ch else (t.cells highReg).toNat.testBit (ch - 32) := by
  rw [enableMask, Nat.testBit_or, Nat.testBit_shiftLeft]
  split
  · rename_i h
    simp [Nat.not_le.mpr h]
  · rename_i h
    have hlow : (t.cells lowReg).toNat.testBit ch = false :=
      Nat.testBit_lt_two_pow (Nat.lt_of_lt_of_le (UInt32.toNat_lt _) (Nat.pow_le_pow_right Nat.two_pos (Nat.not_lt.mp h)))
    simp [hlow, Nat.not_lt.mp h]

theorem writeMask_ok (h : fails s.accesses = none) (reg : Nat) (mask : UInt32) :
    writeMask fails reg mask s = .ok () (s.tick.afterWrite (reg - fpgaBase) mask) := by
  have hfits : 0 + 4 ≤ DevMem.alignToPage (4 + reg % pageSize) := (Nat.le_add_right _ _).trans (DevMem.le_alignToPage _)
  have hwrite := DevMem.writeU32_eq (D := D) ⟨reg, DevMem.alignToPage (4 + reg % pageSize)⟩ (Nat.zero_mod 4) hfits mask
    s.tick
  rw [Nat.add_zero] at hwrite
  rw [writeMask, bind_ok (DevMem.mapMemory_ok h), hwrite]

theorem writeMask_error {e : String} (h : fails s.accesses = some e) (reg : Nat) (mask : UInt32) :
    writeMask fails reg mask s = .error e s.tick := by
  rw [writeMask, bind_error (DevMem.mapMemory_error h)]

/-- What the writes of the masks leave, if they succeed. -/
structure MasksWritten (fails : Nat → Option String) (channels : List UInt32) (s t : State Nat UInt32 D) : Prop where
  low : t.cells lowReg = maskLow channels
  high : fails (s.accesses + 2) = none → t.cells highReg = maskHigh channels
  skipped : fails (s.accesses + 2) ≠ none → maskHigh channels = 0 ∧ t.cells highReg = s.cells highReg
  kept : ∀ a, a ≠ lowReg → a ≠ highReg → t.cells a = s.cells a

theorem writeMasks_spec (fails : Nat → Option String) (channels : List UInt32) (s : State Nat UInt32 D) :
    ∃ ok lines t, writeMasks fails channels s = .ok (ok, lines) t ∧ (ok = true → MasksWritten fails channels s t) ∧
      ((∀ n, fails n = none) → ok = true) ∧ ∀ a, a ≠ lowReg → a ≠ highReg → t.cells a = s.cells a := by
  have hne : highReg ≠ lowReg := by decide
  unfold writeMasks
  cases hlow : fails s.accesses with
  | some e =>
    rw [bind_ok (attempt_error (writeMask_error hlow _ _))]
    cases hhigh : fails s.tick.accesses with
    | some e' =>
      rw [bind_ok (attempt_error (writeMask_error hhigh _ _))]
      refine ⟨_, _, _, rfl, fun hok => absurd hok Bool.false_ne_true, fun h => ?_, fun _ _ _ => rfl⟩
      rw [h] at hlow
      cases hlow
    | none =>
      rw [bind_ok (attempt_ok (writeMask_ok hhigh _ _))]
      refine ⟨_, _, _, rfl, fun hok => absurd hok Bool.false_ne_true, fun h => ?_, fun a _ ha => Function.update_of_ne ha _ _⟩
      rw [h] at hlow
      cases hlow
  | none =>
    rw [bind_ok (attempt_ok (writeMask_ok hlow _ _))]
    generalize hu : s.tick.afterWrite (maskRegLow - fpgaBase) (maskLow channels) = u
    have haccesses : u.accesses = s.accesses + 2 := by rw [← hu]; rfl
    have hcells : u.cells = Function.update s.cells lowReg (maskLow channels) := by rw [← hu]; rfl
    cases hhigh : fails u.accesses with
    | some e' =>
      rw [bind_ok (attempt_error (writeMask_error hhigh _ _))]
      have hothers : ∀ a, a ≠ lowReg → a ≠ highReg → u.tick.cells a = s.cells a := fun a ha _ =>
        (congrFun hcells a).trans (Function.update_of_ne ha _ _)
      refine ⟨_, _, _, rfl, fun hok => ⟨?_, fun hnone => ?_, fun _ => ⟨?_, ?_⟩, hothers⟩, fun h => ?_, hothers⟩
      · exact (congrFun hcells lowReg).trans (Function.update_self ..)
      · rw [← haccesses, hhigh] at hnone
        cases hnone
      · by_contra hnonzero
        rw [highResult, if_pos hnonzero, Bool.and_false] at hok
        exact Bool.false_ne_true hok
      · exact (congrFun hcells highReg).trans (Function.update_of_ne hne _ _)
      · rw [h] at hhigh
        cases hhigh
    | none =>
      rw [bind_ok (attempt_ok (writeMask_ok hhigh _ _))]
      generalize hv : u.tick.afterWrite (maskRegHigh - fpgaBase) (maskHigh channels) = v
      have hcells' : v.cells = Function.update u.cells highReg (maskHigh channels) := by rw [← hv]; rfl
      have hothers : ∀ a, a ≠ lowReg → a ≠ highReg → v.cells a = s.cells a := fun a ha ha' => by
        rw [hcells', Function.update_of_ne ha', hcells, Function.update_of_ne ha]
      refine ⟨_, _, _, rfl, fun _ => ⟨?_, fun _ => ?_, fun hsome => ?_, hothers⟩, fun _ => rfl, hothers⟩
      · rw [hcells', Function.update_of_ne hne.symm, hcells, Function.update_self]
      · rw [hcells', Function.update_self]
      · rw [haccesses] at hhigh
        exact absurd hhigh hsome

/-! ### A request -/

/-- The mapping of the HIGH mask is the last one, after a mapping and a write for the LOW mask. -/
def highAccess (cfg : ConfigureRequest) (s : State Nat UInt32 D) : Nat := s.accesses + (listed cfg).length + 3

/-- A request that succeeds has written the threshold of each listed channel. -/
def ThresholdsProgrammed (cfg : ConfigureRequest) (ok : Bool) (t : State Nat UInt32 D) : Prop :=
  ok = true → ∀ c ∈ cfg.channels, (t.cells (thresholdReg c.id)).toNat = requestedThreshold cfg

/-- A request with a channel that is not there writes nothing. -/
def NothingWritten (cfg : ConfigureRequest) (s t : State Nat UInt32 D) : Prop :=
  (∃ c ∈ cfg.channels, 40 ≤ c.id.toNat) → t.cells = s.cells ∧ t.writes = s.writes

/-- Bit `ch` of the mask says whether the channel is listed. -/
def Enabled (cfg : ConfigureRequest) (t : State Nat UInt32 D) (ch : Nat) : Prop :=
  (enableMask t).testBit ch = true ↔ ∃ c ∈ cfg.channels, c.id.toNat = ch

/-- A request that succeeds has enabled the listed channels and no others, except that the bits from 32 on keep their
    former values if no channel from 32 on is listed and the mapping of the HIGH mask fails. -/
structure MasksProgrammed (fails : Nat → Option String) (cfg : ConfigureRequest) (s : State Nat UInt32 D) (ok : Bool)
    (t : State Nat UInt32 D) : Prop where
  low : ok = true → cfg.channels ≠ [] → ∀ ch < 32, Enabled cfg t ch
  high : ok = true → cfg.channels ≠ [] → fails (highAccess cfg s) = none → ∀ ch < 40, Enabled cfg t ch
  skipped : ok = true → cfg.channels ≠ [] → fails (highAccess cfg s) ≠ none →
    (∀ c ∈ cfg.channels, c.id.toNat < 32) ∧ t.cells highReg = s.cells highReg

theorem exists_listed {p : Nat → Prop} :
    (∃ ch ∈ listed cfg, p ch.toNat) ↔ ∃ c ∈ cfg.channels, p c.id.toNat := by
  constructor
  · rintro ⟨ch, hch, h⟩
    obtain ⟨c, hc, rfl⟩ := mem_listed.mp hch
    exact ⟨c, hc, h⟩
  · rintro ⟨c, hc, h⟩
    exact ⟨c.id, mem_listed.mpr ⟨c, hc, rfl⟩, h⟩

theorem enabled_low {t : State Nat UInt32 D} (h : t.cells lowReg = maskLow (listed cfg)) {ch : Nat} (hch : ch < 32) :
    Enabled cfg t ch := by
  rw [Enabled, testBit_enableMask, if_pos hch, h, testBit_maskLow hch, exists_listed (p := (· = ch))]

theorem enabled_high {t : State Nat UInt32 D} (h : t.cells highReg = maskHigh (listed cfg))
    (hlisted : ∀ ch ∈ listed cfg, ch.toNat < 40) {ch : Nat} (hch : ¬ch < 32) (hlt : ch < 40) : Enabled cfg t ch := by
  rw [Enabled, testBit_enableMask, if_neg hch, h, testBit_maskHigh hlisted (by omega), Nat.add_sub_cancel' (Nat.not_lt.mp hch),
    exists_listed (p := (· = ch))]

theorem lt_of_maskHigh_eq_zero (h : maskHigh (listed cfg) = 0) (hlisted : ∀ ch ∈ listed cfg, ch.toNat < 40) :
    ∀ c ∈ cfg.channels, c.id.toNat < 32 := by
  intro c hc
  have hmem : c.id ∈ listed cfg := mem_listed.mpr ⟨c, hc, rfl⟩
  by_contra hnot
  have hlt := hlisted c.id hmem
  have hbit := (testBit_maskHigh hlisted (i := c.id.toNat - 32) (by omega)).mpr ⟨c.id, hmem, by omega⟩
  rw [h] at hbit
  simp at hbit

theorem not_threshold {channels : List UInt32} {a : Nat} (ha : a < thresholdBase - fpgaBase) :
    ∀ ch ∈ channels, a ≠ thresholdReg ch := fun ch _ heq => by
  rw [heq] at ha
  exact absurd ha (Nat.not_lt.mpr (Nat.le_add_right _ _))

theorem programThresholds_spec (fails : Nat → Option String) (hlisted : ∀ ch ∈ listed cfg, ch.toNat < 40) :
    ∃ ok msg t, programThresholds fails cfg s = .ok (ok, msg) t ∧ ThresholdsProgrammed cfg ok t ∧
      MasksProgrammed fails cfg s ok t ∧ ((∀ n, fails n = none) → ok = true) ∧
      ∀ a, a ≠ lowReg → a ≠ highReg → a < thresholdBase - fpgaBase → t.cells a = s.cells a := by
  unfold programThresholds
  rcases writeThresholds_cases (s := s) fails hlisted (thrVal cfg) with ⟨e, hfails, he⟩ | ⟨u, hu, hwritten⟩
  · rw [bind_ok (attempt_error he)]
    refine ⟨_, _, _, rfl, fun h => absurd h Bool.false_ne_true, ⟨?_, ?_, ?_⟩, fun h => ?_, fun _ _ _ _ => rfl⟩
    · exact fun h => absurd h Bool.false_ne_true
    · exact fun h => absurd h Bool.false_ne_true
    · exact fun h => absurd h Bool.false_ne_true
    · rw [h] at hfails
      cases hfails
  · rw [bind_ok (attempt_ok hu)]
    obtain ⟨ok, lines, t, hrun, hmasks, hok, hkept⟩ := writeMasks_spec fails (listed cfg) u
    have haccess : u.accesses + 2 = highAccess cfg s := by
      rw [hwritten.accesses, highAccess]
      omega
    have hlow : lowReg < thresholdBase - fpgaBase := by decide
    have hhigh : highReg < thresholdBase - fpgaBase := by decide
    dsimp only
    rw [bind_ok hrun]
    refine ⟨_, _, t, rfl, fun _ c hc => ?_, ⟨fun h _ ch hch => ?_, fun h _ hnone ch hch => ?_, fun h _ hsome => ?_⟩, hok,
      fun a ha ha' hlt => ?_⟩
    · have hthr (ch : UInt32) : thresholdReg ch ≠ lowReg ∧ thresholdReg ch ≠ highReg := by
        have : thresholdBase - fpgaBase ≤ thresholdReg ch := Nat.le_add_right _ _
        exact ⟨by omega, by omega⟩
      rw [hkept _ (hthr c.id).1 (hthr c.id).2, hwritten.written _ (mem_listed.mpr ⟨c, hc, rfl⟩), toNat_thrVal]
    · exact enabled_low (hmasks h).low hch
    · by_cases hch' : ch < 32
      · exact enabled_low (hmasks h).low hch'
      · exact enabled_high ((hmasks h).high (haccess ▸ hnone)) hlisted hch' hch
    · obtain ⟨hzero, hcell⟩ := (hmasks h).skipped (haccess ▸ hsome)
      refine ⟨lt_of_maskHigh_eq_zero hzero hlisted, ?_⟩
      rw [hcell, hwritten.kept _ (not_threshold hhigh)]
    · rw [hkept a ha ha', hwritten.kept _ (not_threshold hlt)]

/-- What `write_trigger_thresholds` leaves, and that it succeeds if no mapping fails and the channels are there. -/
theorem writeTriggerThresholds_cases (fails : Nat → Option String) (cfg : ConfigureRequest) (s : State Nat UInt32 D) :
    ∃ ok msg t, writeTriggerThresholds fails cfg s = .ok (ok, msg) t ∧
      (ThresholdsProgrammed cfg ok t ∧ MasksProgrammed fails cfg s ok t ∧ NothingWritten cfg s t) ∧
      ((∀ n, fails n = none) → (∀ c ∈ cfg.channels, c.id.toNat < 40) → ok = true) ∧
      ∀ a, a ≠ lowReg → a ≠ highReg → a < thresholdBase - fpgaBase → t.cells a = s.cells a := by
  have hge {ch : UInt32} : ch ≥ 40 ↔ 40 ≤ ch.toNat := UInt32.le_iff_toNat_le
  unfold writeTriggerThresholds
  split
  · rename_i hempty
    have hnil : cfg.channels = [] := List.isEmpty_iff.mp hempty
    refine ⟨_, _, s, rfl, ⟨fun _ c hc => ?_, ⟨?_, ?_, ?_⟩, fun _ => ⟨rfl, rfl⟩⟩, fun _ _ => rfl, fun _ _ _ _ => rfl⟩
    · rw [hnil] at hc
      cases hc
    · exact fun _ h => absurd hnil h
    · exact fun _ h => absurd hnil h
    · exact fun _ h => absurd hnil h
  cases hfind : (listed cfg).find? (· ≥ 40) with
  | some ch =>
    have hfound := List.find?_some hfind
    have hch : 40 ≤ ch.toNat := hge.mp (of_decide_eq_true hfound)
    refine ⟨_, _, s, rfl, ⟨fun h => absurd h Bool.false_ne_true, ⟨?_, ?_, ?_⟩, fun _ => ⟨rfl, rfl⟩⟩, fun _ hall => ?_,
      fun _ _ _ _ => rfl⟩
    · exact fun h => absurd h Bool.false_ne_true
    · exact fun h => absurd h Bool.false_ne_true
    · exact fun h => absurd h Bool.false_ne_true
    · obtain ⟨c, hc, rfl⟩ := mem_listed.mp (List.mem_of_find?_eq_some hfind)
      exact absurd (hall c hc) (Nat.not_lt.mpr hch)
  | none =>
    have hlisted : ∀ ch ∈ listed cfg, ch.toNat < 40 := fun ch hch => by
      have := List.find?_eq_none.mp hfind ch hch
      rw [decide_eq_true_eq, hge] at this
      exact Nat.lt_of_not_le this
    obtain ⟨ok, msg, t, hrun, hthresholds, hmasks, hok, hkept⟩ := programThresholds_spec (s := s) fails hlisted
    refine ⟨ok, msg, t, hrun, ⟨hthresholds, hmasks, fun ⟨c, hc, hle⟩ => ?_⟩, fun h _ => hok h, hkept⟩
    exact absurd (hlisted c.id (mem_listed.mpr ⟨c, hc, rfl⟩)) (Nat.not_lt.mpr hle)

/-- The registers of a request that succeeds are those that it asks for, up to a HIGH mask that is skipped. -/
theorem writeTriggerThresholds_spec (fails : Nat → Option String) (cfg : ConfigureRequest) (s : State Nat UInt32 D) :
    ∃ ok msg t, writeTriggerThresholds fails cfg s = .ok (ok, msg) t ∧
      ThresholdsProgrammed cfg ok t ∧ MasksProgrammed fails cfg s ok t ∧ NothingWritten cfg s t := by
  obtain ⟨ok, msg, t, hrun, h, -⟩ := writeTriggerThresholds_cases fails cfg s
  exact ⟨ok, msg, t, hrun, h⟩

/-- Only channel 0. -/
def channelZero : ConfigureRequest := { channels := [⟨0, 0, 0⟩] }

/-- The mapping of the HIGH mask fails. -/
def noHighMask (n : Nat) : Option String := if n = 4 then some "Failed to mmap memory: Invalid argument" else none

/-- All the bits of the HIGH mask stay set, with success. -/
theorem noHighMask_not_enabled : ¬∀ (fails : Nat → Option String) (cfg : ConfigureRequest) (s : State Nat UInt32 Unit),
    ∃ ok msg t, writeTriggerThresholds fails cfg s = .ok (ok, msg) t ∧
      (ok = true → cfg.channels ≠ [] → ∀ ch < 40, Enabled cfg t ch) := by
  intro h
  obtain ⟨ok, msg, t, hrun, henabled⟩ := h noHighMask channelZero ⟨fun _ => 0xFFFFFFFF, fun _ => 0, 0, [], ()⟩
  obtain ⟨msg', t', hrun', hcell⟩ : ∃ msg' t', writeTriggerThresholds noHighMask channelZero
      ⟨fun _ => 0xFFFFFFFF, fun _ => 0, 0, [], ()⟩ = .ok (true, msg') t' ∧ t'.cells highReg = 0xFFFFFFFF := ⟨_, _, rfl, rfl⟩
  rw [hrun'] at hrun
  obtain ⟨hresult, rfl⟩ := EStateM.Result.ok.inj hrun
  obtain ⟨rfl, -⟩ := Prod.mk.inj hresult
  obtain ⟨c, hc, hid⟩ := (henabled rfl (List.cons_ne_nil _ _) 32 (by decide)).mp (by
    rw [testBit_enableMask, if_neg (by decide), hcell]
    decide)
  obtain rfl : c = ⟨0, 0, 0⟩ := List.mem_singleton.mp hc
  exact absurd hid (by decide)

/-! ### Packed words -/

theorem or_shiftLeft {x i : Nat} (hx : x < 2 ^ i) (a : Nat) : x ||| (a <<< i) = x + a * 2 ^ i := by
  rw [Nat.or_comm, ← Nat.shiftLeft_add_eq_or_of_lt hx, Nat.shiftLeft_eq, Nat.add_comm]

namespace Trigger
variable (trigger : Trigger)

theorem filterMode_lt : trigger.filterMode < 4 := by
  unfold filterMode
  simp only [List.lookup_cons, List.lookup_nil]
  repeat' split
  all_goals decide

theorem slopeMode_lt : trigger.slopeMode < 2 := by
  unfold slopeMode
  split
  · decide
  · decide

theorem slopeThreshold_lt : trigger.slopeThreshold < 128 := by
  unfold slopeThreshold
  omega

theorem pedestalCode_lt : trigger.pedestalCode < 32 := by
  unfold pedestalCode
  omega

theorem spyCode_lt : trigger.spyCode < 64 := by
  unfold spyCode
  omega

theorem assembleTpConf_eq : assembleTpConf trigger = trigger.filterMode + trigger.slopeMode * 2 ^ 8 +
    trigger.slopeThreshold * 2 ^ 9 + trigger.pedestalCode * 2 ^ 16 + trigger.spyCode * 2 ^ 21 := by
  have h1 := trigger.filterMode_lt
  have h2 := trigger.slopeMode_lt
  have h3 := trigger.slopeThreshold_lt
  have h4 := trigger.pedestalCode_lt
  have h5 := trigger.spyCode_lt
  have hmask (n : Nat) {x : Nat} (hx : x < 2 ^ n) : x &&& (2 ^ n - 1) = x := by
    rw [Nat.and_two_pow_sub_one_eq_mod, Nat.mod_eq_of_lt hx]
  have hfilter : trigger.filterMode &&& 0x3 = trigger.filterMode := hmask 2 h1
  have hmode : trigger.slopeMode &&& 0x1 = trigger.slopeMode := hmask 1 h2
  have hslope : trigger.slopeThreshold &&& 0x7F = trigger.slopeThreshold := hmask 7 h3
  have hpedestal : trigger.pedestalCode &&& 0x1F = trigger.pedestalCode := hmask 5 h4
  have hspy : trigger.spyCode &&& 0x3F = trigger.spyCode := hmask 6 h5
  have h12 : trigger.filterMode + trigger.slopeMode * 2 ^ 8 < 2 ^ 9 := by omega
  have h13 : trigger.filterMode + trigger.slopeMode * 2 ^ 8 + trigger.slopeThreshold * 2 ^ 9 < 2 ^ 16 := by omega
  have h14 : trigger.filterMode + trigger.slopeMode * 2 ^ 8 + trigger.slopeThreshold * 2 ^ 9 +
    trigger.pedestalCode * 2 ^ 16 < 2 ^ 21 := by omega
  rw [assembleTpConf, hfilter, hmode, hslope, hpedestal, hspy, or_shiftLeft (show trigger.filterMode < 2 ^ 8 by omega),
    or_shiftLeft h12, or_shiftLeft h13, or_shiftLeft h14]

theorem toNat_tpConf : (UInt64.ofNat (assembleTpConf trigger)).toNat = assembleTpConf trigger := by
  have h1 := trigger.filterMode_lt
  have h2 := trigger.slopeMode_lt
  have h3 := trigger.slopeThreshold_lt
  have h4 := trigger.pedestalCode_lt
  have h5 := trigger.spyCode_lt
  rw [UInt64.toNat_ofNat', Nat.mod_eq_of_lt]
  rw [assembleTpConf_eq]
  omega

theorem toNat_field (word : UInt64) {low mask : UInt64} {width : Nat} (hlow : low.toNat < 64) (hwidth : width ≤ 32)
    (hmask : mask.toNat = 2 ^ width - 1) :
    ((word >>> low) &&& mask).toUInt32.toNat = word.toNat / 2 ^ low.toNat % 2 ^ width := by
  have hpow : 2 ^ width ≤ 2 ^ 32 := Nat.pow_le_pow_right Nat.two_pos hwidth
  have hlt : word.toNat / 2 ^ low.toNat % 2 ^ width < 2 ^ width := Nat.mod_lt _ (Nat.two_pow_pos _)
  rw [UInt64.toNat_toUInt32, UInt64.toNat_and, UInt64.toNat_shiftRight, hmask, Nat.and_two_pow_sub_one_eq_mod,
    Nat.shiftRight_eq_div_pow, Nat.mod_eq_of_lt hlow, Nat.mod_eq_of_lt (by omega)]

theorem toNat_filterOutputSel : (filterOutputSel (.ofNat (assembleTpConf trigger))).toNat = trigger.filterMode := by
  have h := trigger.filterMode_lt
  have hmask : (0x3 : UInt64).toNat = 2 ^ 2 - 1 := rfl
  rw [filterOutputSel, UInt64.toNat_toUInt32, UInt64.toNat_and, hmask, Nat.and_two_pow_sub_one_eq_mod, toNat_tpConf,
    assembleTpConf_eq]
  omega

theorem toNat_stConfig : (stConfig (.ofNat (assembleTpConf trigger))).toNat =
    trigger.slopeMode * 2 ^ 6 + trigger.slopeThreshold * 2 ^ 7 := by
  have h1 := trigger.filterMode_lt
  have h2 := trigger.slopeMode_lt
  have h3 := trigger.slopeThreshold_lt
  calc (stConfig (.ofNat (assembleTpConf trigger))).toNat
      = (UInt64.ofNat (assembleTpConf trigger)).toNat / 2 ^ 2 % 2 ^ 14 := toNat_field _ (by decide) (by decide) rfl
    _ = trigger.slopeMode * 2 ^ 6 + trigger.slopeThreshold * 2 ^ 7 := by
      rw [toNat_tpConf, assembleTpConf_eq]
      omega

theorem toNat_signalDelay : (signalDelay (.ofNat (assembleTpConf trigger))).toNat = trigger.pedestalCode := by
  have h1 := trigger.filterMode_lt
  have h2 := trigger.slopeMode_lt
  have h3 := trigger.slopeThreshold_lt
  have h4 := trigger.pedestalCode_lt
  calc (signalDelay (.ofNat (assembleTpConf trigger))).toNat
      = (UInt64.ofNat (assembleTpConf trigger)).toNat / 2 ^ 16 % 2 ^ 5 := toNat_field _ (by decide) (by decide) rfl
    _ = trigger.pedestalCode := by
      rw [toNat_tpConf, assembleTpConf_eq]
      omega

end Trigger

/-- The threshold of a packed word is the correlation threshold, also if the word is zero. -/
theorem requestedThreshold_packed (trigger : Trigger) (conf : XcorrConf) (cfg : ConfigureRequest) :
    requestedThreshold (packed trigger conf cfg) = conf.corr := by
  have hcorr : conf.corr < 2 ^ 28 := by
    unfold XcorrConf.corr
    omega
  have hdisc : conf.disc < 2 ^ 14 := by
    unfold XcorrConf.disc
    omega
  have hword : computeSelfTriggerXcorr conf = conf.corr + conf.disc * 2 ^ 28 := by
    rw [computeSelfTriggerXcorr, Nat.or_comm, or_shiftLeft hcorr]
  have hnat : (UInt64.ofNat (computeSelfTriggerXcorr conf)).toNat = computeSelfTriggerXcorr conf := by
    rw [UInt64.toNat_ofNat', Nat.mod_eq_of_lt]
    omega
  unfold requestedThreshold packed
  dsimp only
  split
  · rw [hnat]
    omega
  · rename_i h
    have hzero : computeSelfTriggerXcorr conf = 0 := by
      rw [← hnat, Classical.not_not.mp h]
      rfl
    rw [UInt64.toNat_zero]
    omega

/-! ### Controls -/

def stuffReg (offset : Nat) : Nat := stuffBase - fpgaBase + offset

/-- What the controls of a request are, once they are written: those of a `tp_conf` of zero keep their values. -/
structure ControlsWritten (cfg : ConfigureRequest) (s t : State Nat UInt32 D) : Prop where
  config : t.cells (stuffReg offStConfig) = if cfg.tp_conf ≠ 0 then stConfig cfg.tp_conf else s.cells (stuffReg offStConfig)
  delay : t.cells (stuffReg offStDelay) = if cfg.tp_conf ≠ 0 then signalDelay cfg.tp_conf else s.cells (stuffReg offStDelay)
  filter : t.cells (stuffReg offStFilterOutputSel) =
    if cfg.tp_conf ≠ 0 then filterOutputSel cfg.tp_conf else s.cells (stuffReg offStFilterOutputSel)

/-- The mapping of the control registers. -/
def stuff : DevMem := ⟨stuffBase, DevMem.alignToPage (0x100 + stuffBase % pageSize)⟩

theorem writeU32_stuff {offset : Nat} (haligned : offset % 4 = 0) (hfits : offset + 4 ≤ 0x100) (value : UInt32)
    (s : State Nat UInt32 D) : stuff.writeU32 offset value s = .ok () (s.afterWrite (stuffReg offset) value) :=
  DevMem.writeU32_eq _ haligned (hfits.trans ((Nat.le_add_right _ _).trans (DevMem.le_alignToPage _))) value s

theorem writeTpConf_stuff (tpConf : UInt64) (s : State Nat UInt32 D) : ∃ line t, writeTpConf stuff tpConf s = .ok line t ∧
    t.cells = if tpConf ≠ 0 then Function.update (Function.update (Function.update s.cells (stuffReg offStConfig)
      (stConfig tpConf)) (stuffReg offStDelay) (signalDelay tpConf)) (stuffReg offStFilterOutputSel) (filterOutputSel tpConf)
    else s.cells := by
  unfold writeTpConf
  split
  · rw [bind_ok (writeU32_stuff (by decide) (by decide) _ s), bind_ok (writeU32_stuff (by decide) (by decide) _ _),
      bind_ok (writeU32_stuff (by decide) (by decide) _ _)]
    exact ⟨_, _, rfl, rfl⟩
  · exact ⟨_, _, rfl, rfl⟩

theorem writeSelfTriggerControls_spec (fails : Nat → Option String) (cfg : ConfigureRequest) (s : State Nat UInt32 D) :
    ∃ ok msg t, writeSelfTriggerControls fails cfg s = .ok (ok, msg) t ∧ (ok = true → ControlsWritten cfg s t) ∧
      ((∀ n, fails n = none) → ok = true) ∧ ∀ a, thresholdBase - fpgaBase ≤ a → t.cells a = s.cells a := by
  unfold writeSelfTriggerControls
  cases hfails : fails s.accesses with
  | some e =>
    have hrun : writeControls fails cfg s = .error e s.tick := by
      rw [writeControls, bind_error (DevMem.mapMemory_error hfails)]
    rw [bind_ok (attempt_error hrun)]
    refine ⟨_, _, _, rfl, fun h => absurd h Bool.false_ne_true, fun h => ?_, fun _ _ => rfl⟩
    rw [h] at hfails
    cases hfails
  | none =>
    obtain ⟨line, u, hu, hcells⟩ := writeTpConf_stuff cfg.tp_conf s.tick
    obtain ⟨lines, t, hrun, ht⟩ : ∃ lines t, writeControls fails cfg s = .ok lines t ∧
        ∀ a, a ∉ [offStAfeCompLo, offStAfeCompHi, offStInvertLo, offStInvertHi].map stuffReg → t.cells a = u.cells a := by
      have hmapped : DevMem.mapMemory fails stuffBase 0x100 s = .ok stuff s.tick := DevMem.mapMemory_ok hfails
      rw [writeControls, bind_ok hmapped, bind_ok hu, bind_ok (writeU32_stuff (by decide) (by decide) _ u), bind_ok (writeU32_stuff (by decide) (by decide) _ _),
        bind_ok (writeU32_stuff (by decide) (by decide) _ _), bind_ok (writeU32_stuff (by decide) (by decide) _ _)]
      refine ⟨_, _, rfl, fun a ha => ?_⟩
      simp only [List.map_cons, List.map_nil, List.mem_cons, List.not_mem_nil, or_false, not_or] at ha
      simp only [State.afterWrite_cells, Function.update_of_ne ha.1, Function.update_of_ne ha.2.1,
        Function.update_of_ne ha.2.2.1, Function.update_of_ne ha.2.2.2]
    rw [bind_ok (attempt_ok hrun)]
    refine ⟨_, _, t, rfl, fun _ => ⟨?_, ?_, ?_⟩, fun _ => rfl, fun a ha => ?_⟩
    · rw [ht _ (by decide), hcells]
      split
      · rw [Function.update_of_ne (by decide), Function.update_of_ne (by decide), Function.update_self]
      · rfl
    · rw [ht _ (by decide), hcells]
      split
      · rw [Function.update_of_ne (by decide), Function.update_self]
      · rfl
    · rw [ht _ (by decide), hcells]
      split
      · rw [Function.update_self]
      · rfl
    · have hne (offset : Nat) (hlt : offset < 0x100) : a ≠ stuffReg offset := by
        unfold stuffReg stuffBase
        unfold thresholdBase at ha
        unfold fpgaBase at ha ⊢
        omega
      have hother : a ∉ [offStAfeCompLo, offStAfeCompHi, offStInvertLo, offStInvertHi].map stuffReg := by
        simp [hne, offStAfeCompLo, offStAfeCompHi, offStInvertLo, offStInvertHi]
      rw [ht a hother, hcells]
      split
      · rw [Function.update_of_ne (hne _ (by decide)), Function.update_of_ne (hne _ (by decide)),
          Function.update_of_ne (hne _ (by decide))]
        rfl
      · rfl

/-! ### From the dictionaries to the registers -/

/-- The registers hold the fields of the dictionaries, except that a `tp_conf` that is packed into zero leaves its
    registers alone. -/
structure FieldsProgrammed (trigger : Trigger) (s t : State Nat UInt32 D) : Prop where
  fields : assembleTpConf trigger ≠ 0 →
    (t.cells (stuffReg offStFilterOutputSel)).toNat = trigger.filterMode ∧
    (t.cells (stuffReg offStConfig)).toNat = trigger.slopeMode * 2 ^ 6 + trigger.slopeThreshold * 2 ^ 7 ∧
    (t.cells (stuffReg offStDelay)).toNat = trigger.pedestalCode
  zero : assembleTpConf trigger = 0 → t.cells (stuffReg offStFilterOutputSel) = s.cells (stuffReg offStFilterOutputSel) ∧
    t.cells (stuffReg offStConfig) = s.cells (stuffReg offStConfig) ∧
    t.cells (stuffReg offStDelay) = s.cells (stuffReg offStDelay)

theorem packed_tp_conf_eq_zero (trigger : Trigger) (conf : XcorrConf) (cfg : ConfigureRequest) :
    (packed trigger conf cfg).tp_conf = 0 ↔ assembleTpConf trigger = 0 := by
  rw [← UInt64.toNat_inj, packed, trigger.toNat_tpConf]
  rfl

theorem ControlsWritten.fieldsProgrammed {trigger : Trigger} {conf : XcorrConf} {t : State Nat UInt32 D}
    (h : ControlsWritten (packed trigger conf cfg) s t) : FieldsProgrammed trigger s t := by
  have hzero := packed_tp_conf_eq_zero trigger conf cfg
  refine ⟨fun hne => ?_, fun heq => ?_⟩
  · have htp := mt hzero.mp hne
    rw [h.filter, h.config, h.delay, if_pos htp, if_pos htp, if_pos htp]
    exact ⟨trigger.toNat_filterOutputSel, trigger.toNat_stConfig, trigger.toNat_signalDelay⟩
  · have htp := not_not_intro (hzero.mpr heq)
    rw [h.filter, h.config, h.delay, if_neg htp, if_neg htp, if_neg htp]
    exact ⟨rfl, rfl, rfl⟩

/-- The two steps of a configure request with the packed words leave the packed fields in the registers, whatever
    these held before. If no mapping fails and the listed channels are there, both steps succeed. -/
theorem packed_programs (trigger : Trigger) (conf : XcorrConf) (cfg : ConfigureRequest) (fails : Nat → Option String)
    (s : State Nat UInt32 D) :
    ∃ ok msg t ok' msg' u, writeTriggerThresholds fails (packed trigger conf cfg) s = .ok (ok, msg) t ∧
      writeSelfTriggerControls fails (packed trigger conf cfg) t = .ok (ok', msg') u ∧
      (ok = true → ∀ c ∈ cfg.channels, (u.cells (thresholdReg c.id)).toNat = conf.corr) ∧
      (ok' = true → FieldsProgrammed trigger s u) ∧
      ((∀ n, fails n = none) → (∀ c ∈ cfg.channels, c.id.toNat < 40) → ok = true ∧ ok' = true) := by
  obtain ⟨ok, msg, t, hrun, ⟨hthresholds, -⟩, hok, hkept⟩ := writeTriggerThresholds_cases fails (packed trigger conf cfg) s
  obtain ⟨ok', msg', u, hrun', hcontrols, hok', hkept'⟩ := writeSelfTriggerControls_spec fails (packed trigger conf cfg) t
  refine ⟨ok, msg, t, ok', msg', u, hrun, hrun', fun h c hc => ?_, fun h => ?_, fun hnone hch => ⟨hok hnone hch, hok' hnone⟩⟩
  · rw [hkept' (thresholdReg c.id) (Nat.le_add_right _ _), hthresholds h c hc, requestedThreshold_packed]
  · have hbefore (offset : Nat) (hlt : offset < 0x100) (hlow : stuffReg offset ≠ lowReg) (hhigh : stuffReg offset ≠ highReg) :
        t.cells (stuffReg offset) = s.cells (stuffReg offset) := by
      refine hkept _ hlow hhigh ?_
      unfold stuffReg stuffBase thresholdBase fpgaBase
      omega
    obtain ⟨hfields, hzero⟩ := (hcontrols h).fieldsProgrammed
    refine ⟨hfields, fun heq => ?_⟩
    rw [← hbefore _ (by decide) (by decide) (by decide), ← hbefore _ (by decide) (by decide) (by decide),
      ← hbefore _ (by decide) (by decide) (by decide)]
    exact hzero heq

/-- Fields that are all zero. -/
def zeroTrigger : Trigger where
  filter_mode := some (.str "compensated")
  slope_mode := some (.int 16)
  slope_threshold := some 0
  pedestal_length := some 0
  spybuffer_channel := some 0

/-- The filter selector keeps its former value. -/
theorem zeroTrigger_not_programmed : ¬∀ (trigger : Trigger) (conf : XcorrConf) (cfg : ConfigureRequest)
    (fails : Nat → Option String) (s : State Nat UInt32 Unit), ∃ ok msg t,
    writeSelfTriggerControls fails (packed trigger conf cfg) s = .ok (ok, msg) t ∧
      (ok = true → (t.cells (stuffReg offStFilterOutputSel)).toNat = trigger.filterMode) := by
  intro h
  obtain ⟨ok, msg, t, hrun, hfilter⟩ := h zeroTrigger {} {} (fun _ => none) ⟨fun _ => 3, fun _ => 0, 0, [], ()⟩
  obtain ⟨ok', msg', t', hrun', hcontrols, hok, -⟩ := writeSelfTriggerControls_spec (fun _ => none) (packed zeroTrigger {} {})
    (⟨fun _ => 3, fun _ => 0, 0, [], ()⟩ : State Nat UInt32 Unit)
  rw [hrun'] at hrun
  obtain ⟨hresult, rfl⟩ := EStateM.Result.ok.inj hrun
  obtain ⟨rfl, rfl⟩ := Prod.mk.inj hresult
  have hok := hok fun _ => rfl
  have hzero := ((hcontrols hok).fieldsProgrammed).zero (by decide)
  have hmode := hfilter hok
  rw [hzero.1] at hmode
  exact absurd hmode (by decide)

end SelfTrigger
end DaphneZmq
