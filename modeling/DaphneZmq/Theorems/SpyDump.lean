import DaphneZmq.SpyDump
import DaphneZmq.Theorems.ChunkedDump

/-! # What a dump in one reply holds

A request that passes the checks asks for less than `2 ^ 31` words, so neither the 32-bit nor the 64-bit products
of the two branches wrap, and both fill the data as a packet of a chunked dump is filled. -/

namespace DaphneZmq.SpyDump
open Chunker

variable {req : DumpSpyBuffersRequest} {hw : SpyHardware} {env : Option Nat} {channels : List Nat} {what : String}
  {resp : DumpSpyBuffersResponse}

/-! ### The checks -/

/-- What a request that passes the checks satisfies. -/
structure Accepted (req : DumpSpyBuffersRequest) : Prop where
  samples_pos : 0 < req.numberOfSamples.toNat
  samples_le : req.numberOfSamples.toNat ≤ 2048
  channels_pos : 0 < req.channelList.length
  words_le : req.numberOfSamples.toNat * req.channelList.length * req.numberOfWaveforms.toNat ≤ intMax

theorem mul_lt_of_mod_div {a b m : Nat} (hm : 0 < m) (h : a * b % m / b = a) : a * b < m :=
  calc a * b = a * b % m / b * b := by rw [h]
    _ ≤ a * b % m := Nat.div_mul_le_self _ _
    _ < m := Nat.mod_lt _ hm

theorem toNat_wordsPerWaveform (req : DumpSpyBuffersRequest) (hsamples : req.numberOfSamples.toNat ≤ 2048) :
    (req.numberOfSamples.toUInt64 * UInt64.ofNat req.channelList.length).toNat =
      req.numberOfSamples.toNat * req.channelList.length := by
  have hsize : req.channelList.length ≤ 2 ^ 31 - 1 := req.size_le
  have hmul := Nat.mul_le_mul hsamples hsize
  rw [UInt64.toNat_mul, UInt32.toNat_toUInt64, UInt64.toNat_ofNat', Nat.mod_eq_of_lt (a := req.channelList.length) (by omega),
    Nat.mod_eq_of_lt (by omega)]

theorem validate_ok {totalWords : UInt64} (h : validate req env = .ok totalWords) : Accepted req ∧
    totalWords.toNat = req.numberOfSamples.toNat * req.channelList.length * req.numberOfWaveforms.toNat := by
  unfold validate at h
  dsimp only at h
  split at h
  · cases h
  split at h
  · cases h
  rename_i hsamples
  split at h
  · cases h
  rename_i hchannels
  split at h
  · cases h
  rename_i hoverflow
  split at h
  · cases h
  split at h
  · cases h
  rename_i hmax
  split at h
  · cases h
  cases h
  have hpos : 0 < req.numberOfSamples.toNat :=
    Nat.pos_of_ne_zero fun h0 => hsamples (Or.inl (UInt32.toNat_inj.mp h0))
  have hle : req.numberOfSamples.toNat ≤ 2048 := by
    have : ¬2048 < req.numberOfSamples := fun h0 => hsamples (Or.inr h0)
    rw [UInt32.lt_iff_toNat_lt] at this
    simpa using this
  have hK : 0 < req.channelList.length := Nat.pos_of_ne_zero fun h0 => hchannels (by rw [h0]; rfl)
  have hwords := toNat_wordsPerWaveform req hle
  have htotal : (req.numberOfSamples.toUInt64 * UInt64.ofNat req.channelList.length * req.numberOfWaveforms.toUInt64).toNat =
      req.numberOfSamples.toNat * req.channelList.length * req.numberOfWaveforms.toNat := by
    rw [UInt64.toNat_mul, hwords, UInt32.toNat_toUInt64]
    refine Nat.mod_eq_of_lt ?_
    by_cases hW : req.numberOfWaveforms = 0
    · rw [hW]
      exact Nat.two_pow_pos 64
    · have hquot := Classical.not_not.mp fun hne => hoverflow ⟨hW, hne⟩
      rw [← UInt64.toNat_inj, UInt64.toNat_div, UInt64.toNat_mul, hwords, UInt32.toNat_toUInt64] at hquot
      exact mul_lt_of_mod_div (Nat.two_pow_pos 64) hquot
  exact ⟨⟨hpos, hle, hK, by rw [← htotal]; exact Nat.le_of_not_lt hmax⟩, htotal⟩

/-! ### The branches -/

theorem runAccess_congr {offset offset' : Nat → Nat → Nat} {samples : Nat} {as : List Access}
    (h : ∀ j i, Access.extract j i ∈ as → offset j i = offset' j i) : ∀ {st : Nat × List UInt32},
    as.foldlM (runAccess hw channels samples offset) st = as.foldlM (runAccess hw channels samples offset') st := by
  induction as with
  | nil => exact rfl
  | cons a as ih =>
    intro st
    have hstep : runAccess hw channels samples offset st a = runAccess hw channels samples offset' st a := by
      cases a with
      | trigger => rfl
      | extract j i => rw [runAccess, runAccess, h j i List.mem_cons_self]
    rw [List.foldlM_cons, List.foldlM_cons, hstep]
    exact congrArg _ (funext fun _ => ih fun j i hmem => h j i (List.mem_cons_of_mem _ hmem))

/-- The place of a waveform in the data of a chunk. -/
def packetOffset (samples channels j i : Nat) : Nat := (j * channels + i) * samples

theorem runAccess_packetOffset (samples : Nat) :
    runAccess hw channels samples (packetOffset samples channels.length) = Chunker.runAccess hw channels samples := rfl

theorem mem_multiAccesses {softwareTrigger : Bool} {K W j i : Nat} :
    Access.extract j i ∈ multiAccesses softwareTrigger K W ↔ j < W ∧ i < K := by
  cases softwareTrigger <;> simp [multiAccesses]

theorem singleAccesses_eq (softwareTrigger : Bool) (W : Nat) :
    singleAccesses softwareTrigger W = multiAccesses softwareTrigger 1 W := rfl

theorem multiAccesses_eq (softwareTrigger : Bool) (K W : Nat) :
    multiAccesses softwareTrigger K W = chunkAccesses softwareTrigger K W := rfl

theorem packetOffset_add_le (samples : Nat) {K W j i : Nat} (hj : j < W) (hi : i < K) :
    packetOffset samples K j i + samples ≤ samples * K * W := by
  have h : j * K + i + 1 ≤ W * K := by
    have := Nat.mul_le_mul_right K hj
    rw [Nat.succ_mul] at this
    omega
  calc packetOffset samples K j i + samples = (j * K + i + 1) * samples := (Nat.succ_mul _ _).symm
    _ ≤ W * K * samples := Nat.mul_le_mul_right _ h
    _ = samples * K * W := by ring

theorem singleOffset_eq {samples : UInt32} {W j i : Nat} (hwords : samples.toNat * 1 * W ≤ intMax) (hj : j < W) (hi : i < 1)
    (hsamples : 0 < samples.toNat) : singleOffset samples j i = packetOffset samples.toNat 1 j i := by
  have hle := packetOffset_add_le samples.toNat hj hi
  unfold intMax at hwords
  have hW : W ≤ samples.toNat * 1 * W := Nat.le_mul_of_pos_left _ (by omega)
  obtain rfl : i = 0 := by omega
  simp only [packetOffset, Nat.mul_one, Nat.add_zero] at *
  rw [singleOffset, UInt32.toNat_mul, UInt32.toNat_ofNat', Nat.mod_eq_of_lt (a := j) (by omega), Nat.mul_comm,
    Nat.mod_eq_of_lt (by omega)]

theorem multiOffset_eq {samples : UInt32} {K W j i : Nat} (hwords : samples.toNat * K * W ≤ intMax) (hj : j < W) (hi : i < K)
    (hsamples : 0 < samples.toNat) : multiOffset samples K j i = packetOffset samples.toNat K j i := by
  have hle := packetOffset_add_le samples.toNat hj hi
  unfold intMax at hwords
  have hprod : j * K + i < 2 ^ 32 := by
    have : j * K + i ≤ packetOffset samples.toNat K j i := Nat.le_mul_of_pos_right _ hsamples
    omega
  have hK : K ≤ samples.toNat * K * W :=
    calc K = 1 * K * 1 := by ring
      _ ≤ samples.toNat * K * W := Nat.mul_le_mul (Nat.mul_le_mul_right _ hsamples) (Nat.zero_lt_of_lt hj)
  have hW : W ≤ samples.toNat * K * W := Nat.le_mul_of_pos_left _ (Nat.mul_pos hsamples (Nat.zero_lt_of_lt hi))
  have hsum : (UInt64.ofNat j * UInt64.ofNat K + UInt64.ofNat i).toNat = j * K + i := by
    rw [← UInt64.ofNat_mul, ← UInt64.ofNat_add, UInt64.toNat_ofNat', Nat.mod_eq_of_lt (by omega)]
  rw [packetOffset] at *
  rw [multiOffset, UInt64.toNat_mul, hsum, UInt32.toNat_toUInt64, Nat.mul_comm, Nat.mod_eq_of_lt (by omega)]

/-- Both branches fill zeroed data as the packet of a chunk of all the waveforms is filled. -/
theorem fold_eq_fillPacket {softwareTrigger : Bool} {samples W words : Nat} {offset : Nat → Nat → Nat}
    (hwords : words = samples * channels.length * W)
    (h : ∀ j i, j < W → i < channels.length → offset j i = packetOffset samples channels.length j i) :
    (multiAccesses softwareTrigger channels.length W).foldlM (runAccess hw channels samples offset) (0, List.replicate words 0) =
      fillPacket hw softwareTrigger channels samples W 0 := by
  have hzero : words = W * samples * channels.length := by
    rw [hwords]
    ring
  rw [runAccess_congr fun j i hmem => h j i (mem_multiAccesses.mp hmem).1 (mem_multiAccesses.mp hmem).2,
    runAccess_packetOffset, multiAccesses_eq, hzero]
  rfl

section
variable (hreq : Accepted req)
include hreq

theorem multiOffset_accepted {j i : Nat} (hj : j < req.numberOfWaveforms.toNat) (hi : i < req.channelList.length) :
    multiOffset req.numberOfSamples req.channelList.length j i =
      packetOffset req.numberOfSamples.toNat req.channelList.length j i :=
  multiOffset_eq hreq.words_le hj hi hreq.samples_pos

theorem singleOffset_accepted (hone : req.channelList.length = 1) {j i : Nat} (hj : j < req.numberOfWaveforms.toNat)
    (hi : i < 1) : singleOffset req.numberOfSamples j i = packetOffset req.numberOfSamples.toNat 1 j i :=
  singleOffset_eq (hone ▸ hreq.words_le) hj hi hreq.samples_pos

/-- The branch for one channel does what the other one would. -/
theorem fillSingle_eq_fillMulti (hone : req.channelList.length = 1) (ch : Nat) (data : List UInt32) :
    fillSingle req hw ch data = fillMulti req hw [ch] data := by
  unfold fillSingle fillMulti
  rw [singleAccesses_eq]
  refine runAccess_congr fun j i hmem => ?_
  obtain ⟨hj, hi⟩ := mem_multiAccesses.mp hmem
  have hmulti := multiOffset_accepted hreq hj (hone ▸ hi)
  rw [hone] at hmulti
  rw [singleOffset_accepted hreq hone hj hi]
  exact hmulti.symm

theorem fillMulti_eq (hlen : channels.length = req.channelList.length) {words : Nat}
    (hwords : words = req.numberOfSamples.toNat * req.channelList.length * req.numberOfWaveforms.toNat) :
    fillMulti req hw channels (List.replicate words 0) =
      fillPacket hw req.softwareTrigger channels req.numberOfSamples.toNat req.numberOfWaveforms.toNat 0 := by
  refine fold_eq_fillPacket (by rw [hwords, hlen]) fun j i hj hi => ?_
  rw [hlen] at hi ⊢
  exact multiOffset_accepted hreq hj hi

theorem fillBranch_eq (hlen : channels.length = req.channelList.length) {words : Nat}
    (hwords : words = req.numberOfSamples.toNat * req.channelList.length * req.numberOfWaveforms.toNat) :
    fillBranch req hw channels (List.replicate words 0) =
      fillPacket hw req.softwareTrigger channels req.numberOfSamples.toNat req.numberOfWaveforms.toNat 0 := by
  rw [← fillMulti_eq hreq hlen hwords]
  unfold fillBranch
  split
  · exact fillSingle_eq_fillMulti hreq hlen.symm _ _
  · rfl

end

/-! ### The reply -/

/-- The reply to a request is the header and the waveforms one after the other. -/
structure Dumped (req : DumpSpyBuffersRequest) (hw : SpyHardware) (channels : List Nat) (resp : DumpSpyBuffersResponse) :
    Prop where
  accepted : Accepted req
  mapped : req.channelList.mapM mapChannel = some channels
  returns : ∀ k < req.numberOfWaveforms.toNat * perWaveform req.softwareTrigger channels.length, hw.throws k = false
  channelList : resp.channelList = req.channelList
  numberOfSamples : resp.numberOfSamples = req.numberOfSamples
  numberOfWaveforms : resp.numberOfWaveforms = req.numberOfWaveforms
  data : resp.data = (List.range req.numberOfWaveforms.toNat).flatMap
    (waveform hw req.softwareTrigger channels req.numberOfSamples.toNat)

theorem fill_ok {totalWords : UInt64} {data : List UInt32} (hreq : Accepted req)
    (hwords : totalWords.toNat = req.numberOfSamples.toNat * req.channelList.length * req.numberOfWaveforms.toNat)
    (h : fill what req hw totalWords = .ok data) : ∃ channels n, req.channelList.mapM mapChannel = some channels ∧
      fillPacket hw req.softwareTrigger channels req.numberOfSamples.toNat req.numberOfWaveforms.toNat 0 = some (n, data) := by
  unfold fill at h
  split at h
  · cases h
  rename_i channels hmapped
  have hlen : channels.length = req.channelList.length := mapM_length hmapped
  rw [fillBranch_eq hreq hlen hwords] at h
  split at h
  · cases h
  rename_i n filled hfilled
  cases h
  exact ⟨channels, n, hmapped, hfilled⟩

theorem dumpSpybuffer_ok (h : dumpSpybuffer what env req hw = .ok resp) :
    ∃ channels, Dumped req hw channels resp := by
  unfold dumpSpybuffer at h
  split at h
  · cases h
  rename_i data hdata
  cases h
  cases hvalidate : validate req env with
  | error e =>
    rw [hvalidate] at hdata
    cases hdata
  | ok totalWords =>
    rw [hvalidate] at hdata
    obtain ⟨hreq, hwords⟩ := validate_ok hvalidate
    obtain ⟨channels, n, hmapped, hfilled⟩ := fill_ok hreq hwords hdata
    have hreturns : ∀ k < req.numberOfWaveforms.toNat * perWaveform req.softwareTrigger channels.length,
        hw.throws (0 + k) = false := fun k hk => by
      by_contra hthrow
      have hnone := (fillPacket_eq_none req.numberOfSamples.toNat).mpr ⟨k, hk, Bool.of_not_eq_false hthrow⟩
      rw [hfilled] at hnone
      cases hnone
    rw [fillPacket_eq hreturns] at hfilled
    obtain ⟨-, rfl⟩ := Prod.mk.inj (Option.some.inj hfilled)
    exact ⟨channels, hreq, hmapped, fun k hk => by simpa using hreturns k hk, rfl, rfl, rfl, by simp only [Nat.zero_add]; rfl⟩

theorem Dumped.length (h : Dumped req hw channels resp) : channels.length = req.channelList.length := mapM_length h.mapped

/-! ### What the client makes of it -/

theorem getElem?_flatMap_range {α : Type} {f : Nat → List α} {m : Nat} (hlen : ∀ i, (f i).length = m) {i r : Nat}
    (hr : r < m) : ∀ {n : Nat}, i < n → ((List.range n).flatMap f)[i * m + r]? = (f i)[r]?
  | n + 1, hi => by
    have hfront : ((List.range n).flatMap f).length = n * m := by simp [hlen]
    rw [List.range_succ, List.flatMap_append, List.flatMap_singleton]
    by_cases h : i < n
    · have hle := Nat.mul_le_mul_right m (Nat.succ_le_of_lt h)
      rw [Nat.succ_mul] at hle
      rw [List.getElem?_append_left (by omega), getElem?_flatMap_range hlen hr h]
    · obtain rfl : i = n := by omega
      rw [List.getElem?_append_right (by omega), hfront, Nat.add_sub_cancel_left]

/-- Sample `s` of the `k`-th listed channel in the `w`-th waveform: the one that the extraction of that channel for that
    waveform finds. -/
def Captured (req : DumpSpyBuffersRequest) (hw : SpyHardware) (w k s : Nat) (v : UInt32) : Prop :=
  ∃ (n : Nat) (ch : UInt32) (pl : Nat), (accesses req)[n]? = some (.extract w k) ∧ req.channelList[k]? = some ch ∧
    mapChannel ch = some pl ∧ v = SpyBuffer.getMappedData (hw.words n pl) s

/-- The client has the captured samples in an array of the right shape. -/
def Parses (req : DumpSpyBuffersRequest) (hw : SpyHardware) (resp : DumpSpyBuffersResponse) : Prop :=
  ∃ y info, parseDumpResponse resp = .ok (y, info) ∧
    (y.W = req.numberOfWaveforms.toNat ∧ y.K = req.channelList.length ∧ y.N = req.numberOfSamples.toNat) ∧
    ∀ w k s, w < y.W → k < y.K → s < y.N →
      ∃ v x, Captured req hw w k s v ∧ y.get w k s = some x ∧ x.toInt = v.toNat

theorem accesses_eq (req : DumpSpyBuffersRequest) :
    accesses req = multiAccesses req.softwareTrigger req.channelList.length req.numberOfWaveforms.toNat := by
  unfold accesses
  split
  · rename_i hone
    rw [singleAccesses_eq, hone]
  · rfl

theorem accesses_getElem? {w k : Nat} (hw : w < req.numberOfWaveforms.toNat) (hk : k < req.channelList.length) :
    (accesses req)[w * perWaveform req.softwareTrigger req.channelList.length + (req.softwareTrigger.toNat + k)]? =
      some (.extract w k) := by
  have hlen (j : Nat) : ((if req.softwareTrigger then [Access.trigger] else []) ++
      (List.range req.channelList.length).map (Access.extract j)).length =
      perWaveform req.softwareTrigger req.channelList.length := by
    cases req.softwareTrigger <;> simp [perWaveform, Nat.add_comm]
  rw [accesses_eq, multiAccesses, getElem?_flatMap_range hlen (Nat.add_lt_add_left hk _) hw]
  cases req.softwareTrigger <;> simp [hk, Nat.add_comm 1]

theorem toInt_toInt32 {v : UInt32} (h : v.toNat < 2 ^ 31) : v.toInt32.toInt = v.toNat :=
  BitVec.toInt_eq_toNat_of_lt (x := v.toBitVec) (by rw [UInt32.toNat_toBitVec]; omega)

theorem getMappedData_lt (ptr : Nat → UInt32) (s : Nat) : (SpyBuffer.getMappedData ptr s).toNat < 2 ^ 31 := by
  have hle : (SpyBuffer.getMappedData ptr s).toNat ≤ 0x3FFF := by
    rw [SpyBuffer.getMappedData, UInt32.toNat_and]
    exact Nat.and_le_right
  omega

theorem mapM_getElem? {α β : Type} {f : α → Option β} {l : List α} {m : List β} (h : l.mapM f = some m) {k : Nat} {y : β}
    (hy : m[k]? = some y) : ∃ x, l[k]? = some x ∧ f x = some y := by
  induction l generalizing m k with
  | nil =>
    cases h
    cases hy
  | cons x l ih =>
    simp only [List.mapM_cons, Option.pure_def, Option.bind_eq_bind, Option.bind_eq_some_iff, Option.some.injEq] at h
    obtain ⟨z, hz, zs, hzs, rfl⟩ := h
    cases k with
    | zero => exact ⟨x, rfl, by rw [hz]; exact hy⟩
    | succ k => exact ih hzs hy

theorem waveform_length {softwareTrigger : Bool} {samples : Nat} (w : Nat) :
    (waveform hw softwareTrigger channels samples w).length = samples * channels.length := capture_length _

namespace Dumped
variable (h : Dumped req hw channels resp)
include h

theorem data_getElem? {w k s : Nat} (hw' : w < req.numberOfWaveforms.toNat) (hk : k < req.channelList.length)
    (hs : s < req.numberOfSamples.toNat) :
    ∃ v, Captured req hw w k s v ∧ v.toNat < 2 ^ 31 ∧
      resp.data[(w * req.channelList.length + k) * req.numberOfSamples.toNat + s]? = some v := by
  have hlen := h.length
  have hplace : k * req.numberOfSamples.toNat + s < req.numberOfSamples.toNat * channels.length := by
    have := Nat.mul_le_mul_right req.numberOfSamples.toNat (Nat.succ_le_of_lt (hlen ▸ hk))
    rw [Nat.succ_mul, Nat.mul_comm channels.length] at this
    omega
  have hindex : (w * req.channelList.length + k) * req.numberOfSamples.toNat + s =
      w * (req.numberOfSamples.toNat * channels.length) + (k * req.numberOfSamples.toNat + s) := by
    rw [hlen]
    ring
  obtain ⟨pl, hpl⟩ : ∃ pl, channels[k]? = some pl := ⟨_, List.getElem?_eq_getElem (hlen ▸ hk)⟩
  have hch : ∃ ch, req.channelList[k]? = some ch ∧ mapChannel ch = some pl := mapM_getElem? h.mapped hpl
  obtain ⟨ch, hch, hmap⟩ := hch
  refine ⟨_, ⟨_, ch, pl, accesses_getElem? hw' hk, hch, hmap, rfl⟩, getMappedData_lt _ _, ?_⟩
  rw [h.data, hindex, getElem?_flatMap_range waveform_length hplace hw', waveform, capture,
    getElem?_flatMap_range (fun i => SpyBuffer.samples_length _ _) hs (hlen ▸ hk)]
  simp [SpyBuffer.samples, hs, hpl, ← hlen, Nat.add_assoc]

theorem data_length : resp.data.length =
    req.numberOfWaveforms.toNat * req.channelList.length * req.numberOfSamples.toNat := by
  rw [h.data, ← h.length]
  simp only [List.length_flatMap, waveform_length, List.map_const', List.length_range, List.sum_replicate_nat]
  ring

/-- A dump of no waveforms is read as one of a single waveform. -/
theorem not_parses (hW : req.numberOfWaveforms = 0) : ¬Parses req hw resp := by
  rintro ⟨y, info, hparse, -⟩
  have hsize : resp.data.length < 1 * req.channelList.length * req.numberOfSamples.toNat := by
    rw [h.data_length, hW]
    simpa using Nat.mul_pos h.accepted.channels_pos h.accepted.samples_pos
  unfold parseDumpResponse at hparse
  simp only [h.channelList, h.numberOfSamples, h.numberOfWaveforms, hW, ne_eq, not_true_eq_false, ↓reduceIte] at hparse
  rw [dif_pos hsize] at hparse
  cases hparse

/-- The array has the words of the reply. -/
theorem parse_items (hW : req.numberOfWaveforms ≠ 0) : ∃ y info, parseDumpResponse resp = .ok (y, info) ∧
    (y.W = req.numberOfWaveforms.toNat ∧ y.K = req.channelList.length ∧ y.N = req.numberOfSamples.toNat) ∧
    y.items = resp.data.map UInt32.toInt32 := by
  have hshape : (if resp.numberOfWaveforms ≠ 0 then resp.numberOfWaveforms.toNat else 1) * resp.channelList.length *
      resp.numberOfSamples.toNat = resp.data.length := by
    rw [h.numberOfWaveforms, if_pos hW, h.channelList, h.numberOfSamples, h.data_length]
  unfold parseDumpResponse
  rw [dif_neg (by rw [hshape]; exact Nat.lt_irrefl _)]
  refine ⟨_, _, rfl, ?_, ?_⟩
  · simp [h.numberOfWaveforms, h.channelList, h.numberOfSamples, hW]
  · show (resp.data.take _).map UInt32.toInt32 = _
    rw [List.take_of_length_le (Nat.le_of_eq hshape.symm)]

theorem parses (hW : req.numberOfWaveforms ≠ 0) : Parses req hw resp := by
  obtain ⟨y, info, hparse, ⟨hyW, hyK, hyN⟩, hitems⟩ := h.parse_items hW
  refine ⟨y, info, hparse, ⟨hyW, hyK, hyN⟩, fun w k s hw' hk hs => ?_⟩
  obtain ⟨v, hcaptured, hlt, hv⟩ := h.data_getElem? (hyW ▸ hw') (hyK ▸ hk) (hyN ▸ hs)
  refine ⟨v, v.toInt32, hcaptured, ?_, toInt_toInt32 hlt⟩
  rw [NdArray.get, if_pos ⟨hw', hk, hs⟩, hitems, List.getElem?_map, hyK, hyN, hv]
  rfl

end Dumped

/-- The client gets the captured samples of a dump exactly if there is a waveform in it. -/
theorem dumpSpybuffer_parses (hdump : dumpSpybuffer what env req hw = .ok resp) :
    Parses req hw resp ↔ 1 ≤ req.numberOfWaveforms := by
  obtain ⟨channels, h⟩ := dumpSpybuffer_ok hdump
  have hpos : 1 ≤ req.numberOfWaveforms ↔ req.numberOfWaveforms ≠ 0 := by
    rw [UInt32.le_iff_toNat_le, ne_eq, ← UInt32.toNat_inj]
    exact Nat.one_le_iff_ne_zero
  rw [hpos]
  exact ⟨fun hparses hW => h.not_parses hW hparses, h.parses⟩

/-- Two waveforms of a channel that is listed twice. -/
def repeatedRequest : DumpSpyBuffersRequest := ⟨[9, 9], 2, 2, true, by decide⟩

theorem repeatedRequest_parses : ∃ resp, dumpSpybuffer "" none repeatedRequest quietHardware = .ok resp ∧
    (Parses repeatedRequest quietHardware resp ↔ 1 ≤ repeatedRequest.numberOfWaveforms) :=
  ⟨_, rfl, dumpSpybuffer_parses (show dumpSpybuffer "" none repeatedRequest quietHardware = .ok _ from rfl)⟩

/-- No waveforms of channel 0. -/
def emptyRequest : DumpSpyBuffersRequest := ⟨[0], 1, 0, false, by decide⟩

/-- The server answers with an empty dump and the client does not take it. -/
theorem emptyRequest_not_parses : ¬(∀ what env req hw resp, dumpSpybuffer what env req hw = .ok resp → Parses req hw resp) := by
  intro h
  obtain ⟨resp, hdump⟩ : ∃ resp, dumpSpybuffer "" none emptyRequest quietHardware = .ok resp := ⟨_, rfl⟩
  obtain ⟨channels, hdumped⟩ := dumpSpybuffer_ok hdump
  exact hdumped.not_parses rfl (h _ _ _ _ _ hdump)

/-! ### The same dump in chunks -/

/-- What an access asks of the hardware. -/
inductive Operation where
  | trigger
  | read (channel : Nat)
deriving DecidableEq

def operation (channels : List Nat) : Access → Operation
  | .trigger => .trigger
  | .extract _ j => .read (channels.getD j 0)

/-- The stores of the extractions among the accesses, at the places that `offset` says, are within a buffer of `length`
    words. -/
def StoresInside (length samples : Nat) (offset : Nat → Nat → Nat) (as : List Access) : Prop :=
  ∀ j i src, Access.extract j i ∈ as → ∀ w ∈ SpyBuffer.extractMappedDataBulkSIMD src samples, offset j i + w.1 < length

/-- The chunks hold the data of the reply, both come from the same operations in the same order, and no store is
    outside its buffer. -/
structure SameDump (req : DumpSpyBuffersRequest) (channels : List Nat) (resp : DumpSpyBuffersResponse)
    (rs : List DumpSpyBuffersChunkResponse) : Prop where
  data : rs.flatMap (·.data) = resp.data
  operations : rs.flatMap (fun r => (chunkAccesses req.softwareTrigger channels.length r.waveformCount.toNat).map
    (operation channels)) = (accesses req).map (operation channels)
  chunkInside : ∀ r ∈ rs, StoresInside r.data.length req.numberOfSamples.toNat
    (packetOffset req.numberOfSamples.toNat channels.length)
    (chunkAccesses req.softwareTrigger channels.length r.waveformCount.toNat)
  inside : StoresInside resp.data.length req.numberOfSamples.toNat (offset req) (accesses req)

theorem storesInside {samples K W length : Nat} {softwareTrigger : Bool} {offset : Nat → Nat → Nat}
    (hlength : length = samples * K * W) (h : ∀ j i, j < W → i < K → offset j i = packetOffset samples K j i) :
    StoresInside length samples offset (multiAccesses softwareTrigger K W) := by
  intro j i src hmem w hw
  obtain ⟨hj, hi⟩ := mem_multiAccesses.mp hmem
  have hle := packetOffset_add_le samples hj hi
  have hlt := (SpyBuffer.mem_extractMappedDataBulkSIMD.mp hw).1
  rw [h j i hj hi]
  omega

theorem operations_eq (softwareTrigger : Bool) (channels : List Nat) (W : Nat) :
    (multiAccesses softwareTrigger channels.length W).map (operation channels) = (List.replicate W
      ((if softwareTrigger then [.trigger] else []) ++ (List.range channels.length).map fun i =>
        .read (channels.getD i 0))).flatten := by
  have hwaveform (j : Nat) : ((if softwareTrigger then [Access.trigger] else []) ++
      (List.range channels.length).map (Access.extract j)).map (operation channels) =
      (if softwareTrigger then [.trigger] else []) ++ (List.range channels.length).map fun i =>
        .read (channels.getD i 0) := by
    rw [List.map_append, List.map_map]
    cases softwareTrigger <;> rfl
  rw [multiAccesses, List.map_flatMap, List.flatMap_def, List.map_congr_left fun j _ => hwaveform j, List.map_const',
    List.length_range]

theorem flatten_replicate_sum {α β : Type} (count : α → Nat) (block : List β) : ∀ rs : List α,
    rs.flatMap (fun r => (List.replicate (count r) block).flatten) = (List.replicate (rs.map count).sum block).flatten
  | [] => rfl
  | r :: rs => by
    rw [List.flatMap_cons, flatten_replicate_sum count block rs, List.map_cons, List.sum_cons, List.replicate_add,
      List.flatten_append]

theorem offset_eq (hreq : Accepted req) {j i : Nat} (hj : j < req.numberOfWaveforms.toNat) (hi : i < req.channelList.length) :
    offset req j i = packetOffset req.numberOfSamples.toNat req.channelList.length j i := by
  unfold offset
  split
  · rename_i hone
    rw [singleOffset_accepted hreq hone hj (hone ▸ hi), hone]
  · exact multiOffset_accepted hreq hj hi

section Chunks
variable {chunkReq : DumpSpyBuffersChunkRequest} {requestID : String} {chunkSize : UInt32} {chunkEnv : Option Nat}
variable (hdump : Dumped req hw channels resp)
include hdump

theorem not_faults : ¬Faults (chunkRequest req requestID chunkSize) hw channels 0 req.numberOfWaveforms.toNat := by
  rintro ⟨n, -, hn, hthrow⟩
  rw [hdump.returns n hn] at hthrow
  cases hthrow

theorem chunks_fit (hv : Valid (chunkRequest req requestID chunkSize) channels) :
    chunkCount (chunkRequest req requestID chunkSize) * chunkSize.toNat < 2 ^ 32 := by
  have hlt : chunkCount (chunkRequest req requestID chunkSize) * chunkSize.toNat <
    req.numberOfWaveforms.toNat + chunkSize.toNat := chunkCount_mul_lt hv
  have hsize : chunkSize.toNat ≤ 1024 := hv.chunkSize_le
  have hwords := hdump.accepted.words_le
  have hW : req.numberOfWaveforms.toNat ≤ req.numberOfSamples.toNat * req.channelList.length * req.numberOfWaveforms.toNat :=
    Nat.le_mul_of_pos_left _ (Nat.mul_pos hdump.accepted.samples_pos hdump.accepted.channels_pos)
  unfold intMax at hwords
  omega

theorem sameDump {rs : List DumpSpyBuffersChunkResponse}
    (h : ChunkedDump (chunkRequest req requestID chunkSize) hw channels rs) : SameDump req channels resp rs where
  data := by rw [h.data, hdump.data]; rfl
  operations := by
    have hsum := flatten_replicate_sum (fun r : DumpSpyBuffersChunkResponse => r.waveformCount.toNat)
      ((if req.softwareTrigger then [.trigger] else []) ++ (List.range channels.length).map fun i =>
        Operation.read (channels.getD i 0)) rs
    rw [h.total] at hsum
    rw [accesses_eq, ← hdump.length, operations_eq]
    simp only [← multiAccesses_eq, operations_eq]
    exact hsum
  chunkInside r hr := by
    refine storesInside ?_ fun _ _ _ _ => rfl
    have hwords : r.data.length = r.waveformCount.toNat * req.numberOfSamples.toNat * req.channelList.length := h.words r hr
    rw [hwords, hdump.length]
    ring
  inside := by
    rw [accesses_eq]
    refine storesInside ?_ fun j i => offset_eq hdump.accepted
    rw [hdump.data_length]
    ring

end Chunks

/-- Every run of the chunked path ends with the dump of the reply, and the branch for one channel is the other branch
    for a list of that channel. -/
theorem chunks_sameDump {requestID : String} {chunkSize : UInt32} {chunkEnv : Option Nat}
    (hdump : dumpSpybuffer what env req hw = .ok resp)
    (hchunks : Chunker.validate (chunkRequest req requestID chunkSize) chunkEnv = .ok channels) :
    (Pipeline.Terminates (pipeline (chunkRequest req requestID chunkSize) hw channels fun _ => false) ∧
      ∀ ls (s : Pipeline.State (pipeline (chunkRequest req requestID chunkSize) hw channels fun _ => false)),
        Pipeline.Reaches _ ls s → s.Stuck →
        s.consumer = .returned ∧ SameDump req channels resp (responses (chunkRequest req requestID chunkSize) s)) ∧
      (req.channelList.length = 1 → ∀ ch data, fillSingle req hw ch data = fillMulti req hw [ch] data) := by
  obtain ⟨channels', h⟩ := dumpSpybuffer_ok hdump
  obtain ⟨-, -, -, -, hmapped⟩ := Chunker.validate_ok hchunks
  obtain rfl : channels' = channels := Option.some.inj (h.mapped.symm.trans hmapped)
  have hv := valid_of_validate hchunks
  obtain ⟨hterminates, hall⟩ := dumpsAll_of_fit hv (not_faults h) (chunks_fit h hv)
  refine ⟨⟨hterminates, fun ls s hrun hstuck => ?_⟩, fillSingle_eq_fillMulti h.accepted⟩
  obtain ⟨hreturned, hchunked⟩ := hall ls s hrun hstuck
  exact ⟨hreturned, sameDump h hchunked⟩

theorem repeatedRequest_sameDump : ∃ resp, dumpSpybuffer "" none repeatedRequest quietHardware = .ok resp ∧
    Pipeline.Terminates (pipeline (chunkRequest repeatedRequest "" 1) quietHardware [33, 33] fun _ => false) ∧
    ∀ ls (s : Pipeline.State (pipeline (chunkRequest repeatedRequest "" 1) quietHardware [33, 33] fun _ => false)),
      Pipeline.Reaches _ ls s → s.Stuck →
      s.consumer = .returned ∧ SameDump repeatedRequest [33, 33] resp (responses (chunkRequest repeatedRequest "" 1) s) :=
  ⟨_, rfl, (chunks_sameDump (show dumpSpybuffer "" none repeatedRequest quietHardware = .ok _ from rfl)
    (show Chunker.validate (chunkRequest repeatedRequest "" 1) none = .ok [33, 33] from rfl)).1⟩

end DaphneZmq.SpyDump
