import DaphneZmq.Theorems.Chunker

/-! # Every interleaving of a chunked dump

The producer makes the packets of `packet` in order (`emits_packets`) and comes to an end in one of four ways
(`producer_cases`). With what a `Pipeline` delivers, that gives the calls of `on_chunk` of every run that has
returned. The counter of the loop is good for a whole last chunk only up to `2 ^ 32`: past it the dump starts
again from a waveform near zero. -/

namespace DaphneZmq.Chunker
open Pipeline

variable {req : DumpSpyBuffersChunkRequest} {hw : SpyHardware} {env : Option Nat} {channels : List Nat} {throws : Nat → Bool}

/-! ### The end of the producer's loop -/

theorem accesses_mono {a b : Nat} (h : a ≤ b) : accesses req channels a ≤ accesses req channels b :=
  Nat.mul_le_mul_right _ h

theorem Faults.mono {a a' b b' : Nat} (h : Faults req hw channels a b) (ha : a' ≤ a) (hb : b ≤ b') :
    Faults req hw channels a' b' := by
  obtain ⟨n, hle, hlt, hthrow⟩ := h
  exact ⟨n, (accesses_mono ha).trans hle, hlt.trans_le (accesses_mono hb), hthrow⟩

theorem Faults.split {a b c : Nat} (h : Faults req hw channels a c) :
    Faults req hw channels a b ∨ Faults req hw channels b c := by
  obtain ⟨n, hle, hlt, hthrow⟩ := h
  by_cases hb : n < accesses req channels b
  · exact Or.inl ⟨n, hle, hb, hthrow⟩
  · exact Or.inr ⟨n, Nat.le_of_not_lt hb, hlt, hthrow⟩

theorem not_faults_of_returns (h : ∀ n, hw.throws n = false) {a b : Nat} : ¬Faults req hw channels a b := by
  rintro ⟨n, -, -, hthrow⟩
  rw [h] at hthrow
  cases hthrow

theorem chunkStart_mono {i j : Nat} (h : i ≤ j) : chunkStart req i ≤ chunkStart req j := by
  have := Nat.mul_le_mul_right req.chunkSize.toNat h
  unfold chunkStart
  omega

theorem emits_packets (hv : Valid req channels) {n : Nat} (hn : n ≤ chunkCount req)
    (h : ¬Faults req hw channels 0 (chunkStart req n)) :
    Emits (pipeline req hw channels throws) ((List.range n).map (packet req hw channels)) (before req channels n) := by
  induction n with
  | zero =>
    have hstart : before req channels 0 = (pipeline req hw channels throws).start := by
      simp [before, pipeline, accesses]
    rw [hstart]
    exact .nil
  | succ n ih =>
    have hle : chunkStart req n ≤ chunkStart req (n + 1) := chunkStart_mono (Nat.le_succ n)
    have hx := (ih (Nat.le_of_succ_le hn) fun hf => h (hf.mono le_rfl hle)).snoc
      (nextPacket_before hv hn fun hf => h (hf.mono (Nat.zero_le _) le_rfl))
    rwa [List.range_succ, List.map_append]

theorem exists_faulting_chunk {n : Nat} (h : Faults req hw channels 0 (chunkStart req n)) :
    ∃ i < n, ¬Faults req hw channels 0 (chunkStart req i) ∧
      Faults req hw channels (chunkStart req i) (chunkStart req (i + 1)) := by
  induction n with
  | zero =>
    obtain ⟨m, -, hlt, -⟩ := h
    simp [accesses] at hlt
  | succ n ih =>
    by_cases hf : Faults req hw channels 0 (chunkStart req n)
    · obtain ⟨i, hi, h1, h2⟩ := ih hf
      exact ⟨i, Nat.lt_succ_of_lt hi, h1, h2⟩
    · rcases h.split (b := chunkStart req n) with h | h
      · exact absurd h hf
      · exact ⟨n, Nat.lt_succ_self n, hf, h⟩

theorem makes_of_faults (hv : Valid req channels) (h : Faults req hw channels 0 req.numberOfWaveforms.toNat) :
    ∃ i < chunkCount req,
      Makes (pipeline req hw channels throws) ((List.range i).map (packet req hw channels)) true := by
  rw [← chunkStart_chunkCount hv] at h
  obtain ⟨i, hi, hno, hf⟩ := exists_faulting_chunk h
  exact ⟨i, hi, _, emits_packets hv hi.le hno, Or.inr ⟨nextPacket_before_throw hv hi hf, rfl⟩⟩

section NoFault
variable (hv : Valid req channels) (h : ¬Faults req hw channels 0 req.numberOfWaveforms.toNat)
include hv h

theorem emits_all : Emits (pipeline req hw channels throws)
    ((List.range (chunkCount req)).map (packet req hw channels)) (before req channels (chunkCount req)) :=
  emits_packets hv le_rfl (by rwa [chunkStart_chunkCount hv])

theorem makes_all (hfit : chunkCount req * req.chunkSize.toNat < 2 ^ 32) :
    Makes (pipeline req hw channels throws) ((List.range (chunkCount req)).map (packet req hw channels)) false :=
  ⟨_, emits_all hv h, Or.inl ⟨nextPacket_end hv hfit, rfl⟩⟩

/-- After a wrap, an access that throws ends the loop where it should have ended. -/
theorem makes_wrap (hwrap : 2 ^ 32 ≤ chunkCount req * req.chunkSize.toNat)
    (hf : Faults req hw channels req.numberOfWaveforms.toNat (req.numberOfWaveforms.toNat + req.chunkSize.toNat)) :
    Makes (pipeline req hw channels throws) ((List.range (chunkCount req)).map (packet req hw channels)) true := by
  rcases nextPacket_wrap hv hwrap with ⟨-, hn⟩ | ⟨hnf, -⟩
  · exact ⟨_, emits_all hv h, Or.inr ⟨hn, rfl⟩⟩
  · exact absurd hf hnf

theorem emits_wrap (hwrap : 2 ^ 32 ≤ chunkCount req * req.chunkSize.toNat)
    (hf : ¬Faults req hw channels req.numberOfWaveforms.toNat (req.numberOfWaveforms.toNat + req.chunkSize.toNat)) :
    ∃ x st, Emits (pipeline req hw channels throws)
      ((List.range (chunkCount req)).map (packet req hw channels) ++ [x]) st := by
  rcases nextPacket_wrap hv hwrap with ⟨hf', -⟩ | ⟨-, x, st, hn⟩
  · exact absurd hf' hf
  · exact ⟨x, st, (emits_all hv h).snoc hn⟩

end NoFault

/-! ### The responses that make up a dump -/

/-- The responses of a whole dump: `chunkCount` of them, numbered, that tile the waveforms and carry their
    samples in trigger order, the last one marked as final. -/
structure ChunkedDump (req : DumpSpyBuffersChunkRequest) (hw : SpyHardware) (channels : List Nat)
    (rs : List DumpSpyBuffersChunkResponse) : Prop where
  length : rs.length = chunkCount req
  chunkseq : ∀ i (r : DumpSpyBuffersChunkResponse), rs[i]? = some r → r.chunkseq.toNat = i
  start : ∀ i (r : DumpSpyBuffersChunkResponse), rs[i]? = some r → r.waveformStart.toNat = ((rs.take i).map (·.waveformCount.toNat)).sum
  count_pos : ∀ r ∈ rs, 0 < r.waveformCount.toNat
  total : (rs.map (·.waveformCount.toNat)).sum = req.numberOfWaveforms.toNat
  words : ∀ r ∈ rs, r.data.length = r.waveformCount.toNat * req.numberOfSamples.toNat * req.channelList.length
  isFinal : ∀ i (r : DumpSpyBuffersChunkResponse), rs[i]? = some r → (r.isFinal = true ↔ i + 1 = rs.length)
  data : rs.flatMap (·.data) = (List.range req.numberOfWaveforms.toNat).flatMap
    (waveform hw req.softwareTrigger channels req.numberOfSamples.toNat)

/-- The responses that the consumer loop builds from the first `n` packets, when the flag stays clear. -/
def chunkResponses (req : DumpSpyBuffersChunkRequest) (hw : SpyHardware) (channels : List Nat) (n : Nat) :
    List DumpSpyBuffersChunkResponse :=
  (List.range n).map fun i => response req (true, packet req hw channels i)

theorem toNat_wfCount {i : Nat} : (packet req hw channels i).wfCount.toNat = chunkWaveforms req i := by
  have hW := UInt32.toNat_lt req.numberOfWaveforms
  rw [packet, UInt32.toNat_ofNat', Nat.mod_eq_of_lt]
  rw [chunkWaveforms]
  omega

theorem chunkResponses_get {n i : Nat} {r : DumpSpyBuffersChunkResponse}
    (h : (chunkResponses req hw channels n)[i]? = some r) :
    i < n ∧ r = response req (true, packet req hw channels i) := by
  obtain ⟨hi, hr⟩ := List.getElem?_eq_some_iff.mp h
  rw [chunkResponses, List.length_map, List.length_range] at hi
  refine ⟨hi, ?_⟩
  rw [← hr]
  simp [chunkResponses]

theorem chunkResponses_take {n i : Nat} (hi : i ≤ n) :
    (chunkResponses req hw channels n).take i = chunkResponses req hw channels i := by
  rw [chunkResponses, ← List.map_take, List.take_range, Nat.min_eq_left hi]
  rfl

section Responses
variable (hv : Valid req channels)
include hv

theorem toNat_wfStart {i : Nat} (hi : i < chunkCount req) :
    (packet req hw channels i).wfStart.toNat = chunkStart req i := by
  rw [chunkStart_of_lt hv hi]
  exact before_wfStart hv hi

theorem response_isFinal {i : Nat} (hi : i < chunkCount req) {ok : Bool} :
    (response req (ok, packet req hw channels i)).isFinal = true ↔ i + 1 = chunkCount req := by
  have hW := UInt32.toNat_lt req.numberOfWaveforms
  have hend : ((packet req hw channels i).wfStart + (packet req hw channels i).wfCount).toNat = chunkStart req (i + 1) := by
    have hle : chunkStart req (i + 1) ≤ req.numberOfWaveforms.toNat := Nat.min_le_right _ _
    rw [chunkStart_succ hv hi, ← chunkStart_of_lt hv hi] at hle ⊢
    rw [UInt32.toNat_add, toNat_wfStart hv hi, toNat_wfCount, Nat.mod_eq_of_lt (by omega)]
  simp only [response, ge_iff_le, decide_eq_true_eq]
  rw [UInt32.le_iff_toNat_le, hend]
  constructor
  · intro hle
    by_contra hne
    have := mul_lt_of_lt_chunkCount hv (show i + 1 < chunkCount req by omega)
    rw [chunkStart] at hle
    omega
  · intro heq
    rw [heq, chunkStart_chunkCount hv]

theorem sum_waveformCount {n : Nat} (hn : n ≤ chunkCount req) :
    ((chunkResponses req hw channels n).map (·.waveformCount.toNat)).sum = chunkStart req n := by
  induction n with
  | zero => simp [chunkResponses]
  | succ n ih =>
    have ih := ih (Nat.le_of_succ_le hn)
    rw [chunkStart_succ hv hn, ← chunkStart_of_lt hv hn, ← ih]
    simp [chunkResponses, List.range_succ, response, toNat_wfCount]

theorem flatMap_data {n : Nat} (hn : n ≤ chunkCount req) :
    (chunkResponses req hw channels n).flatMap (·.data) = (List.range (chunkStart req n)).flatMap
      (waveform hw req.softwareTrigger channels req.numberOfSamples.toNat) := by
  induction n with
  | zero => simp [chunkResponses]
  | succ n ih =>
    have ih := ih (Nat.le_of_succ_le hn)
    rw [chunkStart_succ hv hn, List.range_add, List.flatMap_append, ← chunkStart_of_lt hv hn, ← ih]
    simp only [chunkResponses, List.range_succ, List.map_append, List.flatMap_append, List.map_cons, List.map_nil,
      List.flatMap_cons, List.flatMap_nil, List.append_nil, List.flatMap_map, response, packet]
    rw [chunkStart_of_lt hv hn]

theorem packet_data_length (i : Nat) : (packet req hw channels i).data.length =
    (packet req hw channels i).wfCount.toNat * req.numberOfSamples.toNat * req.channelList.length := by
  rw [toNat_wfCount, ← hv.channels_eq]
  simp [packet, waveform, capture_length, Nat.mul_assoc]

/-- The packets of the producer, all of them, are a whole dump. -/
theorem chunkedDump : ChunkedDump req hw channels (chunkResponses req hw channels (chunkCount req)) where
  length := by simp [chunkResponses]
  chunkseq i r hr := by
    obtain ⟨hi, rfl⟩ := chunkResponses_get hr
    have := (before_wfStart hv hi).le
    have hlt := (mul_lt_of_lt_chunkCount hv hi).trans (UInt32.toNat_lt _)
    have := Nat.le_mul_of_pos_right i hv.chunkSize_pos
    simp only [response, packet]
    rw [UInt32.toNat_ofNat', Nat.mod_eq_of_lt (by omega)]
  start i r hr := by
    obtain ⟨hi, rfl⟩ := chunkResponses_get hr
    have hstart : (packet req hw channels i).wfStart.toNat = chunkStart req i := toNat_wfStart hv hi
    rwa [chunkResponses_take hi.le, sum_waveformCount hv hi.le]
  count_pos r hr := by
    obtain ⟨i, hr⟩ := List.mem_iff_getElem?.mp hr
    obtain ⟨hi, rfl⟩ := chunkResponses_get hr
    have hcount : (packet req hw channels i).wfCount.toNat = chunkWaveforms req i := toNat_wfCount
    exact hcount ▸ chunkWaveforms_pos hv hi
  total := by rw [sum_waveformCount hv le_rfl, chunkStart_chunkCount hv]
  words r hr := by
    obtain ⟨i, hr⟩ := List.mem_iff_getElem?.mp hr
    obtain ⟨-, rfl⟩ := chunkResponses_get hr
    exact packet_data_length hv i
  isFinal i r hr := by
    obtain ⟨hi, rfl⟩ := chunkResponses_get hr
    rw [response_isFinal hv hi]
    simp [chunkResponses]
  data := by rw [flatMap_data hv le_rfl, chunkStart_chunkCount hv]

end Responses

/-! ### Runs in which nothing throws -/

theorem pipeline_capacity_pos : 0 < (pipeline req hw channels throws).capacity := Nat.zero_lt_two

theorem pipeline_callbackReturns : CallbackReturns (pipeline req hw channels fun _ => false) := fun _ => rfl

/-- What has been handed to `on_chunk`, when the loop makes all its packets and no access throws. -/
theorem responses_of_returned
    (hm : Makes (pipeline req hw channels throws) ((List.range (chunkCount req)).map (packet req hw channels)) false)
    {ls : List Label} {s : State (pipeline req hw channels throws)} (h : Reaches _ ls s) (hr : s.consumer = .returned) :
    responses req s = chunkResponses req hw channels (chunkCount req) := by
  obtain ⟨hxs, herr⟩ := hm.delivered h hr
  rw [responses, delivered_of_flags h.inv herr hxs, List.map_map, List.map_map]
  rfl

/-- Every interleaving comes to an end, and has then called `on_chunk` with the whole dump. -/
def DumpsAll (req : DumpSpyBuffersChunkRequest) (hw : SpyHardware) (channels : List Nat) : Prop :=
  Terminates (pipeline req hw channels fun _ => false) ∧
    ∀ ls (s : State (pipeline req hw channels fun _ => false)), Reaches _ ls s → s.Stuck →
      s.consumer = .returned ∧ ChunkedDump req hw channels (responses req s)

theorem dumpsAll_of_fit (hv : Valid req channels) (h : ¬Faults req hw channels 0 req.numberOfWaveforms.toNat)
    (hfit : chunkCount req * req.chunkSize.toNat < 2 ^ 32) : DumpsAll req hw channels := by
  have hm : Makes (pipeline req hw channels fun _ => false) _ false := makes_all hv h hfit
  refine ⟨(terminates_iff pipeline_capacity_pos pipeline_callbackReturns).mpr ⟨_, _, hm⟩, fun ls s hrun hstuck => ?_⟩
  have hr := hrun.returned_of_stuck pipeline_capacity_pos pipeline_callbackReturns hstuck
  exact ⟨hr, by rw [responses_of_returned hm hrun hr]; exact chunkedDump hv⟩

/-- A run that returns after the counter has wrapped has made a call too many. -/
theorem lt_length_of_wrap (hv : Valid req channels) (h : ¬Faults req hw channels 0 req.numberOfWaveforms.toNat)
    (hwrap : 2 ^ 32 ≤ chunkCount req * req.chunkSize.toNat)
    (hf : ¬Faults req hw channels req.numberOfWaveforms.toNat (req.numberOfWaveforms.toNat + req.chunkSize.toNat))
    {xs : List ChunkPacket} {failed : Bool} (hm : Makes (pipeline req hw channels throws) xs failed) :
    chunkCount req < xs.length := by
  obtain ⟨x, st, he⟩ : ∃ x st, Emits (pipeline req hw channels throws) (_ ++ [x]) st := emits_wrap hv h hwrap hf
  have hle := hm.length_le he
  rw [List.length_append, List.length_map, List.length_range, List.length_singleton] at hle
  exact hle

theorem not_dumpsAll_of_wrap (hv : Valid req channels) (hacc : ∀ n, hw.throws n = false)
    (hwrap : 2 ^ 32 ≤ chunkCount req * req.chunkSize.toNat) : ¬DumpsAll req hw channels := by
  rintro ⟨hterm, hdump⟩
  obtain ⟨xs, failed, hm⟩ := (terminates_iff pipeline_capacity_pos pipeline_callbackReturns).mp hterm
  obtain ⟨ls, s, hrun, hstuck, hr⟩ := hm.exists_returned pipeline_capacity_pos pipeline_callbackReturns
  have hlt := lt_length_of_wrap hv (not_faults_of_returns hacc) hwrap (not_faults_of_returns hacc) hm
  have hlen := (hdump ls s hrun hstuck).2.length
  rw [responses, List.length_map, ← (hm.delivered hrun hr).1, List.length_map] at *
  omega

/-- In runs in which nothing throws, the dump is right exactly when the end of a whole last chunk fits in the
    32-bit counter. -/
theorem dumpsAll_iff (h : validate req env = .ok channels) (hacc : ∀ n, hw.throws n = false) :
    DumpsAll req hw channels ↔ chunkCount req * req.chunkSize.toNat < 2 ^ 32 := by
  have hv := valid_of_validate h
  refine ⟨fun hd => ?_, dumpsAll_of_fit hv (not_faults_of_returns hacc)⟩
  by_contra hwrap
  exact not_dumpsAll_of_wrap hv hacc (Nat.le_of_not_lt hwrap) hd

/-- One channel, one sample, the largest number of waveforms, the largest chunks. -/
def largestRequest : DumpSpyBuffersChunkRequest := ⟨[0], 1, 0xFFFFFFFF, false, "", 1024⟩

/-- Hardware that never throws, and whose spy buffers hold zeros. -/
def quietHardware : SpyHardware := ⟨fun _ => false, fun _ _ _ => 0⟩

/-- The dump of `2 ^ 32 - 1` waveforms in chunks of 1024 has `2 ^ 22` chunks. The counter is zero after the last
    one, and the producer starts again. -/
theorem largestRequest_not_dumpsAll :
    ¬(∀ req hw env channels, validate req env = .ok channels → (∀ n, hw.throws n = false) → DumpsAll req hw channels) := by
  intro h
  have hok : validate largestRequest none = .ok [0] := by rfl
  exact not_dumpsAll_of_wrap (valid_of_validate hok) (fun _ => rfl) (by decide) (h largestRequest quietHardware none [0] hok fun _ => rfl)

/-- Three waveforms of two channels in chunks of two. -/
def smallRequest : DumpSpyBuffersChunkRequest := ⟨[0, 17], 4, 3, true, "", 2⟩

theorem smallRequest_dumpsAll :
    DumpsAll smallRequest quietHardware [0, 25] ↔ chunkCount smallRequest * smallRequest.chunkSize.toNat < 2 ^ 32 :=
  dumpsAll_iff (show validate smallRequest none = .ok [0, 25] by rfl) fun _ => rfl

end DaphneZmq.Chunker
