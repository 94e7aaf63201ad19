import DaphneZmq.Chunker
import DaphneZmq.Theorems.Pipeline
import Mathlib.Tactic.Ring

/-! # The packets of a chunked dump

`fillPacket` fails exactly when one of the chunk's accesses throws, and otherwise holds the waveforms of the
chunk one after the other (`fillPacket_eq`). So the producer's loop makes the packets of `packets` while its
32-bit waveform counter has not wrapped, and nothing else. -/

namespace DaphneZmq.Chunker

/-! ### Filling one packet -/

section Fill
variable (hw : SpyHardware) (softwareTrigger : Bool) (channels : List Nat) (samples : Nat)

/-- The hardware accesses for one waveform. -/
def perWaveform (softwareTrigger : Bool) (channels : Nat) : Nat := softwareTrigger.toNat + channels

/-- The samples of one waveform, when its first access has the number `n`: channel after channel. -/
def capture (n : Nat) : List UInt32 :=
  (List.range channels.length).flatMap fun j =>
    SpyBuffer.samples (hw.words (n + softwareTrigger.toNat + j) (channels.getD j 0)) samples

/-- The `w`-th waveform that the request triggers. -/
def waveform (w : Nat) : List UInt32 :=
  capture hw softwareTrigger channels samples (w * perWaveform softwareTrigger channels.length)

variable {hw softwareTrigger channels samples}

theorem capture_length (n : Nat) : (capture hw softwareTrigger channels samples n).length = samples * channels.length := by
  simp [capture, Nat.mul_comm]

theorem chunkAccesses_length (wfCount : Nat) :
    (chunkAccesses softwareTrigger channels.length wfCount).length =
      wfCount * perWaveform softwareTrigger channels.length := by
  cases softwareTrigger <;> simp [chunkAccesses, perWaveform, Nat.add_comm]

theorem runAccess_isNone {st : Nat × List UInt32} {a : Access} :
    runAccess hw channels samples st a = none ↔ hw.throws st.1 = true := by
  unfold runAccess
  cases hw.throws st.1 <;> cases a <;> simp

theorem runAccess_counter {st st' : Nat × List UInt32} {a : Access}
    (h : runAccess hw channels samples st a = some st') : st'.1 = st.1 + 1 := by
  unfold runAccess at h
  cases hthrow : hw.throws st.1
  · cases a <;> simp only [hthrow, Bool.false_eq_true, ↓reduceIte, Option.some.injEq] at h <;> rw [← h]
  · simp [hthrow] at h

/-- A list of accesses fails exactly when one of them throws. -/
theorem foldlM_runAccess_eq_none {as : List Access} {st : Nat × List UInt32} :
    as.foldlM (runAccess hw channels samples) st = none ↔ ∃ k < as.length, hw.throws (st.1 + k) = true := by
  induction as generalizing st with
  | nil => simp
  | cons a as ih =>
    rw [List.foldlM_cons, Option.bind_eq_bind, Option.bind_eq_none_iff]
    constructor
    · intro h
      cases hrun : runAccess hw channels samples st a with
      | none => exact ⟨0, by simp, runAccess_isNone.mp hrun⟩
      | some st' =>
        obtain ⟨k, hk, hthrow⟩ := ih.mp (h st' hrun)
        rw [runAccess_counter hrun] at hthrow
        exact ⟨k + 1, by simpa using hk, by rw [show st.1 + (k + 1) = st.1 + 1 + k by omega]; exact hthrow⟩
    · rintro ⟨k, hk, hthrow⟩ st' hrun
      refine ih.mpr ?_
      rw [runAccess_counter hrun]
      cases k with
      | zero => rw [runAccess_isNone.mpr hthrow] at hrun; cases hrun
      | succ k => exact ⟨k, by simpa using hk, by rw [show st.1 + 1 + k = st.1 + (k + 1) by omega]; exact hthrow⟩

theorem runAccess_trigger {n : Nat} {data : List UInt32} (h : hw.throws n = false) :
    runAccess hw channels samples (n, data) .trigger = some (n + 1, data) := by
  simp [runAccess, h]

/-- An extraction fills the next `samples` words of the packet. -/
theorem runAccess_extract {n i j : Nat} {front rest : List UInt32} (h : hw.throws n = false)
    (hfront : front.length = (i * channels.length + j) * samples) (hrest : samples ≤ rest.length) :
    runAccess hw channels samples (n, front ++ rest) (.extract i j) =
      some (n + 1, front ++ SpyBuffer.samples (hw.words n (channels.getD j 0)) samples ++ rest.drop samples) := by
  simp only [runAccess, h, Bool.false_eq_true, ↓reduceIte]
  rw [← hfront, SpyBuffer.store_extract _ _ hrest]

theorem foldlM_extract {m : Nat} {n i j : Nat} {front rest : List UInt32}
    (h : ∀ k < m, hw.throws (n + k) = false) (hfront : front.length = (i * channels.length + j) * samples)
    (hrest : m * samples ≤ rest.length) :
    ((List.range' j m).map (Access.extract i)).foldlM (runAccess hw channels samples) (n, front ++ rest) =
      some (n + m, front ++ (List.range m).flatMap (fun k =>
        SpyBuffer.samples (hw.words (n + k) (channels.getD (j + k) 0)) samples) ++ rest.drop (m * samples)) := by
  induction m generalizing n j front rest with
  | zero => simp
  | succ m ih =>
    rw [Nat.succ_mul] at hrest
    have h0 : hw.throws n = false := h 0 (by omega)
    have hthrow : ∀ k < m, hw.throws (n + 1 + k) = false := fun k hk => by
      rw [Nat.add_assoc, Nat.add_comm 1]
      exact h (k + 1) (by omega)
    have hlen : (front ++ SpyBuffer.samples (hw.words n (channels.getD j 0)) samples).length =
        (i * channels.length + (j + 1)) * samples := by
      rw [List.length_append, hfront, SpyBuffer.samples_length]
      ring
    rw [List.range'_succ, List.map_cons, List.foldlM_cons, runAccess_extract h0 hfront (by omega),
      Option.bind_eq_bind, Option.bind_some, ih hthrow hlen (by rw [List.length_drop]; omega), List.range_succ_eq_map]
    simp only [List.flatMap_cons, List.flatMap_map, Nat.add_zero, List.append_assoc, List.drop_drop, Nat.succ_mul]
    congr 2
    · omega
    · simp [Nat.add_assoc, Nat.add_comm 1, Nat.add_comm samples]

theorem foldlM_waveform {n i : Nat} {front rest : List UInt32}
    (h : ∀ k < perWaveform softwareTrigger channels.length, hw.throws (n + k) = false)
    (hfront : front.length = i * (samples * channels.length)) (hrest : samples * channels.length ≤ rest.length) :
    ((if softwareTrigger then [Access.trigger] else []) ++ (List.range channels.length).map (Access.extract i)).foldlM
        (runAccess hw channels samples) (n, front ++ rest) =
      some (n + perWaveform softwareTrigger channels.length,
        front ++ capture hw softwareTrigger channels samples n ++ rest.drop (samples * channels.length)) := by
  have hlen : front.length = (i * channels.length + 0) * samples := by rw [hfront]; ring
  have hrest' : channels.length * samples ≤ rest.length := by rwa [Nat.mul_comm]
  rw [List.foldlM_append, List.range_eq_range']
  cases softwareTrigger
  · simp only [Bool.false_eq_true, ↓reduceIte, List.foldlM_nil]
    rw [Option.pure_def, Option.bind_eq_bind, Option.bind_some,
      foldlM_extract (fun k hk => h k (by simpa [perWaveform] using hk)) hlen hrest']
    simp [capture, perWaveform, Nat.mul_comm]
  · simp only [↓reduceIte, List.foldlM_cons, List.foldlM_nil]
    have h0 : hw.throws n = false := h 0 (by simp [perWaveform])
    rw [runAccess_trigger h0]
    simp only [Option.pure_def, Option.bind_eq_bind, Option.bind_some]
    have hthrow : ∀ k < channels.length, hw.throws (n + 1 + k) = false := fun k hk => by
      rw [Nat.add_assoc]
      exact h (1 + k) (by simp [perWaveform]; omega)
    rw [foldlM_extract hthrow hlen hrest']
    simp [capture, perWaveform, Nat.mul_comm, Nat.add_assoc]

theorem foldlM_chunk {m : Nat} {n i : Nat} {front rest : List UInt32}
    (h : ∀ k < m * perWaveform softwareTrigger channels.length, hw.throws (n + k) = false)
    (hfront : front.length = i * (samples * channels.length)) (hrest : rest.length = m * (samples * channels.length)) :
    ((List.range' i m).flatMap fun i =>
        (if softwareTrigger then [Access.trigger] else []) ++ (List.range channels.length).map (Access.extract i)).foldlM
        (runAccess hw channels samples) (n, front ++ rest) =
      some (n + m * perWaveform softwareTrigger channels.length, front ++ (List.range m).flatMap fun k =>
        capture hw softwareTrigger channels samples (n + k * perWaveform softwareTrigger channels.length)) := by
  induction m generalizing n i front rest with
  | zero =>
    have : rest = [] := by simpa using hrest
    simp [this]
  | succ m ih =>
    rw [Nat.succ_mul] at h hrest
    have hthrow : ∀ k < m * perWaveform softwareTrigger channels.length,
        hw.throws (n + perWaveform softwareTrigger channels.length + k) = false := fun k hk => by
      rw [Nat.add_assoc]
      exact h _ (by omega)
    have hlen : (front ++ capture hw softwareTrigger channels samples n).length = (i + 1) * (samples * channels.length) := by
      rw [List.length_append, hfront, capture_length, Nat.succ_mul]
    rw [List.range'_succ, List.flatMap_cons, List.foldlM_append,
      foldlM_waveform (fun k hk => h k (by omega)) hfront (by omega),
      Option.bind_eq_bind, Option.bind_some, ih hthrow hlen (by rw [List.length_drop]; omega), List.range_succ_eq_map]
    simp only [List.flatMap_cons, List.flatMap_map, Nat.zero_mul, Nat.add_zero, List.append_assoc, Nat.succ_mul]
    congr 2
    · omega
    · simp [Nat.add_assoc, Nat.add_comm (perWaveform _ _)]

/-- A chunk whose accesses do not throw holds its waveforms one after the other. -/
theorem fillPacket_eq {wfCount n : Nat}
    (h : ∀ k < wfCount * perWaveform softwareTrigger channels.length, hw.throws (n + k) = false) :
    fillPacket hw softwareTrigger channels samples wfCount n =
      some (n + wfCount * perWaveform softwareTrigger channels.length, (List.range wfCount).flatMap fun k =>
        capture hw softwareTrigger channels samples (n + k * perWaveform softwareTrigger channels.length)) := by
  have hrest : (List.replicate (wfCount * samples * channels.length) (0 : UInt32)).length =
      wfCount * (samples * channels.length) := by
    simp [Nat.mul_assoc]
  have hfront : ([] : List UInt32).length = 0 * (samples * channels.length) := by simp
  have := foldlM_chunk h hfront hrest
  rw [← List.range_eq_range'] at this
  simpa [fillPacket, chunkAccesses] using this

theorem fillPacket_eq_none (samples : Nat) {wfCount n : Nat} :
    fillPacket hw softwareTrigger channels samples wfCount n = none ↔
      ∃ k < wfCount * perWaveform softwareTrigger channels.length, hw.throws (n + k) = true := by
  rw [fillPacket, foldlM_runAccess_eq_none, chunkAccesses_length]

end Fill

/-! ### The packets of a request -/

/-- The number of chunks that a request asks for. -/
def chunkCount (req : DumpSpyBuffersChunkRequest) : Nat :=
  (req.numberOfWaveforms.toNat + req.chunkSize.toNat - 1) / req.chunkSize.toNat

/-- What a request that passes the checks satisfies. -/
structure Valid (req : DumpSpyBuffersChunkRequest) (channels : List Nat) : Prop where
  waveforms_pos : 0 < req.numberOfWaveforms.toNat
  chunkSize_pos : 0 < req.chunkSize.toNat
  chunkSize_le : req.chunkSize.toNat ≤ 1024
  samples_pos : 0 < req.numberOfSamples.toNat
  channels_pos : 0 < channels.length
  channels_eq : channels.length = req.channelList.length

theorem mapM_length {α β : Type} {f : α → Option β} {l : List α} {m : List β} (h : l.mapM f = some m) :
    m.length = l.length := by
  induction l generalizing m with
  | nil => cases h; rfl
  | cons x l ih =>
    simp only [List.mapM_cons, Option.pure_def, Option.bind_eq_bind, Option.bind_eq_some_iff, Option.some.injEq] at h
    obtain ⟨y, -, ys, hys, rfl⟩ := h
    rw [List.length_cons, List.length_cons, ih hys]

theorem validate_ok {req : DumpSpyBuffersChunkRequest} {env : Option Nat} {channels : List Nat}
    (h : validate req env = .ok channels) :
    ¬req.channelList.isEmpty ∧ ¬(req.numberOfSamples = 0 ∨ req.numberOfSamples > 2048) ∧ ¬req.numberOfWaveforms = 0 ∧
      ¬(req.chunkSize = 0 ∨ req.chunkSize > 1024) ∧ req.channelList.mapM mapChannel = some channels := by
  unfold validate at h
  split at h
  · cases h
  rename_i hempty
  split at h
  · cases h
  rename_i hsamples
  split at h
  · cases h
  rename_i hwaveforms
  split at h
  · cases h
  rename_i hchunk
  split at h
  · cases h
  split at h
  · cases h
  rename_i mapped hmapped
  split at h
  · cases h
  cases h
  exact ⟨hempty, hsamples, hwaveforms, hchunk, hmapped⟩

theorem valid_of_validate {req : DumpSpyBuffersChunkRequest} {env : Option Nat} {channels : List Nat}
    (h : validate req env = .ok channels) : Valid req channels := by
  obtain ⟨hempty, hsamples, hwaveforms, hchunk, hmapped⟩ := validate_ok h
  have hlen : channels.length = req.channelList.length := mapM_length hmapped
  have hpos : 0 < req.channelList.length := by
    simpa [List.length_pos_iff] using hempty
  refine ⟨?_, ?_, ?_, ?_, by omega, hlen⟩
  · exact Nat.pos_of_ne_zero fun h0 => hwaveforms (UInt32.toNat_inj.mp h0)
  · exact Nat.pos_of_ne_zero fun h0 => hchunk (Or.inl (UInt32.toNat_inj.mp h0))
  · have : ¬1024 < req.chunkSize := fun h0 => hchunk (Or.inr h0)
    rw [UInt32.lt_iff_toNat_lt] at this
    simpa using this
  · exact Nat.pos_of_ne_zero fun h0 => hsamples (Or.inl (UInt32.toNat_inj.mp h0))

section Packets
variable (req : DumpSpyBuffersChunkRequest) (hw : SpyHardware) (channels : List Nat)

/-- The first waveform of chunk `i`; the number of waveforms when there is no such chunk. -/
def chunkStart (i : Nat) : Nat := min (i * req.chunkSize.toNat) req.numberOfWaveforms.toNat

/-- The number of waveforms of chunk `i`. -/
def chunkWaveforms (i : Nat) : Nat := min req.chunkSize.toNat (req.numberOfWaveforms.toNat - i * req.chunkSize.toNat)

/-- The hardware accesses for the first `w` waveforms. -/
def accesses (w : Nat) : Nat := w * perWaveform req.softwareTrigger channels.length

/-- Whether an access for the waveforms `a` to `b - 1` throws. -/
def Faults (a b : Nat) : Prop := ∃ n, accesses req channels a ≤ n ∧ n < accesses req channels b ∧ hw.throws n = true

/-- Chunk `i` of the request, as it should be. -/
def packet (i : Nat) : ChunkPacket where
  seq := .ofNat i
  wfStart := .ofNat (i * req.chunkSize.toNat)
  wfCount := .ofNat (chunkWaveforms req i)
  data := (List.range (chunkWaveforms req i)).flatMap fun k =>
    waveform hw req.softwareTrigger channels req.numberOfSamples.toNat (i * req.chunkSize.toNat + k)

/-- The producer's loop before chunk `i`. -/
def before (i : Nat) : ProducerState where
  seq := .ofNat i
  wfStart := .ofNat (i * req.chunkSize.toNat)
  accesses := accesses req channels (chunkStart req i)

variable {req hw channels}

theorem mul_lt_of_lt_chunkCount (hv : Valid req channels) {i : Nat} (hi : i < chunkCount req) :
    i * req.chunkSize.toNat < req.numberOfWaveforms.toNat := by
  have hc := hv.chunkSize_pos
  rw [chunkCount, Nat.lt_div_iff_mul_lt hc] at hi
  omega

theorem le_chunkCount_mul (hv : Valid req channels) :
    req.numberOfWaveforms.toNat ≤ chunkCount req * req.chunkSize.toNat := by
  have hc := hv.chunkSize_pos
  have := Nat.div_add_mod (req.numberOfWaveforms.toNat + req.chunkSize.toNat - 1) req.chunkSize.toNat
  have := Nat.mod_lt (req.numberOfWaveforms.toNat + req.chunkSize.toNat - 1) hc
  rw [chunkCount, Nat.mul_comm]
  omega

theorem chunkCount_pos (hv : Valid req channels) : 0 < chunkCount req :=
  Nat.div_pos (by have := hv.waveforms_pos; omega) hv.chunkSize_pos

theorem chunkCount_mul_lt (hv : Valid req channels) :
    chunkCount req * req.chunkSize.toNat < req.numberOfWaveforms.toNat + req.chunkSize.toNat := by
  have hlt := mul_lt_of_lt_chunkCount hv (Nat.sub_lt (chunkCount_pos hv) Nat.one_pos)
  rw [Nat.sub_mul] at hlt
  omega

@[simp] theorem chunkStart_zero : chunkStart req 0 = 0 := by simp [chunkStart]

theorem chunkStart_of_lt (hv : Valid req channels) {i : Nat} (hi : i < chunkCount req) :
    chunkStart req i = i * req.chunkSize.toNat :=
  Nat.min_eq_left (mul_lt_of_lt_chunkCount hv hi).le

theorem chunkStart_succ (hv : Valid req channels) {i : Nat} (hi : i < chunkCount req) :
    chunkStart req (i + 1) = i * req.chunkSize.toNat + chunkWaveforms req i := by
  have := mul_lt_of_lt_chunkCount hv hi
  rw [chunkStart, chunkWaveforms, Nat.succ_mul]
  omega

theorem chunkStart_chunkCount (hv : Valid req channels) : chunkStart req (chunkCount req) = req.numberOfWaveforms.toNat :=
  Nat.min_eq_right (le_chunkCount_mul hv)

theorem chunkWaveforms_pos (hv : Valid req channels) {i : Nat} (hi : i < chunkCount req) : 0 < chunkWaveforms req i := by
  have := mul_lt_of_lt_chunkCount hv hi
  have := hv.chunkSize_pos
  rw [chunkWaveforms]
  omega

theorem stdMin_toNat (a b : UInt32) : (stdMin a b).toNat = min a.toNat b.toNat := by
  unfold stdMin
  split
  · rename_i h
    exact (Nat.min_eq_right (UInt32.lt_iff_toNat_lt.mp h).le).symm
  · rename_i h
    rw [UInt32.lt_iff_toNat_lt, Nat.not_lt] at h
    exact (Nat.min_eq_left h).symm

theorem fillPacket_isNone {a n : Nat} :
    fillPacket hw req.softwareTrigger channels req.numberOfSamples.toNat n (accesses req channels a) = none ↔
      Faults req hw channels a (a + n) := by
  rw [fillPacket_eq_none]
  unfold Faults accesses
  rw [Nat.add_mul]
  constructor
  · rintro ⟨k, hk, hthrow⟩
    exact ⟨_, Nat.le_add_right _ k, by omega, hthrow⟩
  · rintro ⟨m, hle, hlt, hthrow⟩
    exact ⟨m - a * perWaveform req.softwareTrigger channels.length, by omega, by rwa [Nat.add_sub_cancel' hle]⟩

theorem fillPacket_accesses {a n : Nat} (h : ¬Faults req hw channels a (a + n)) :
    fillPacket hw req.softwareTrigger channels req.numberOfSamples.toNat n (accesses req channels a) =
      some (accesses req channels (a + n), (List.range n).flatMap fun k =>
        waveform hw req.softwareTrigger channels req.numberOfSamples.toNat (a + k)) := by
  have hthrow : ∀ k < n * perWaveform req.softwareTrigger channels.length,
      hw.throws (accesses req channels a + k) = false := fun k hk => by
    by_contra hthrow
    refine h ⟨_, Nat.le_add_right _ k, ?_, by simpa using hthrow⟩
    unfold accesses
    rw [Nat.add_mul]
    omega
  rw [fillPacket_eq hthrow]
  simp [waveform, accesses, Nat.add_mul]

/-! ### The rounds of the loop -/

theorem toNat_mul_chunkSize {i : Nat} (h : i * req.chunkSize.toNat < 2 ^ 32) :
    (UInt32.ofNat (i * req.chunkSize.toNat)).toNat = i * req.chunkSize.toNat := by
  rw [UInt32.toNat_ofNat', Nat.mod_eq_of_lt h]

theorem before_wfStart (hv : Valid req channels) {i : Nat} (hi : i < chunkCount req) :
    (before req channels i).wfStart.toNat = i * req.chunkSize.toNat :=
  toNat_mul_chunkSize ((mul_lt_of_lt_chunkCount hv hi).trans (UInt32.toNat_lt _))

theorem before_wfStart_lt (hv : Valid req channels) {i : Nat} (hi : i < chunkCount req) :
    (before req channels i).wfStart < req.numberOfWaveforms := by
  rw [UInt32.lt_iff_toNat_lt, before_wfStart hv hi]
  exact mul_lt_of_lt_chunkCount hv hi

theorem stdMin_before (hv : Valid req channels) {i : Nat} (hi : i < chunkCount req) :
    (stdMin req.chunkSize (req.numberOfWaveforms - (before req channels i).wfStart)).toNat = chunkWaveforms req i := by
  rw [stdMin_toNat, UInt32.toNat_sub_of_le _ _ (UInt32.le_iff_toNat_le.mpr (UInt32.lt_iff_toNat_lt.mp (before_wfStart_lt hv hi)).le),
    before_wfStart hv hi, chunkWaveforms]

/-- A round whose accesses do not throw makes the next packet. -/
theorem nextPacket_before (hv : Valid req channels) {i : Nat} (hi : i < chunkCount req)
    (h : ¬Faults req hw channels (chunkStart req i) (chunkStart req (i + 1))) :
    nextPacket req hw channels (before req channels i) = .item (packet req hw channels i) (before req channels (i + 1)) := by
  rw [chunkStart_succ hv hi, chunkStart_of_lt hv hi] at h
  have hcount := stdMin_before hv hi
  have hfill := fillPacket_accesses h
  unfold nextPacket
  rw [if_pos (before_wfStart_lt hv hi)]
  simp only [hcount]
  rw [show (before req channels i).accesses = accesses req channels (i * req.chunkSize.toNat) by
    rw [← chunkStart_of_lt hv hi]; rfl, hfill]
  simp only [packet, before, Next.item.injEq, ChunkPacket.mk.injEq, ProducerState.mk.injEq, true_and, and_true]
  refine ⟨?_, UInt32.ofNat_add _ _ |>.symm, ?_, by rw [chunkStart_succ hv hi]⟩
  · rw [← UInt32.toNat_inj, UInt32.toNat_ofNat', ← hcount, Nat.mod_eq_of_lt (UInt32.toNat_lt _)]
    rfl
  · rw [Nat.succ_mul, UInt32.ofNat_add, UInt32.ofNat_toNat]

theorem nextPacket_before_throw (hv : Valid req channels) {i : Nat} (hi : i < chunkCount req)
    (h : Faults req hw channels (chunkStart req i) (chunkStart req (i + 1))) :
    nextPacket req hw channels (before req channels i) = .throw := by
  rw [chunkStart_succ hv hi, chunkStart_of_lt hv hi] at h
  unfold nextPacket
  rw [if_pos (before_wfStart_lt hv hi)]
  simp only [stdMin_before hv hi]
  rw [show (before req channels i).accesses = accesses req channels (i * req.chunkSize.toNat) by
    rw [← chunkStart_of_lt hv hi]; rfl, fillPacket_isNone.mpr h]

/-- After the last chunk the loop ends, if the counter can hold the end of a whole last chunk. -/
theorem nextPacket_end (hv : Valid req channels) (h : chunkCount req * req.chunkSize.toNat < 2 ^ 32) :
    nextPacket req hw channels (before req channels (chunkCount req)) = .done := by
  unfold nextPacket
  rw [if_neg]
  rw [UInt32.lt_iff_toNat_lt, Nat.not_lt]
  simp only [before]
  rw [toNat_mul_chunkSize h]
  exact le_chunkCount_mul hv

/-- Otherwise the counter wraps, and the loop goes on as if it had not captured anything. -/
theorem nextPacket_wrap (hv : Valid req channels) (h : 2 ^ 32 ≤ chunkCount req * req.chunkSize.toNat) :
    (Faults req hw channels req.numberOfWaveforms.toNat (req.numberOfWaveforms.toNat + req.chunkSize.toNat) ∧
        nextPacket req hw channels (before req channels (chunkCount req)) = .throw) ∨
      (¬Faults req hw channels req.numberOfWaveforms.toNat (req.numberOfWaveforms.toNat + req.chunkSize.toNat) ∧
        ∃ x st, nextPacket req hw channels (before req channels (chunkCount req)) = .item x st) := by
  have hlt := chunkCount_mul_lt hv
  have hle := hv.chunkSize_le
  have hW := UInt32.toNat_lt req.numberOfWaveforms
  have hstart : (before req channels (chunkCount req)).wfStart.toNat = chunkCount req * req.chunkSize.toNat - 2 ^ 32 := by
    simp only [before]
    rw [UInt32.toNat_ofNat', Nat.mod_eq_sub_mod h, Nat.mod_eq_of_lt (by omega)]
  have hmore : (before req channels (chunkCount req)).wfStart < req.numberOfWaveforms := by
    rw [UInt32.lt_iff_toNat_lt, hstart]
    omega
  have hcount : (stdMin req.chunkSize (req.numberOfWaveforms - (before req channels (chunkCount req)).wfStart)).toNat =
      req.chunkSize.toNat := by
    rw [stdMin_toNat, UInt32.toNat_sub_of_le _ _ (UInt32.le_iff_toNat_le.mpr (UInt32.lt_iff_toNat_lt.mp hmore).le), hstart]
    omega
  have hacc : (before req channels (chunkCount req)).accesses = accesses req channels req.numberOfWaveforms.toNat := by
    rw [← chunkStart_chunkCount hv]
    rfl
  unfold nextPacket
  rw [if_pos hmore]
  simp only [hcount]
  rw [hacc]
  by_cases hf : Faults req hw channels req.numberOfWaveforms.toNat (req.numberOfWaveforms.toNat + req.chunkSize.toNat)
  · exact Or.inl ⟨hf, by rw [fillPacket_isNone.mpr hf]⟩
  · exact Or.inr ⟨hf, _, _, by rw [fillPacket_accesses hf]⟩

end Packets

end DaphneZmq.Chunker
