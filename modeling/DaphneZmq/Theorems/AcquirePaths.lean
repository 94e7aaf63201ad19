import DaphneZmq.AcquireListChannels
import DaphneZmq.Lib.Overlay
import DaphneZmq.Theorems.SpyDump

/-! # What the two paths without streaming write

A dump holds its waveforms one after the other, and in each the channels one after the other. A dump of one waveform has
the samples of a channel where the dump of all of them has them for that waveform, so that both paths append the same
words. -/

namespace DaphneZmq.AcquireListChannels
open Chunker Lib.Overlay

/-! ### Loops over the channels -/

section
variable {channels : List UInt32} {g : Nat → List UInt8 → List UInt8} {files : Files} {ch : UInt32}

/-- A loop that rewrites the files of distinct channels leaves the others. -/
theorem foldl_update_of_not_mem {n : Nat} (h : ch ∉ channels) :
    (channels.zipIdx n).foldl (fun files c => Function.update files c.1 (g c.2 (files c.1))) files ch = files ch := by
  induction channels generalizing files n with
  | nil => rfl
  | cons c channels ih =>
    obtain ⟨hne, hnot⟩ := List.ne_and_not_mem_of_not_mem_cons h
    rw [List.zipIdx_cons, List.foldl_cons, ih hnot, Function.update_of_ne hne]

theorem foldl_update {n idx : Nat} (hnodup : channels.Nodup) (hch : channels[idx]? = some ch) :
    (channels.zipIdx n).foldl (fun files c => Function.update files c.1 (g c.2 (files c.1))) files ch =
      g (n + idx) (files ch) := by
  induction channels generalizing files n idx with
  | nil => cases hch
  | cons c channels ih =>
    obtain ⟨hnot, hnodup⟩ := List.nodup_cons.mp hnodup
    rw [List.zipIdx_cons, List.foldl_cons]
    cases idx with
    | zero =>
      cases hch
      rw [foldl_update_of_not_mem hnot, Function.update_self, Nat.add_zero]
    | succ idx =>
      have hne : ch ≠ c := fun heq => hnot (heq ▸ List.mem_of_getElem? hch)
      rw [ih hnodup hch, Function.update_of_ne hne, Nat.add_right_comm, Nat.add_assoc]

theorem foldl_open {args : DumpArgs} (hnodup : channels.Nodup) (hch : ch ∈ channels) :
    channels.foldl (fun files ch => Function.update files ch (openFile args (files ch))) files ch =
      openFile args (files ch) := by
  obtain ⟨idx, hidx⟩ := List.mem_iff_getElem?.mp hch
  have hzip : (channels.zipIdx 0).foldl (fun files c => Function.update files c.1 (openFile args (files c.1))) files ch =
      openFile args (files ch) := foldl_update (g := fun _ => openFile args) hnodup hidx
  rwa [← List.foldl_map (f := Prod.fst) (g := fun files ch => Function.update files ch (openFile args (files ch))),
    List.zipIdx_map_fst] at hzip

theorem foldl_open_of_not_mem {args : DumpArgs} (hch : ch ∉ channels) :
    channels.foldl (fun files ch => Function.update files ch (openFile args (files ch))) files ch = files ch := by
  have hzip : (channels.zipIdx 0).foldl (fun files c => Function.update files c.1 (openFile args (files c.1))) files ch =
      files ch := foldl_update_of_not_mem (g := fun _ => openFile args) hch
  rwa [← List.foldl_map (f := Prod.fst) (g := fun files ch => Function.update files ch (openFile args (files ch))),
    List.zipIdx_map_fst] at hzip

/-- Rounds that each append to the files of the channels append the blocks of the rounds in order. -/
theorem foldl_rounds {b : Nat → Nat → List UInt8} {idx n : Nat} (hnodup : channels.Nodup) (hch : channels[idx]? = some ch) :
    (List.range n).foldl (fun files i => channels.zipIdx.foldl (fun files c =>
      Function.update files c.1 (files c.1 ++ b i c.2)) files) files ch = files ch ++ (List.range n).flatMap (b · idx) := by
  induction n with
  | zero => exact (List.append_nil _).symm
  | succ n ih =>
    rw [List.range_succ, List.foldl_append, List.foldl_cons, List.foldl_nil,
      foldl_update (g := fun idx bytes => bytes ++ b n idx) hnodup hch, ih, Nat.zero_add, List.append_assoc,
      List.flatMap_append, List.flatMap_singleton]

theorem foldl_rounds_of_not_mem {b : Nat → Nat → List UInt8} {n : Nat} (hch : ch ∉ channels) :
    (List.range n).foldl (fun files i => channels.zipIdx.foldl (fun files c =>
      Function.update files c.1 (files c.1 ++ b i c.2)) files) files ch = files ch := by
  induction n with
  | zero => rfl
  | succ n ih =>
    rw [List.range_succ, List.foldl_append, List.foldl_cons, List.foldl_nil,
      foldl_update_of_not_mem (g := fun idx bytes => bytes ++ b n idx) hch, ih]

end

/-- A loop of which no round raises. -/
theorem foldlM_ok {ε α σ : Type} {f : σ → α → Except ε σ} {g : σ → α → σ} {l : List α} {s : σ}
    (h : ∀ a ∈ l, ∀ s, f s a = .ok (g s a)) : l.foldlM f s = .ok (l.foldl g s) := by
  induction l generalizing s with
  | nil => rfl
  | cons a l ih =>
    rw [List.foldlM_cons, h a List.mem_cons_self, List.foldl_cons]
    exact ih fun b hb => h b (List.mem_cons_of_mem a hb)

/-! ### Blocks of a dump -/

theorem take_drop_flatMap_range {α : Type} {f : Nat → List α} {m : Nat} (hlen : ∀ i, (f i).length = m) {w n r l : Nat}
    (hw : w < n) (hr : r + l ≤ m) : (((List.range n).flatMap f).drop (w * m + r)).take l = ((f w).drop r).take l := by
  refine List.ext_getElem? fun i => ?_
  by_cases hi : i < l
  · rw [List.getElem?_take_of_lt hi, List.getElem?_take_of_lt hi, List.getElem?_drop, List.getElem?_drop, Nat.add_assoc,
      SpyDump.getElem?_flatMap_range hlen (by omega) hw]
  · rw [List.getElem?_eq_none (by rw [List.length_take]; omega), List.getElem?_eq_none (by rw [List.length_take]; omega)]

variable {hw : SpyHardware} {softwareTrigger : Bool} {channels : List Nat} {samples : Nat}

/-- The samples of one channel in a waveform. -/
theorem take_drop_waveform {idx pl : Nat} (w : Nat) (hpl : channels[idx]? = some pl) :
    ((waveform hw softwareTrigger channels samples w).drop (idx * samples)).take samples =
      SpyBuffer.samples (hw.words (w * perWaveform softwareTrigger channels.length + softwareTrigger.toNat + idx) pl)
        samples := by
  obtain ⟨hidx, hget⟩ := List.getElem?_eq_some_iff.mp hpl
  have hblock := take_drop_flatMap_range (f := fun j => SpyBuffer.samples (hw.words
    (w * perWaveform softwareTrigger channels.length + softwareTrigger.toNat + j) (channels.getD j 0)) samples)
    (fun _ => SpyBuffer.samples_length _ _) (r := 0) (l := samples) hidx (by omega)
  rw [Nat.add_zero, List.drop_zero] at hblock
  rw [waveform, capture, hblock, List.getD_eq_getElem?_getD, hpl, Option.getD_some]
  exact List.take_of_length_le (SpyBuffer.samples_length _ _).le

/-! ### What each path appends -/

variable {toBytes : UInt16 → List UInt8} {args : DumpArgs} {files : Files} {env : Option Nat} {what : String}
  {resp : DumpSpyBuffersResponse}

/-- The words that the file of a channel takes for a waveform. -/
def words (ptr : Nat → UInt32) (L : Nat) : List UInt16 := (SpyBuffer.samples ptr L).map UInt32.toUInt16

theorem toNat_of_lt {n : Nat} (h : n < 2 ^ 32) : (UInt32.ofNat n).toNat = n := by
  rw [UInt32.toNat_ofNat', Nat.mod_eq_of_lt h]

/-- A request for `W` waveforms of the script, and what it asks for. -/
structure Asks (args : DumpArgs) (W : Nat) (req : DumpSpyBuffersRequest) : Prop where
  channelList : req.channelList = args.channelList
  samples : req.numberOfSamples.toNat = args.L
  waveforms : req.numberOfWaveforms.toNat = W
  softwareTrigger : req.softwareTrigger = args.softwareTrigger

theorem asks_of_dumpRequest {W : Nat} {req : DumpSpyBuffersRequest} (h : dumpRequest args W = .ok req) : Asks args W req := by
  rw [dumpRequest] at h
  split at h
  · next hlt =>
    cases h
    exact ⟨rfl, toNat_of_lt hlt.2, toNat_of_lt hlt.1, rfl⟩
  · cases h

section
variable {W : Nat} {req : DumpSpyBuffersRequest} (hasks : Asks args W req) (hdump : SpyDump.Dumped req hw channels resp)
include hasks hdump

/-- The samples of a channel in a waveform of the reply. -/
theorem data_block {w idx pl : Nat} (hw' : w < W) (hpl : channels[idx]? = some pl) :
    (resp.data.drop ((w * args.channelList.length + idx) * args.L)).take args.L =
      SpyBuffer.samples (hw.words (w * perWaveform args.softwareTrigger args.channelList.length +
        args.softwareTrigger.toNat + idx) pl) args.L := by
  have hlen : channels.length = args.channelList.length := hdump.length.trans (congrArg List.length hasks.channelList)
  have hidx : idx < channels.length := (List.getElem?_eq_some_iff.mp hpl).1
  have hplace : (w * args.channelList.length + idx) * args.L = w * (args.L * channels.length) + idx * args.L := by
    rw [hlen]
    ring
  have hroom : idx * args.L + args.L ≤ args.L * channels.length := by
    rw [← Nat.succ_mul, Nat.mul_comm args.L]
    exact Nat.mul_le_mul_right args.L hidx
  rw [hdump.data, hasks.samples, hasks.waveforms, hasks.softwareTrigger, hplace,
    take_drop_flatMap_range SpyDump.waveform_length hw' hroom, take_drop_waveform w hpl, hlen]

theorem channelSlice_eq {idx pl : Nat} (hpl : channels[idx]? = some pl) :
    channelSlice resp.data W args.channelList.length args.L idx = (List.range W).flatMap fun w =>
      words (hw.words (w * perWaveform args.softwareTrigger args.channelList.length + args.softwareTrigger.toNat + idx) pl)
        args.L := by
  rw [channelSlice]
  refine List.flatMap_congr fun w hw' => ?_
  rw [data_block hasks hdump (List.mem_range.mp hw') hpl, words]

end

/-- What a reply with one waveform adds to a file. -/
def oscBlock (args : DumpArgs) (resp : DumpSpyBuffersResponse) (idx : Nat) : List UInt16 :=
  ((resp.data.drop (idx * args.L)).take args.L).map UInt32.toUInt16

theorem oscReply_eq {req : DumpSpyBuffersRequest} (hasks : Asks args 1 req) (hdump : SpyDump.Dumped req hw channels resp)
    (hsuccess : resp.success = true) : oscReply toBytes args files resp = .ok (args.channelList.zipIdx.foldl (fun files c =>
      Function.update files c.1 (tofile toBytes (oscBlock args resp c.2) (files c.1))) files) := by
  have hone : req.numberOfWaveforms ≠ 0 := fun h => by
    have := hasks.waveforms
    rw [h] at this
    cases this
  obtain ⟨y, info, hparse, ⟨hyW, hyK, hyN⟩, hitems⟩ := hdump.parse_items hone
  rw [hasks.waveforms] at hyW
  rw [hasks.channelList] at hyK
  rw [hasks.samples] at hyN
  rw [oscReply, if_pos hsuccess, hparse]
  refine foldlM_ok fun c hc files => ?_
  have hidx : c.2 < args.channelList.length := by simpa using List.snd_lt_of_mem_zipIdx hc
  have hrow : row y 0 c.2 = .ok ((y.items.drop (c.2 * args.L)).take args.L) := by
    rw [row, if_pos ⟨by rw [hyW]; exact Nat.one_pos, hyK ▸ hidx⟩, hyN, Nat.zero_mul, Nat.zero_add]
  have hwords : ((y.items.drop (c.2 * args.L)).take args.L).map (fun x : Int32 => x.toUInt32.toUInt16) =
      oscBlock args resp c.2 := by
    rw [hitems, ← List.map_drop, ← List.map_take, List.map_map]
    rfl
  rw [hrow]
  exact congrArg (fun words => Except.ok (Function.update files c.1 (tofile toBytes words (files c.1)))) hwords

/-- The samples of a channel in the waveform of a reply. -/
theorem oscBlock_eq {req : DumpSpyBuffersRequest} (hasks : Asks args 1 req) (hdump : SpyDump.Dumped req hw channels resp)
    {idx pl : Nat} (hpl : channels[idx]? = some pl) :
    oscBlock args resp idx = words (hw.words (args.softwareTrigger.toNat + idx) pl) args.L := by
  have hblock := data_block hasks hdump Nat.one_pos hpl
  rw [Nat.zero_mul, Nat.zero_add, Nat.zero_mul, Nat.zero_add] at hblock
  rw [oscBlock, hblock, words]

/-! ### The two paths -/

/-- Access `k` of the `i`-th request on the `osc_mode` path finds what the access finds that serves the same channel of
    waveform `i` in the dump of all of them. -/
def SameCaptures (args : DumpArgs) (hw : SpyHardware) (hws : Nat → SpyHardware) : Prop :=
  ∀ i < args.N, ∀ idx ch pl, args.channelList[idx]? = some ch → mapChannel ch = some pl →
    SpyBuffer.samples ((hws i).words (args.softwareTrigger.toNat + idx) pl) args.L =
      SpyBuffer.samples (hw.words (i * perWaveform args.softwareTrigger args.channelList.length +
        args.softwareTrigger.toNat + idx) pl) args.L

/-- The hardware from an access on. -/
def after (hw : SpyHardware) (n : Nat) : SpyHardware where
  throws k := hw.throws (n + k)
  words k := hw.words (n + k)

/-- Requests one after the other make the same accesses as the request for all waveforms. -/
theorem sameCaptures_after (args : DumpArgs) (hw : SpyHardware) :
    SameCaptures args hw fun i => after hw (i * perWaveform args.softwareTrigger args.channelList.length) := by
  intro i _ idx ch pl _ _
  rw [Nat.add_assoc]
  rfl

/-- The file of each channel has the waveforms of the channel behind what it was opened with; the other files are as
    they were. -/
structure Saves (toBytes : UInt16 → List UInt8) (args : DumpArgs) (hw : SpyHardware) (files saved : Files) : Prop where
  listed : ∀ idx ch, args.channelList[idx]? = some ch → ∃ pl, mapChannel ch = some pl ∧
    saved ch = openFile args (files ch) ++ (List.range args.N).flatMap fun w =>
      (words (hw.words (w * perWaveform args.softwareTrigger args.channelList.length + args.softwareTrigger.toNat + idx) pl)
        args.L).flatMap toBytes
  others : ∀ ch, ch ∉ args.channelList → saved ch = files ch

theorem Saves.eq {saved saved' : Files} (h : Saves toBytes args hw files saved) (h' : Saves toBytes args hw files saved') :
    saved = saved' := by
  funext ch
  by_cases hch : ch ∈ args.channelList
  · obtain ⟨idx, hidx⟩ := List.mem_iff_getElem?.mp hch
    obtain ⟨pl, hpl, hsaved⟩ := h.listed idx ch hidx
    obtain ⟨pl', hpl', hsaved'⟩ := h'.listed idx ch hidx
    rw [hpl] at hpl'
    cases hpl'
    rw [hsaved, hsaved']
  · rw [h.others ch hch, h'.others ch hch]

theorem dumpSpybuffer_success {req : DumpSpyBuffersRequest} (h : SpyDump.dumpSpybuffer what env req hw = .ok resp) :
    resp.success = true := by
  unfold SpyDump.dumpSpybuffer at h
  split at h
  · cases h
  · cases h
    rfl

theorem mapped_get {req : DumpSpyBuffersRequest} {W : Nat} (hasks : Asks args W req)
    (hdump : SpyDump.Dumped req hw channels resp) {idx : Nat} {ch : UInt32} (hch : args.channelList[idx]? = some ch) :
    ∃ pl, mapChannel ch = some pl ∧ channels[idx]? = some pl := by
  have hmapped := hdump.mapped
  rw [hasks.channelList] at hmapped
  have hidx : idx < channels.length := by
    rw [mapM_length hmapped]
    exact (List.getElem?_eq_some_iff.mp hch).1
  obtain ⟨pl, hpl⟩ : ∃ pl, channels[idx]? = some pl := ⟨_, List.getElem?_eq_getElem hidx⟩
  obtain ⟨ch', hch', hmap⟩ := SpyDump.mapM_getElem? hmapped hpl
  rw [hch] at hch'
  cases hch'
  exact ⟨pl, hmap, hpl⟩

theorem legacyMode_saves (toBytes : UInt16 → List UInt8) (files : Files) {req : DumpSpyBuffersRequest}
    (hnodup : args.channelList.Nodup) (hreq : dumpRequest args args.N = .ok req)
    (hdump : SpyDump.dumpSpybuffer what env req hw = .ok resp) :
    ∃ saved, legacyMode toBytes args files (fun req => SpyDump.dumpSpybuffer what env req hw) = .ok saved ∧
      Saves toBytes args hw files saved := by
  have hasks := asks_of_dumpRequest hreq
  obtain ⟨channels, hdumped⟩ := SpyDump.dumpSpybuffer_ok hdump
  have hsize : resp.data.length = args.N * args.channelList.length * args.L := by
    rw [hdumped.data_length, hasks.waveforms, hasks.channelList, hasks.samples]
  refine ⟨_, bind_eq_ok.mpr ⟨req, hreq, bind_eq_ok.mpr ⟨resp, hdump, if_pos hsize⟩⟩, ?_, ?_⟩
  · intro idx ch hch
    obtain ⟨pl, hmap, hpl⟩ := mapped_get hasks hdumped hch
    refine ⟨pl, hmap, ?_⟩
    rw [foldl_update (g := fun idx bytes => tofile toBytes
      (channelSlice resp.data args.N args.channelList.length args.L idx) (openFile args bytes)) hnodup hch, Nat.zero_add,
      channelSlice_eq hasks hdumped hpl, tofile, List.flatMap_assoc]
  · intro ch hch
    exact foldl_update_of_not_mem (g := fun idx bytes => tofile toBytes
      (channelSlice resp.data args.N args.channelList.length args.L idx) (openFile args bytes)) hch

theorem oscMode_saves (toBytes : UInt16 → List UInt8) (files : Files) {one : DumpSpyBuffersRequest}
    {hws : Nat → SpyHardware} {replies : Nat → DumpSpyBuffersResponse}
    (hnodup : args.channelList.Nodup) (hone : dumpRequest args 1 = .ok one)
    (hdump : ∀ i < args.N, SpyDump.dumpSpybuffer what env one (hws i) = .ok (replies i)) (hsame : SameCaptures args hw hws)
    (hmapped : ∀ ch ∈ args.channelList, ∃ pl, mapChannel ch = some pl) :
    ∃ saved, oscMode toBytes args files (fun i req => SpyDump.dumpSpybuffer what env req (hws i)) = .ok saved ∧
      Saves toBytes args hw files saved := by
  have hasks := asks_of_dumpRequest hone
  have hround : ∀ i ∈ List.range args.N, ∀ files : Files,
      (do oscReply toBytes args files (← SpyDump.dumpSpybuffer what env one (hws i))) =
        .ok (args.channelList.zipIdx.foldl (fun files c =>
          Function.update files c.1 (files c.1 ++ (oscBlock args (replies i) c.2).flatMap toBytes)) files) := by
    intro i hi files
    have hreply := hdump i (List.mem_range.mp hi)
    obtain ⟨channels, hdumped⟩ := SpyDump.dumpSpybuffer_ok hreply
    exact bind_eq_ok.mpr ⟨replies i, hreply, oscReply_eq hasks hdumped (dumpSpybuffer_success hreply)⟩
  refine ⟨_, bind_eq_ok.mpr ⟨one, hone, foldlM_ok hround⟩, ?_, ?_⟩
  · intro idx ch hch
    obtain ⟨pl, hmap⟩ := hmapped ch (List.mem_of_getElem? hch)
    refine ⟨pl, hmap, ?_⟩
    rw [foldl_rounds (b := fun i idx => (oscBlock args (replies i) idx).flatMap toBytes) hnodup hch,
      foldl_open hnodup (List.mem_of_getElem? hch)]
    refine congrArg _ (List.flatMap_congr fun w hw' => ?_)
    have hlt := List.mem_range.mp hw'
    obtain ⟨channels, hdumped⟩ := SpyDump.dumpSpybuffer_ok (hdump w hlt)
    obtain ⟨pl', hmap', hpl⟩ := mapped_get hasks hdumped hch
    rw [hmap] at hmap'
    cases hmap'
    rw [oscBlock_eq hasks hdumped hpl, words, hsame w hlt idx ch pl hch hmap, words]
  · intro ch hch
    rw [foldl_rounds_of_not_mem (b := fun i idx => (oscBlock args (replies i) idx).flatMap toBytes) hch,
      foldl_open_of_not_mem hch]

/-- When all requests succeed and capture the same waveforms, both paths leave the same files: in each channel's file the
    waveforms of the channel in the order of their capture. -/
theorem oscMode_eq_legacyMode (toBytes : UInt16 → List UInt8) (args : DumpArgs) (files : Files) (what : String)
    (env : Option Nat) (hw : SpyHardware) (hws : Nat → SpyHardware) (req one : DumpSpyBuffersRequest)
    (resp : DumpSpyBuffersResponse) (replies : Nat → DumpSpyBuffersResponse) (hnodup : args.channelList.Nodup)
    (hreq : dumpRequest args args.N = .ok req) (hdump : SpyDump.dumpSpybuffer what env req hw = .ok resp)
    (hone : dumpRequest args 1 = .ok one)
    (hdumps : ∀ i < args.N, SpyDump.dumpSpybuffer what env one (hws i) = .ok (replies i)) (hsame : SameCaptures args hw hws) :
    ∃ saved, oscMode toBytes args files (fun i req => SpyDump.dumpSpybuffer what env req (hws i)) = .ok saved ∧
      legacyMode toBytes args files (fun req => SpyDump.dumpSpybuffer what env req hw) = .ok saved ∧
      Saves toBytes args hw files saved := by
  obtain ⟨saved, hlegacy, hsaved⟩ := legacyMode_saves toBytes files hnodup hreq hdump
  have hmapped : ∀ ch ∈ args.channelList, ∃ pl, mapChannel ch = some pl := by
    intro ch hch
    obtain ⟨idx, hidx⟩ := List.mem_iff_getElem?.mp hch
    obtain ⟨pl, hmap, -⟩ := hsaved.listed idx ch hidx
    exact ⟨pl, hmap⟩
  obtain ⟨saved', hosc, hsaved'⟩ := oscMode_saves toBytes files hnodup hone hdumps hsame hmapped
  obtain rfl := hsaved.eq hsaved'
  exact ⟨saved, hosc, hlegacy, hsaved⟩

/-- Two waveforms of two channels. -/
def twoWaveforms : DumpArgs where
  channelList := [9, 3]
  L := 2
  N := 2
  softwareTrigger := true
  appendData := false

def lowByteFirst (word : UInt16) : List UInt8 := [word.toUInt8, (word >>> 8).toUInt8]

theorem twoWaveforms_saves : ∃ saved,
    oscMode lowByteFirst twoWaveforms (fun _ => [1])
      (fun i req => SpyDump.dumpSpybuffer "" none req (after quietHardware (i * 3))) = .ok saved ∧
    legacyMode lowByteFirst twoWaveforms (fun _ => [1]) (fun req => SpyDump.dumpSpybuffer "" none req quietHardware) =
      .ok saved ∧
    Saves lowByteFirst twoWaveforms quietHardware (fun _ => [1]) saved :=
  oscMode_eq_legacyMode lowByteFirst twoWaveforms (fun _ => [1]) "" none quietHardware
    (fun i => after quietHardware (i * 3)) _ _ _ (fun _ => _) (by decide) rfl rfl rfl (fun _ _ => rfl)
    (sameCaptures_after twoWaveforms quietHardware)

end DaphneZmq.AcquireListChannels
