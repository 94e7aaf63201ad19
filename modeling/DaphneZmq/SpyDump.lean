import DaphneZmq.Chunker

/-! # Spy-buffer dumps in one reply (server_controller/handlers.cpp, client/waveparse.py)

The server checks the request, fills the data field in one of two branches and copies the header fields; the client
gives the data the shape that the header says. The accesses of the server are numbered from zero, as those of a
chunked dump are. -/

namespace DaphneZmq

structure DumpSpyBuffersRequest where
  channelList : List UInt32
  numberOfSamples : UInt32
  numberOfWaveforms : UInt32
  softwareTrigger : Bool
  /-- The size of a repeated field is an `int`. -/
  size_le : channelList.length ≤ intMax := by decide

structure DumpSpyBuffersResponse where
  success : Bool
  channelList : List UInt32
  numberOfSamples : UInt32
  numberOfWaveforms : UInt32
  softwareTrigger : Bool
  data : List UInt32
  message : String
deriving DecidableEq

namespace SpyDump
open Chunker

/-- `max_spybuffer_bytes()`, from what `std::stoull` makes of `DAPHNE_MAX_SPYBUFFER_BYTES`; none if it is not set or
    not a number. -/
def maxSpybufferBytes (env : Option Nat) : Nat := env.getD (64 * 1024 * 1024)

/-- The checks of the request, in order, with the number of words of the dump. -/
def validate (req : DumpSpyBuffersRequest) (env : Option Nat) : Except String UInt64 :=
  let channels : UInt64 := .ofNat req.channelList.length
  let waveforms := req.numberOfWaveforms.toUInt64
  let wordsPerWaveform := req.numberOfSamples.toUInt64 * channels
  let totalWords := wordsPerWaveform * waveforms
  let totalBytes := totalWords * 4
  if req.channelList.any (· > 39) then .error "channel out of range (0..39)"
  else if req.numberOfSamples = 0 ∨ req.numberOfSamples > 2048 then .error "numberOfSamples out of range (1..2048)"
  else if channels = 0 then .error "channelList is empty"
  else if req.numberOfWaveforms ≠ 0 ∧ totalWords / waveforms ≠ wordsPerWaveform then .error "Requested dump size overflow"
  else if totalWords ≠ 0 ∧ totalBytes / 4 ≠ totalWords then .error "Requested dump size overflow"
  else if totalWords.toNat > intMax then .error "Requested dump too large for protobuf RepeatedField"
  else if totalBytes.toNat > maxSpybufferBytes env then
    .error "Requested dump exceeds DAPHNE_MAX_SPYBUFFER_BYTES; use chunked dump"
  else .ok totalWords

/-- One access: it throws, or it is counted, and the extraction of channel `i` of waveform `j` stores its samples at
    `offset j i`. -/
def runAccess (hw : SpyHardware) (channels : List Nat) (samples : Nat) (offset : Nat → Nat → Nat)
    (st : Nat × List UInt32) (a : Access) : Option (Nat × List UInt32) :=
  if hw.throws st.1 then none
  else match a with
    | .trigger => some (st.1 + 1, st.2)
    | .extract j i =>
      some (st.1 + 1, SpyBuffer.store st.2 (offset j i)
        (SpyBuffer.extractMappedDataBulkSIMD (hw.words st.1 (channels.getD i 0)) samples))

/-! ### The branch for one channel -/

def singleAccesses (softwareTrigger : Bool) (waveforms : Nat) : List Access :=
  (List.range waveforms).flatMap fun j => (if softwareTrigger then [.trigger] else []) ++ [.extract j 0]

/-- `number_of_samples * j`, a product of 32-bit numbers. -/
def singleOffset (samples : UInt32) (j _ : Nat) : Nat := (samples * UInt32.ofNat j).toNat

def fillSingle (req : DumpSpyBuffersRequest) (hw : SpyHardware) (mapped : Nat) (data : List UInt32) :
    Option (Nat × List UInt32) :=
  (singleAccesses req.softwareTrigger req.numberOfWaveforms.toNat).foldlM
    (runAccess hw [mapped] req.numberOfSamples.toNat (singleOffset req.numberOfSamples)) (0, data)

/-! ### The branch for several channels -/

def multiAccesses (softwareTrigger : Bool) (channels waveforms : Nat) : List Access :=
  (List.range waveforms).flatMap fun j =>
    (if softwareTrigger then [.trigger] else []) ++ (List.range channels).map (.extract j)

/-- `number_of_samples * (j * mapped_channels.size() + i)`, a product of 64-bit numbers. -/
def multiOffset (samples : UInt32) (channels j i : Nat) : Nat :=
  (samples.toUInt64 * (UInt64.ofNat j * UInt64.ofNat channels + UInt64.ofNat i)).toNat

def fillMulti (req : DumpSpyBuffersRequest) (hw : SpyHardware) (mapped : List Nat) (data : List UInt32) :
    Option (Nat × List UInt32) :=
  (multiAccesses req.softwareTrigger mapped.length req.numberOfWaveforms.toNat).foldlM
    (runAccess hw mapped req.numberOfSamples.toNat (multiOffset req.numberOfSamples mapped.length)) (0, data)

/-- The accesses and the places of the branch that a request takes. -/
def accesses (req : DumpSpyBuffersRequest) : List Access :=
  if req.channelList.length = 1 then singleAccesses req.softwareTrigger req.numberOfWaveforms.toNat
  else multiAccesses req.softwareTrigger req.channelList.length req.numberOfWaveforms.toNat

def offset (req : DumpSpyBuffersRequest) : Nat → Nat → Nat :=
  if req.channelList.length = 1 then singleOffset req.numberOfSamples
  else multiOffset req.numberOfSamples req.channelList.length

def fillBranch (req : DumpSpyBuffersRequest) (hw : SpyHardware) (mapped : List Nat) (data : List UInt32) :
    Option (Nat × List UInt32) :=
  match mapped with
  | [ch] => fillSingle req hw ch data
  | _ => fillMulti req hw mapped data

/-- The zeroed data, filled; `what` is the text of the exception that an access throws. -/
def fill (what : String) (req : DumpSpyBuffersRequest) (hw : SpyHardware) (totalWords : UInt64) :
    Except String (List UInt32) :=
  match req.channelList.mapM mapChannel with
  | none => .error "unordered_map::at"
  | some mapped =>
    match fillBranch req hw mapped (List.replicate totalWords.toNat 0) with
    | none => .error what
    | some (_, data) => .ok data

/-- `dumpSpybuffer`, with the fields that the handler sets; an error is the message of the reply. -/
def dumpSpybuffer (what : String) (env : Option Nat) (req : DumpSpyBuffersRequest) (hw : SpyHardware) :
    Except String DumpSpyBuffersResponse :=
  match validate req env >>= fill what req hw with
  | .error e => .error ("Error dumping spybuffer: " ++ e)
  | .ok data =>
    .ok {
      success := true
      channelList := req.channelList
      numberOfSamples := req.numberOfSamples
      numberOfWaveforms := req.numberOfWaveforms
      softwareTrigger := req.softwareTrigger
      data := data
      message := "OK" }

/-! ### The client -/

/-- A three-dimensional array in row-major order. -/
structure NdArray where
  W : Nat
  K : Nat
  N : Nat
  items : List Int32
  length_eq : items.length = W * K * N

/-- `y[w][k][s]`. -/
def NdArray.get (y : NdArray) (w k s : Nat) : Option Int32 :=
  if w < y.W ∧ k < y.K ∧ s < y.N then y.items[(w * y.K + k) * y.N + s]? else none

structure Meta where
  W : Nat
  K : Nat
  N : Nat
  channels : List UInt32
  success : Bool
  message : String

/-- `parse_dump_response`; an error is the text of the `ValueError`. -/
def parseDumpResponse (resp : DumpSpyBuffersResponse) : Except String (NdArray × Meta) :=
  let K := resp.channelList.length
  let N := resp.numberOfSamples.toNat
  let W := if resp.numberOfWaveforms ≠ 0 then resp.numberOfWaveforms.toNat else 1
  let expected := W * K * N
  let size := resp.data.length
  if h : size < expected then .error s!"Payload too short: {size} < expected {expected} (W={W}, K={K}, N={N})"
  else
    let y : NdArray :=
      { W := W, K := K, N := N, items := (resp.data.take expected).map UInt32.toInt32
        length_eq := by rw [List.length_map, List.length_take]; omega }
    .ok (y, ⟨W, K, N, resp.channelList, resp.success, resp.message⟩)

/-- The chunk request for the same dump. -/
def chunkRequest (req : DumpSpyBuffersRequest) (requestID : String) (chunkSize : UInt32) : DumpSpyBuffersChunkRequest :=
  ⟨req.channelList, req.numberOfSamples, req.numberOfWaveforms, req.softwareTrigger, requestID, chunkSize⟩

end SpyDump
end DaphneZmq
