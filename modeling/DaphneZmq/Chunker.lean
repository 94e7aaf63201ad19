import DaphneZmq.Pipeline
import DaphneZmq.Protobuf
import DaphneZmq.SpyBuffer

/-! # Chunked spy-buffer dumps (server_controller/spybuffer_chunker.cpp)

`for_each_spybuffer_chunk` checks the request and then runs a `Pipeline` with a queue of two packets. The
hardware is a trace: the accesses of the producer thread (software triggers and extractions) are numbered
from zero, and the trace says of each one whether it throws and, for an extraction, what the spy buffers
hold at that moment. -/

namespace DaphneZmq

/-- The hardware as the producer thread finds it. -/
structure SpyHardware where
  /-- Whether the `n`-th access throws. -/
  throws : Nat → Bool
  /-- The words of the channel with the given PL index, as the `n`-th access finds them. -/
  words : Nat → Nat → Nat → UInt32

namespace Chunker

/-- `afe_definitions::AFE_board2PL_map.at(afe)`; it throws for a board that has no entry. -/
def afeBoard2PLMap : Nat → Option Nat
  | 0 => some 0
  | 1 => some 4
  | 2 => some 3
  | 3 => some 2
  | 4 => some 1
  | _ => none

/-- The PL index of a channel. -/
def mapChannel (ch : UInt32) : Option Nat := (afeBoard2PLMap (ch.toNat / 8)).map fun afe => afe * 8 + ch.toNat % 8

/-- `max_chunk_bytes()`, from what `std::stoull` makes of `DAPHNE_MAX_SPYBUFFER_CHUNK_BYTES`; none if it
    is not set or not a number. -/
def maxChunkBytes (env : Option Nat) : Nat := env.getD (64 * 1024 * 1024)

structure ChunkPacket where
  seq : UInt32
  wfStart : UInt32
  wfCount : UInt32
  data : List UInt32

/-- The variables of the producer's loop, and the number of its hardware accesses so far. -/
structure ProducerState where
  seq : UInt32
  wfStart : UInt32
  accesses : Nat

/-- A hardware access of the producer: a software trigger, or the extraction of channel `j` for the
    chunk's waveform `i`. -/
inductive Access where
  | trigger
  | extract (i j : Nat)

/-- The accesses for a chunk of `wfCount` waveforms of `channels` channels, in the order of the loops. -/
def chunkAccesses (softwareTrigger : Bool) (channels wfCount : Nat) : List Access :=
  (List.range wfCount).flatMap fun i =>
    (if softwareTrigger then [.trigger] else []) ++ (List.range channels).map (.extract i)

/-- One access: it throws, or it is counted, and an extraction stores its samples in the packet's data. -/
def runAccess (hw : SpyHardware) (channels : List Nat) (samples : Nat) (st : Nat × List UInt32) (a : Access) :
    Option (Nat × List UInt32) :=
  if hw.throws st.1 then none
  else match a with
    | .trigger => some (st.1 + 1, st.2)
    | .extract i j =>
      some (st.1 + 1, SpyBuffer.store st.2 ((i * channels.length + j) * samples)
        (SpyBuffer.extractMappedDataBulkSIMD (hw.words st.1 (channels.getD j 0)) samples))

/-- The data of a packet, zeroed and then filled; none if an access throws. -/
def fillPacket (hw : SpyHardware) (softwareTrigger : Bool) (channels : List Nat) (samples wfCount accesses : Nat) :
    Option (Nat × List UInt32) :=
  (chunkAccesses softwareTrigger channels.length wfCount).foldlM (runAccess hw channels samples)
    (accesses, List.replicate (wfCount * samples * channels.length) 0)

/-- `std::min`. -/
def stdMin (a b : UInt32) : UInt32 := if b < a then b else a

/-- One round of the producer's loop. `wf_start` and `seq` are 32-bit counters. -/
def nextPacket (req : DumpSpyBuffersChunkRequest) (hw : SpyHardware) (channels : List Nat) (st : ProducerState) :
    Next ChunkPacket ProducerState :=
  if st.wfStart < req.numberOfWaveforms then
    let wfCount := stdMin req.chunkSize (req.numberOfWaveforms - st.wfStart)
    match fillPacket hw req.softwareTrigger channels req.numberOfSamples.toNat wfCount.toNat st.accesses with
    | none => .throw
    | some (accesses, data) =>
      .item ⟨st.seq, st.wfStart, wfCount, data⟩ ⟨st.seq + 1, st.wfStart + req.chunkSize, accesses⟩
  else .done

/-- The message that the consumer loop builds from a packet, when it has read `success` from the flag. -/
def response (req : DumpSpyBuffersChunkRequest) (d : Bool × ChunkPacket) : DumpSpyBuffersChunkResponse where
  success := d.1
  requestID := req.requestID
  chunkseq := d.2.seq
  isFinal := d.2.wfStart + d.2.wfCount ≥ req.numberOfWaveforms
  waveformStart := d.2.wfStart
  waveformCount := d.2.wfCount
  requestTotalWaveforms := req.numberOfWaveforms
  numberOfSamples := req.numberOfSamples
  channelList := req.channelList
  data := d.2.data

/-- The checks of `for_each_spybuffer_chunk`, in order, up to the creation of the thread; with the PL
    indices of the channels. -/
def validate (req : DumpSpyBuffersChunkRequest) (env : Option Nat) : Except String (List Nat) :=
  if req.channelList.isEmpty then .error "Empty channel list"
  else if req.numberOfSamples = 0 ∨ req.numberOfSamples > 2048 then .error "Invalid numberOfSamples"
  else if req.numberOfWaveforms = 0 then .error "Invalid numberOfWaveforms"
  else if req.chunkSize = 0 ∨ req.chunkSize > 1024 then .error "Invalid chunkSize"
  else if req.channelList.any (· > 39) then .error "Channel out of range (0..39)"
  else match req.channelList.mapM mapChannel with
    | none => .error "unordered_map::at"
    | some channels =>
      if req.chunkSize.toNat * req.numberOfSamples.toNat * channels.length * 4 > maxChunkBytes env then
        .error "Requested chunk exceeds DAPHNE_MAX_SPYBUFFER_CHUNK_BYTES; lower chunkSize"
      else .ok channels

/-- The two threads that `for_each_spybuffer_chunk` runs for a request that passes the checks, when the
    calls of `on_chunk` that `throws` names throw. -/
def pipeline (req : DumpSpyBuffersChunkRequest) (hw : SpyHardware) (channels : List Nat) (throws : Nat → Bool) :
    Pipeline ProducerState ChunkPacket where
  capacity := 2
  start := ⟨0, 0, 0⟩
  next := nextPacket req hw channels
  callbackThrows := throws

/-- The arguments of the calls of `on_chunk` that have returned. -/
def responses (req : DumpSpyBuffersChunkRequest) {P : Pipeline ProducerState ChunkPacket} (s : P.State) :
    List DumpSpyBuffersChunkResponse :=
  s.delivered.map (response req)

end Chunker

/-- How a call of `for_each_spybuffer_chunk` ends. -/
inductive DumpEnd where
  | returned
  | threw (what : String)
  /-- It runs for ever, or has terminated the process. -/
  | lost

/-- The calls of `on_chunk` that returned, and the end. -/
structure DumpOutcome where
  sent : List DumpSpyBuffersChunkResponse
  ending : DumpEnd

/-- What the call has come to when its thread is at its end; `what` is the text of the exception that
    `on_chunk` throws. -/
def Chunker.outcome (req : DumpSpyBuffersChunkRequest) (what : String)
    {P : Pipeline Chunker.ProducerState Chunker.ChunkPacket} (s : P.State) : Option DumpOutcome :=
  match s.consumer with
  | .returned => some ⟨Chunker.responses req s, .returned⟩
  | .threw => some ⟨Chunker.responses req s, .threw what⟩
  | .terminated => some ⟨Chunker.responses req s, .lost⟩
  | _ => none

/-- What a call of `for_each_spybuffer_chunk` can come to, over all interleavings. -/
inductive ForEachSpybufferChunk (req : DumpSpyBuffersChunkRequest) (hw : SpyHardware) (env : Option Nat)
    (throws : Nat → Bool) (what : String) : DumpOutcome → Prop
  | rejected {error : String} : Chunker.validate req env = .error error →
      ForEachSpybufferChunk req hw env throws what ⟨[], .threw error⟩
  | ran {channels : List Nat} {ls : List Pipeline.Label} {s : (Chunker.pipeline req hw channels throws).State}
      {o : DumpOutcome} : Chunker.validate req env = .ok channels → Pipeline.Reaches _ ls s →
      Chunker.outcome req what s = some o → ForEachSpybufferChunk req hw env throws what o

end DaphneZmq
