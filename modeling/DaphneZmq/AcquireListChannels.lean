import DaphneZmq.Protobuf
import DaphneZmq.SpyDump

/-! # The acquisition script (client/protobuf_acquire_list_channels.py)

On the streaming path the client sends one chunk request and reads replies until the loop is left. `stream_envelope`
parses every reply as a legacy `ControlEnvelope`; the loop compares the type with the one of the envelope that was sent.
The two other paths ask for dumps in one reply, of one waveform each or of all waveforms, and append to the same files. -/

namespace DaphneZmq.AcquireListChannels
open Lib.Wire

/-- The command line, as far as the streaming path reads it. -/
structure Args where
  channelList : List UInt32
  L : Nat
  v2 : Bool := true
  legacy : Bool := false

/-- How the loop is left. -/
inductive LoopEnd where
  /-- `break` at the chunk with `isFinal`. -/
  | final
  /-- `break` at a chunk without `success`. -/
  | serverError (message : String)
  /-- `ParseFromString` of the envelope or the chunk raises. -/
  | decodeError
  /-- `reshape` raises, and with it the loop. -/
  | notCompatible
  /-- No reply is left, and `recv` raises after the timeout. -/
  | timedOut
deriving DecidableEq

/-- The words appended to the channels' files, and the count of waveforms. -/
structure Progress where
  files : UInt32 → List UInt16 := fun _ => []
  wfWritten : Nat := 0

/-- `y[:, idx, :]` of the array with the shape `(wfCount, nChannels, L)`, as 16-bit words. -/
def channelSlice (arr : List UInt32) (wfCount nChannels L idx : Nat) : List UInt16 :=
  (List.range wfCount).flatMap fun w => ((arr.drop ((w * nChannels + idx) * L)).take L).map UInt32.toUInt16

/-- The writes of the inner loop, one channel after the other. -/
def writeChannels (args : Args) (arr : List UInt32) (wfCount : Nat) (files : UInt32 → List UInt16) : UInt32 → List UInt16 :=
  args.channelList.zipIdx.foldl (fun files c =>
    Function.update files c.1 (files c.1 ++ channelSlice arr wfCount args.channelList.length args.L c.2)) files

/-- The type that the loop waits for. -/
def awaited (args : Args) : Int32 :=
  if args.v2 ∧ ¬args.legacy then MessageTypeV2.mt2DumpSpybufferChunkResp else MessageType.dumpSpybufferChunk

/-- The loop over the replies, each the bytes of its last frame. -/
def stream (args : Args) (progress : Progress) : List Bytes → Progress × LoopEnd
  | [] => (progress, .timedOut)
  | payload :: replies =>
    match ControlEnvelope.parseFromString payload with
    | none => (progress, .decodeError)
    | some respEnv =>
      if respEnv.type ≠ awaited args then stream args progress replies
      else match DumpSpyBuffersChunkResponse.parseFromString respEnv.payload with
        | none => (progress, .decodeError)
        | some chunk =>
          if ¬chunk.success then (progress, .serverError chunk.message)
          else if chunk.data.isEmpty then
            if chunk.isFinal then (progress, .final) else stream args progress replies
          else if chunk.waveformCount.toNat * args.channelList.length * args.L ≠ chunk.data.length then
            (progress, .notCompatible)
          else
            let progress : Progress :=
              { files := writeChannels args chunk.data chunk.waveformCount.toNat progress.files,
                wfWritten := progress.wfWritten + chunk.waveformCount.toNat }
            if chunk.isFinal then (progress, .final) else stream args progress replies

/-! ### The paths that do not stream -/

structure DumpArgs extends Args where
  N : Nat
  softwareTrigger : Bool
  appendData : Bool
  /-- The size of a repeated field is an `int`. -/
  size_le : channelList.length ≤ intMax := by decide

/-- The bytes of each channel's file. -/
abbrev Files := UInt32 → List UInt8

/-- `open` in mode `ab` or `wb`. -/
def openFile (args : DumpArgs) (bytes : List UInt8) : List UInt8 := if args.appendData then bytes else []

/-- `tofile`; `toBytes` has the bytes of a word in the order of the client's machine. -/
def tofile (toBytes : UInt16 → List UInt8) (words : List UInt16) (bytes : List UInt8) : List UInt8 :=
  bytes ++ words.flatMap toBytes

/-- The request for so many waveforms; the fields take what 32 bits hold. -/
def dumpRequest (args : DumpArgs) (numberOfWaveforms : Nat) : Except String DumpSpyBuffersRequest :=
  if numberOfWaveforms < 2 ^ 32 ∧ args.L < 2 ^ 32 then
    .ok {
      channelList := args.channelList
      numberOfSamples := UInt32.ofNat args.L
      numberOfWaveforms := UInt32.ofNat numberOfWaveforms
      softwareTrigger := args.softwareTrigger
      size_le := args.size_le }
  else .error "Value out of range"

/-- `y[w][idx, :]`. -/
def row (y : SpyDump.NdArray) (w idx : Nat) : Except String (List Int32) :=
  if w < y.W ∧ idx < y.K then .ok ((y.items.drop ((w * y.K + idx) * y.N)).take y.N) else .error "index out of bounds"

/-- One reply on the `osc_mode` path: its first waveform goes to the open files. -/
def oscReply (toBytes : UInt16 → List UInt8) (args : DumpArgs) (files : Files) (resp : DumpSpyBuffersResponse) :
    Except String Files := do
  if resp.success then
    let (y, _) ← SpyDump.parseDumpResponse resp
    args.channelList.zipIdx.foldlM (fun files c => do
      let y0 ← row y 0 c.2
      return Function.update files c.1 (tofile toBytes (y0.map fun x => x.toUInt32.toUInt16) (files c.1))) files
  else .error ("Server error: " ++ resp.message)

/-- The `osc_mode` path; `server` has what each request gives, an error where it raises. An error ends the script. -/
def oscMode (toBytes : UInt16 → List UInt8) (args : DumpArgs) (files : Files)
    (server : Nat → DumpSpyBuffersRequest → Except String DumpSpyBuffersResponse) : Except String Files := do
  let req ← dumpRequest args 1
  let files := args.channelList.foldl (fun files ch => Function.update files ch (openFile args (files ch))) files
  (List.range args.N).foldlM (fun files i => do oscReply toBytes args files (← server i req)) files

/-- The legacy path, which does not look at `success`: the files are opened one after the other. -/
def legacyMode (toBytes : UInt16 → List UInt8) (args : DumpArgs) (files : Files)
    (server : DumpSpyBuffersRequest → Except String DumpSpyBuffersResponse) : Except String Files := do
  let req ← dumpRequest args args.N
  let resp ← server req
  let nChannels := args.channelList.length
  if resp.data.length = args.N * nChannels * args.L then
    return args.channelList.zipIdx.foldl (fun files c => Function.update files c.1
      (tofile toBytes (channelSlice resp.data args.N nChannels args.L c.2) (openFile args (files c.1)))) files
  else .error s!"Data size {resp.data.length} not compatible with (N={args.N}, C={nChannels}, L={args.L})"

end DaphneZmq.AcquireListChannels
