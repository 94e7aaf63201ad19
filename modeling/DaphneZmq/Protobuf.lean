import DaphneZmq.Lib.Wire

/-! # The messages of daphneV3_high_level_confs.proto

A message is its fields, with the proto3 defaults. Parsing starts from the defaults and takes the fields in
the order of the bytes: the last value of a scalar counts, a field that the schema does not have, or has with
another wire type, changes nothing. -/

namespace DaphneZmq
open Lib.Wire

/-- The largest `int`. -/
def intMax : Nat := 2 ^ 31 - 1

/-- `SerializeAsString`: a message that `int` cannot give the size of comes out empty. -/
def serializeAsString (fs : List Field) : Bytes :=
  let bs := writeFields fs
  if bs.length ≤ intMax then bs else []

/-- `ParseFromArray(data, static_cast<int>(size))`. -/
def parseFromArray {α : Type} (parseFromString : Bytes → Option α) (data : Bytes) : Option α :=
  let size := data.length % 2 ^ 32
  if size ≤ intMax then parseFromString (data.take size) else none

abbrev Direction := Int32

namespace Direction

def dirRequest : Direction := 0
def dirResponse : Direction := 1

end Direction

/-- An open enumeration: a message can hold a type that has no name. -/
abbrev MessageTypeV2 := Int32

namespace MessageTypeV2

def mt2Unspecified : MessageTypeV2 := 0
def mt2DumpSpybufferChunkReq : MessageTypeV2 := 300
def mt2DumpSpybufferChunkResp : MessageTypeV2 := 301

end MessageTypeV2

structure ControlEnvelopeV2 where
  version : UInt32 := 0
  dir : Direction := 0
  type : MessageTypeV2 := 0
  payload : Bytes := []
  taskId : UInt64 := 0
  msgId : UInt64 := 0
  correlId : UInt64 := 0
  route : String := ""
  timestampNs : UInt64 := 0
deriving DecidableEq

namespace ControlEnvelopeV2

def merge (m : ControlEnvelopeV2) (f : Field) : Option ControlEnvelopeV2 :=
  match f.number, f.value with
  | 1, .varint v => some { m with version := v.toUInt32 }
  | 2, .varint v => some { m with dir := readEnum v }
  | 3, .varint v => some { m with type := readEnum v }
  | 4, .len bs => some { m with payload := bs }
  | 10, .varint v => some { m with taskId := v }
  | 11, .varint v => some { m with msgId := v }
  | 12, .varint v => some { m with correlId := v }
  | 13, .len bs => (readUtf8 bs).map fun route => { m with route }
  | 20, .varint v => some { m with timestampNs := v }
  | _, _ => some m

def parseFromString (bs : Bytes) : Option ControlEnvelopeV2 := (parse bs).bind (·.foldlM merge {})

def fields (m : ControlEnvelopeV2) : List Field :=
  varintField 1 m.version.toUInt64 ++ varintField 2 (enumValue m.dir) ++ varintField 3 (enumValue m.type) ++
    lenField 4 m.payload ++ varintField 10 m.taskId ++ varintField 11 m.msgId ++ varintField 12 m.correlId ++
    lenField 13 (utf8 m.route) ++ varintField 20 m.timestampNs

end ControlEnvelopeV2

abbrev MessageType := Int32

namespace MessageType

def configureFe : MessageType := 2
def dumpSpybufferChunk : MessageType := 100

end MessageType

/-- The legacy envelope. -/
structure ControlEnvelope where
  type : MessageType := 0
  payload : Bytes := []
deriving DecidableEq

namespace ControlEnvelope

def merge (m : ControlEnvelope) (f : Field) : Option ControlEnvelope :=
  match f.number, f.value with
  | 1, .varint v => some { m with type := readEnum v }
  | 2, .len bs => some { m with payload := bs }
  | _, _ => some m

def parseFromString (bs : Bytes) : Option ControlEnvelope := (parse bs).bind (·.foldlM merge {})

def fields (m : ControlEnvelope) : List Field := varintField 1 (enumValue m.type) ++ lenField 2 m.payload

end ControlEnvelope

structure DumpSpyBuffersChunkRequest where
  channelList : List UInt32 := []
  numberOfSamples : UInt32 := 0
  numberOfWaveforms : UInt32 := 0
  softwareTrigger : Bool := false
  requestID : String := ""
  chunkSize : UInt32 := 0
deriving DecidableEq

namespace DumpSpyBuffersChunkRequest

def merge (m : DumpSpyBuffersChunkRequest) (f : Field) : Option DumpSpyBuffersChunkRequest :=
  match f.number, f.value with
  | 1, .varint v => some { m with channelList := m.channelList ++ [v.toUInt32] }
  | 1, .len bs => (readPacked bs.length bs).map fun vs => { m with channelList := m.channelList ++ vs.map .ofNat }
  | 2, .varint v => some { m with numberOfSamples := v.toUInt32 }
  | 3, .varint v => some { m with numberOfWaveforms := v.toUInt32 }
  | 4, .varint v => some { m with softwareTrigger := v ≠ 0 }
  | 5, .len bs => (readUtf8 bs).map fun requestID => { m with requestID }
  | 6, .varint v => some { m with chunkSize := v.toUInt32 }
  | _, _ => some m

def parseFromString (bs : Bytes) : Option DumpSpyBuffersChunkRequest := (parse bs).bind (·.foldlM merge {})

end DumpSpyBuffersChunkRequest

structure DumpSpyBuffersChunkResponse where
  success : Bool := false
  requestID : String := ""
  chunkseq : UInt32 := 0
  isFinal : Bool := false
  waveformStart : UInt32 := 0
  waveformCount : UInt32 := 0
  requestTotalWaveforms : UInt32 := 0
  numberOfSamples : UInt32 := 0
  channelList : List UInt32 := []
  data : List UInt32 := []
  message : String := ""
deriving DecidableEq

namespace DumpSpyBuffersChunkResponse

def merge (m : DumpSpyBuffersChunkResponse) (f : Field) : Option DumpSpyBuffersChunkResponse :=
  match f.number, f.value with
  | 1, .varint v => some { m with success := v ≠ 0 }
  | 2, .len bs => (readUtf8 bs).map fun requestID => { m with requestID }
  | 3, .varint v => some { m with chunkseq := v.toUInt32 }
  | 4, .varint v => some { m with isFinal := v ≠ 0 }
  | 5, .varint v => some { m with waveformStart := v.toUInt32 }
  | 6, .varint v => some { m with waveformCount := v.toUInt32 }
  | 7, .varint v => some { m with requestTotalWaveforms := v.toUInt32 }
  | 8, .varint v => some { m with numberOfSamples := v.toUInt32 }
  | 9, .varint v => some { m with channelList := m.channelList ++ [v.toUInt32] }
  | 9, .len bs => (readPacked bs.length bs).map fun vs => { m with channelList := m.channelList ++ vs.map .ofNat }
  | 10, .varint v => some { m with data := m.data ++ [v.toUInt32] }
  | 10, .len bs => (readPacked bs.length bs).map fun vs => { m with data := m.data ++ vs.map .ofNat }
  | 11, .len bs => (readUtf8 bs).map fun message => { m with message }
  | _, _ => some m

def parseFromString (bs : Bytes) : Option DumpSpyBuffersChunkResponse := (parse bs).bind (·.foldlM merge {})

def fields (m : DumpSpyBuffersChunkResponse) : List Field :=
  varintField 1 m.success.toUInt64 ++ lenField 2 (utf8 m.requestID) ++ varintField 3 m.chunkseq.toUInt64 ++
    varintField 4 m.isFinal.toUInt64 ++ varintField 5 m.waveformStart.toUInt64 ++
    varintField 6 m.waveformCount.toUInt64 ++ varintField 7 m.requestTotalWaveforms.toUInt64 ++
    varintField 8 m.numberOfSamples.toUInt64 ++ lenField 9 (writePacked (m.channelList.map UInt32.toNat)) ++
    lenField 10 (writePacked (m.data.map UInt32.toNat)) ++ lenField 11 (utf8 m.message)

end DumpSpyBuffersChunkResponse
end DaphneZmq
