import DaphneZmq.DevMemObject

/-! # Trigger counters (server_controller/handlers.cpp)

`read_counters_raw` maps the registers up to the last listed channel and reads seven words for each channel. The mapping
is computed in 64 bits, the addresses in 32. The registers move while they are read: `word n` has their values at the
time of the `n`-th word that is read. -/

namespace DaphneZmq

namespace TriggerCounters

def physBase : UInt32 := 0xA0010000
def stride : UInt32 := 0x20
def numChannels : UInt32 := 40
def offThr : UInt32 := 0x00
def offRecLo : UInt32 := 0x04
def offRecHi : UInt32 := 0x08
def offBsyLo : UInt32 := 0x0C
def offBsyHi : UInt32 := 0x10
def offFulLo : UInt32 := 0x14
def offFulHi : UInt32 := 0x18
def mask28Bit : UInt32 := 0x0FFFFFFF

structure TriggerChannelSnapshot where
  channel : UInt32
  threshold : UInt32
  recordCount : UInt64
  busyCount : UInt64
  fullCount : UInt64
deriving DecidableEq

/-- A word that is read: its address, and the offset from the start of the mapping. -/
structure Rd32 where
  phys : UInt32
  off : UInt64
deriving DecidableEq

section Reads
variable (word : Nat → UInt32 → UInt32) (mapBase : UInt64)

def rd32 (phys : UInt32) : StateM (List Rd32) UInt32 := fun past =>
  (word past.length phys, past ++ [⟨phys, phys.toUInt64 - mapBase⟩])

def rd64 (lo hi : UInt32) : StateM (List Rd32) UInt64 := do
  let l ← rd32 word mapBase lo
  let h ← rd32 word mapBase hi
  return (h.toUInt64 <<< 32) ||| l.toUInt64

/-- The snapshot of a channel whose registers start at `b`. -/
def readChannel (ch b : UInt32) : StateM (List Rd32) TriggerChannelSnapshot := do
  let threshold ← rd32 word mapBase (b + offThr)
  let recordCount ← rd64 word mapBase (b + offRecLo) (b + offRecHi)
  let busyCount ← rd64 word mapBase (b + offBsyLo) (b + offBsyHi)
  let fullCount ← rd64 word mapBase (b + offFulLo) (b + offFulHi)
  return { channel := ch, threshold := threshold &&& mask28Bit, recordCount, busyCount, fullCount }

/-- The loop over the channels. -/
def readChannels (base : UInt32) : List UInt32 → StateM (List Rd32) (List TriggerChannelSnapshot)
  | [] => return []
  | ch :: chs => do
    if ch ≥ numChannels then readChannels base chs
    else
      let s ← readChannel word mapBase ch (base + ch * stride)
      let snapshots ← readChannels base chs
      return s :: snapshots

end Reads

/-- The largest listed channel that there is, or 0. -/
def maxCh (chs : List UInt32) : UInt32 := chs.foldl (fun m c => if c < numChannels && c > m then c else m) 0

/-- `map_base` and `map_len`. -/
def mapping (host : Host) (base : UInt32) (chs : List UInt32) : Region :=
  let pg := host.pageSize
  let mapBase := base.toUInt64 &&& ~~~(pg - 1)
  let span := maxCh chs * stride + offFulHi + 4
  let tail := (base.toUInt64 - mapBase) + span.toUInt64
  { phys := mapBase, length := (tail + (pg - 1)) &&& ~~~(pg - 1) }

/-- What is read once the registers are mapped: the snapshots, and the words that were read for them. -/
def readMapped (host : Host) (word : Nat → UInt32 → UInt32) (base : UInt32) (chs : List UInt32) :
    List TriggerChannelSnapshot × List Rd32 :=
  readChannels word (mapping host base chs).phys base chs []

/-- `read_counters_raw`, by whether `/dev/mem` can be opened and mapped. -/
def readCountersRaw (host : Host) (opens maps : Bool) (word : Nat → UInt32 → UInt32) (base : UInt32) (chs : List UInt32) :
    Except String (List TriggerChannelSnapshot) :=
  if !opens then .error "open(/dev/mem) failed"
  else if !maps then .error "mmap(/dev/mem) failed"
  else .ok (readMapped host word base chs).1

structure ReadTriggerCountersRequest where
  channels : List UInt32 := []
  baseAddr : UInt32 := 0

structure ReadTriggerCountersResponse where
  success : Bool
  message : String
  snapshots : List TriggerChannelSnapshot := []

/-- The channels that the handler reads. -/
def ReadTriggerCountersRequest.chs (req : ReadTriggerCountersRequest) : List UInt32 :=
  if req.channels.length = 0 then (List.range 40).map .ofNat else req.channels

/-- The base address that the handler uses. -/
def ReadTriggerCountersRequest.base (req : ReadTriggerCountersRequest) : UInt32 :=
  if req.baseAddr ≠ 0 then req.baseAddr else physBase

/-- The handler of MT2_READ_TRIGGER_COUNTERS_REQ; no request if the payload cannot be parsed. -/
def readTriggerCounters (host : Host) (opens maps : Bool) (word : Nat → UInt32 → UInt32) :
    Option ReadTriggerCountersRequest → ReadTriggerCountersResponse
  | none => { success := false, message := "Bad ReadTriggerCountersRequest payload" }
  | some req =>
    match readCountersRaw host opens maps word req.base req.chs with
    | .error err => { success := false, message := "Counters read error: " ++ err }
    | .ok snapshots => { success := true, message := "OK", snapshots }

end TriggerCounters
end DaphneZmq
