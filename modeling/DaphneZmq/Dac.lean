import DaphneZmq.Registers

/-! # Trim and offset DACs (Dac.cpp, Spi.cpp)

Each AFE has a word for its trims and one for its offsets, and each word drives two DAC chips of four channels.
A write sends both halves. The half of the channel that is set is new, and the other one is taken from the values
that the driver keeps, because the registers cannot be read back. -/

namespace DaphneZmq
open Lib.Device

namespace Spi
variable {D : Type} (env : Env Nat UInt32)

def afeGlobalControlBusy : BitField := { addr := 0x0, low := 2, high := 4 }

def isBusy : Prog Nat UInt32 D Bool := do return (← Reg.readBits env afeGlobalControlBusy) != 0

/-- The polls of `waitNotBusy`, the first one not counted. -/
def pollNotBusy : Nat → Prog Nat UInt32 D Unit
  | 0 => do
    let busy ← isBusy env
    if busy then throw "Timeout while waiting for SPI transaction" else return ()
  | polls + 1 => do
    let busy ← isBusy env
    if busy then pollNotBusy polls else return ()

/-- The text of the exception that ends a wait. -/
def timeout : String := "Timeout while waiting for SPI transaction"

def waitNotBusy : Prog Nat UInt32 D Unit := fun s => pollNotBusy env (env.polls s.accesses) s

def setData (f : BitField) (value : UInt32) : Prog Nat UInt32 D UInt32 := do
  waitNotBusy env
  let data ← Reg.writeBits env f value
  waitNotBusy env
  return data

def getData (f : BitField) : Prog Nat UInt32 D UInt32 := do
  waitNotBusy env
  let data ← Reg.readBits env f
  waitNotBusy env
  return data

end Spi

/-- The hardware around the SPI registers of the AFEs. -/
structure SpiBench where
  faults : Nat → Option String
  /-- The words that the successive reads of `afeGlobalControl` give. -/
  control : Nat → UInt32
  polls : Nat → Nat

def SpiBench.env (b : SpiBench) : Env Nat UInt32 where
  faults := b.faults
  driven a := if a = Spi.afeGlobalControlBusy.addr then some fun _ => b.control else none
  polls := b.polls

namespace Dac

/-- The two words of an AFE. -/
inductive Kind where
  | trim
  | offset
  deriving DecidableEq

/-- The chip that a half of a word goes to. -/
inductive Position where
  | L
  | H
  deriving DecidableEq

/-- `CHANNEL_MAPPING`: the chip of a channel and the channel of that chip. -/
def channelMapping : List (Nat × Position × Nat) :=
  [(0, .L, 0), (1, .L, 1), (2, .L, 2), (3, .L, 3), (4, .H, 0), (5, .H, 1), (6, .H, 2), (7, .H, 3)]

/-- `CHANNEL_MAPPING[ch]`, with no position for a channel that is not there. -/
def mapped (ch : Nat) : Option Position × Nat :=
  match channelMapping.lookup ch with
  | some (pos, chipCh) => (some pos, chipCh)
  | none => (none, 0)

/-- `findCompanionChannelValue`; the loop ends at the last channel if it finds none. -/
def findCompanionChannelValue (ch : Nat) : Nat :=
  match channelMapping.find? fun (_, tmpPos, tmpCh) => some tmpPos ≠ (mapped ch).1 && tmpCh = (mapped ch).2 with
  | some (compCh, _) => compCh
  | none => 7

/-- The name of the register of an AFE. -/
def registerName (kind : Kind) (afe : Nat) : String :=
  match kind with
  | .trim => "afeDacTrim_" ++ toString afe
  | .offset => "afeDacOffset_" ++ toString afe

/-- DATA of the register of an AFE. -/
def registerData (kind : Kind) (afe : Nat) : BitField :=
  match kind with
  | .trim => { addr := 0x00000008 + afe * 0xC, low := 0, high := 31 }
  | .offset => { addr := 0x0000000C + afe * 0xC, low := 0, high := 31 }

/-- `channelValues`: the last half of each channel. Its keys, five AFEs and eight channels, are the ones of the
    constructor. -/
abbrev ChannelValues := Kind → Nat → Nat → UInt32

def ChannelValues.set (values : ChannelValues) (kind : Kind) (afe ch : Nat) (data : UInt32) : ChannelValues :=
  fun k a c => if k = kind ∧ a = afe ∧ c = ch then data else values k a c

/-- The half of a word for a channel. -/
def channelData (ch : Nat) (value : UInt32) (gain buffer : Bool) : UInt32 :=
  ((UInt32.ofNat (mapped ch).2 &&& 0x3) <<< 14) ||| (gain.toUInt32 <<< 13) ||| (buffer.toUInt32 <<< 12) ||| (value &&& 0xFFF)

variable (env : Env Nat UInt32)

/-- `updateCurrentRegister`. The text of the last error goes on with the name of the function. -/
def updateCurrentRegister (kind : Kind) (afe ch : Nat) (value : UInt32) (gain buffer : Bool) :
    Prog Nat UInt32 ChannelValues UInt32 := do
  let compCh := findCompanionChannelValue ch
  if ¬afe < 5 then
    throw ("Register " ++ registerName kind afe ++ " not found in the DAC register values dictionary.")
  else if ¬ch < 8 then
    throw ("Channel " ++ toString ch ++ " not found in the DAC Channel values dictionary.")
  else if ¬compCh < 8 then
    throw ("Companion channel " ++ toString compCh ++ " of channel" ++ toString ch ++
      " not found in the DAC Channel values dictionary.")
  else
    let values ← getDriver
    let compData := values kind afe compCh &&& 0xFFFF
    let chData := channelData ch value gain buffer
    modifyDriver fun values => values.set kind afe ch chData
    match (mapped compCh).1 with
    | some .L => Spi.setData env (registerData kind afe) (((chData &&& 0xFFFF) <<< 16) ||| (compData &&& 0xFFFF))
    | some .H => Spi.setData env (registerData kind afe) (((compData &&& 0xFFFF) <<< 16) ||| (chData &&& 0xFFFF))
    | none => throw "Runtime error: undefined data position. "

def setDacTrim (afe ch : Nat) (value : UInt32) (gain buffer : Bool) : Prog Nat UInt32 ChannelValues UInt32 :=
  updateCurrentRegister env .trim afe ch value gain buffer

def setDacOffset (afe ch : Nat) (value : UInt32) (gain buffer : Bool) : Prog Nat UInt32 ChannelValues UInt32 :=
  updateCurrentRegister env .offset afe ch value gain buffer

/-- `setDacTrimOffset`. The halves that it packs are not the ones that it sends. -/
def setDacTrimOffset (what : Kind) (afe channelH : Nat) (valueH : UInt32) (channelL : Nat) (valueL : UInt32) (gain buffer : Bool) :
    Prog Nat UInt32 ChannelValues UInt32 :=
  let _valueH_ := ((UInt32.ofNat channelH &&& 0x3) <<< 14) ||| (gain.toUInt32 <<< 13) ||| (buffer.toUInt32 <<< 12) |||
    (valueH &&& 0xFFF)
  let _valueL_ := ((UInt32.ofNat channelL &&& 0x3) <<< 14) ||| (gain.toUInt32 <<< 13) ||| (buffer.toUInt32 <<< 12) |||
    (valueL &&& 0xFFF)
  let value := ((valueH &&& 0xFFFF) <<< 16) ||| (valueL &&& 0xFFFF)
  Spi.setData env (registerData what afe) value

/-! ### The chips -/

/-- What an output of a chip holds. -/
structure Setting where
  value : UInt32
  gain : Bool
  buffer : Bool
  deriving DecidableEq

/-- What the outputs of the chips hold: a pair of chips for each word of an AFE. -/
abbrev Chips := Kind → Nat → Position → Nat → Setting

/-- A half of a word: bits 15:14 address the channel, bit 13 is the gain, bit 12 the buffer. -/
def settingOf (half : UInt32) : Setting := ⟨half &&& 0xFFF, half &&& 0x2000 ≠ 0, half &&& 0x1000 ≠ 0⟩

def addressOf (half : UInt32) : Nat := (half >>> 14).toNat % 4

/-- The half of a word that goes to a chip. -/
def halfOf (word : UInt32) (pos : Position) : UInt32 :=
  match pos with
  | .H => word >>> 16
  | .L => word &&& 0xFFFF

/-- A word is written for an AFE. -/
def Chips.load (chips : Chips) (kind : Kind) (afe : Nat) (word : UInt32) : Chips := fun k a pos c =>
  if k = kind ∧ a = afe ∧ c = addressOf (halfOf word pos) then settingOf (halfOf word pos) else chips k a pos c

/-- The output of a channel. -/
def Chips.output (chips : Chips) (kind : Kind) (afe ch : Nat) : Option Setting :=
  (mapped ch).1.map fun pos => chips kind afe pos (mapped ch).2

/-- The word that is at an address. -/
def registerAt (addr : Nat) : Option (Kind × Nat) :=
  ([Kind.trim, Kind.offset].flatMap fun kind => (List.range 5).map fun afe => (kind, afe)).find? fun (kind, afe) =>
    (registerData kind afe).addr = addr

/-- The chips after the writes of a log. -/
def Chips.after (chips : Chips) (writes : List (Write Nat UInt32)) : Chips :=
  writes.foldl (fun chips w => match registerAt w.address with
    | some (kind, afe) => chips.load kind afe w.word
    | none => chips) chips

/-! ### Sequences of calls -/

/-- A call of `setDacTrim` or `setDacOffset`. -/
structure Call where
  kind : Kind
  afe : Nat
  ch : Nat
  setting : Setting
  afe_lt : afe < 5 := by decide
  ch_lt : ch < 8 := by decide
  value_lt : setting.value < 0x1000 := by decide

abbrev DriverState := State Nat UInt32 ChannelValues

def Call.prog (c : Call) : Prog Nat UInt32 ChannelValues UInt32 :=
  match c.kind with
  | .trim => setDacTrim env c.afe c.ch c.setting.value c.setting.gain c.setting.buffer
  | .offset => setDacOffset env c.afe c.ch c.setting.value c.setting.gain c.setting.buffer

/-- The state after a call, whether it returns or throws. -/
def Call.run (c : Call) (s : DriverState) : DriverState :=
  match c.prog env s with
  | .ok _ t => t
  | .error _ t => t

/-- The state that the constructor leaves, with the registers as they are then. -/
def construct (cells : Nat → UInt32) (reads : Nat → Nat) (accesses : Nat) : DriverState where
  cells
  reads
  accesses
  writes := []
  driver _ _ _ := 0

/-- The state after a sequence of calls. -/
def runCalls (calls : List Call) (s : DriverState) : DriverState := calls.foldl (fun s c => c.run env s) s

/-- The setting of the last call that named a channel. -/
def lastNamed (calls : List Call) (kind : Kind) (afe ch : Nat) : Option Setting :=
  (calls.reverse.find? fun c => c.kind = kind ∧ c.afe = afe ∧ c.ch = ch).map (·.setting)

end Dac
end DaphneZmq
