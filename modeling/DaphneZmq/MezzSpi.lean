import DaphneZmq.Lib.Lines

/-! # The bit-banged SPI master of the mezzanines (spi-daphne-mezz-gpio.c)

`daphneTransferOne` as a program over the lines, with the contents of the receive buffer as its result. -/

namespace DaphneZmq.MezzSpi
open Lib.Lines

inductive Line
  | sck
  | mosi
  | cs
  deriving DecidableEq

inductive Error
  | eopnotsupp
  deriving DecidableEq

/-- `struct daphne_mezz_spi`, with whether it has the optional lines. -/
structure DaphneMezzSpi where
  mosi : Bool
  miso : Bool
  sclk_high_delay_ns : UInt32
  sclk_low_delay_ns : UInt32
  mosi_setup_delay_ns : UInt32
  cs_active_high : Bool

/-- `struct spi_transfer`, with the contents of its buffers. -/
structure SpiTransfer where
  tx_buf : Option (Nat → UInt8)
  rx_buf : Option (Nat → UInt8)
  len : UInt32
  bits_per_word : UInt8

def SPI_CPHA : UInt32 := 0x01
def SPI_CPOL : UInt32 := 0x02
def SPI_MODE_0 : UInt32 := 0

def daphneDelayNs (nsecs : UInt32) : Prog Line Unit := do
  if nsecs ≠ 0 then
    if nsecs ≥ 1000 then
      -- `DIV_ROUND_UP`, whose sum may overflow
      pause (((nsecs + 1000 - 1) / 1000).toNat * 1000)
    else
      pause nsecs.toNat

variable (d : DaphneMezzSpi) (miso : List (Event Line) → Bool)

def daphneSetCs (active : Bool) : Prog Line Unit :=
  if d.cs_active_high then drive .cs active else drive .cs (!active)

/-- MOSI is driven if there is one. -/
def driveMosi (level : Bool) : Prog Line Unit :=
  if d.mosi then drive .mosi level else pure ()

/-- MISO is sampled if there is one. -/
def sampleMiso : Prog Line Bool :=
  if d.miso then sample miso else pure false

def daphneIdleLines : Prog Line Unit := do
  drive .sck false
  driveMosi d false
  daphneSetCs d false

/-- A round of the loop over the bits, for `bit`, which takes a bit into `rxByte`. -/
def transferBit (txByte rxByte : UInt8) (bit : Nat) : Prog Line UInt8 := do
  driveMosi d (txByte.toBitVec.getLsbD bit)
  daphneDelayNs d.mosi_setup_delay_ns
  daphneDelayNs d.sclk_low_delay_ns
  drive .sck true
  daphneDelayNs d.sclk_high_delay_ns
  let level ← sampleMiso d miso
  drive .sck false
  return if level then rxByte ||| ((1 : UInt8) <<< UInt8.ofNat bit) else rxByte

/-- The loop over the bits, from bit 7 down to bit 0. -/
def transferByte (txByte : UInt8) : Prog Line UInt8 :=
  (List.range 8).foldlM (fun rxByte n => transferBit d miso txByte rxByte (7 - n)) 0

/-- `tx_byte` of a round. -/
def SpiTransfer.txByte (xfer : SpiTransfer) (byteIndex : Nat) : UInt8 :=
  match xfer.tx_buf with
  | some tx => tx byteIndex
  | none => 0x00

def daphneTransferOne (mode : UInt32) (xfer : SpiTransfer) : Prog Line (Except Error (Option (Nat → UInt8))) := do
  if mode &&& (SPI_CPOL ||| SPI_CPHA) ≠ SPI_MODE_0 then
    return .error .eopnotsupp
  else if xfer.bits_per_word ≠ 0 ∧ xfer.bits_per_word ≠ 8 then
    return .error .eopnotsupp
  else
    daphneSetCs d true
    let rx ← (List.range xfer.len.toNat).foldlM (fun rx byteIndex => do
      let rxByte ← transferByte d miso (xfer.txByte byteIndex)
      return rx.map fun rx => Function.update rx byteIndex rxByte) xfer.rx_buf
    daphneSetCs d false
    daphneIdleLines d
    return .ok rx

/-! ### What it is for -/

/-- The slave's side of the lines. -/
def bus : Bus Line where
  clock := .sck
  data := .mosi
  select := .cs
  active := d.cs_active_high

def levels (sck mosi cs : Bool) : Line → Bool
  | .sck => sck
  | .mosi => mosi
  | .cs => cs

def idle : Line → Bool := levels false false (!d.cs_active_high)

/-- The exchange of a bit: MISO is sampled in the high phase. Without MOSI its level is the idle one. -/
def bitTicks (out level : Bool) : List Tick :=
  (if d.mosi then [.data out] else []) ++ [.rise (d.mosi && out)] ++
    (if d.miso then [.sample level (d.mosi && out)] else []) ++ [.fall]

/-- The exchange of a byte, the highest bit first. -/
def byteTicks (out into : UInt8) : List Tick :=
  (List.range 8).flatMap fun n => bitTicks d (out.toBitVec.getLsbD (7 - n)) (into.toBitVec.getLsbD (7 - n))

/-- The bytes of a transfer that have come in as `rxBytes`. -/
def transferTicks (d : DaphneMezzSpi) (xfer : SpiTransfer) (rxBytes : List UInt8) : List Tick :=
  rxBytes.zipIdx.flatMap fun (rxByte, i) => byteTicks d (xfer.txByte i) rxByte

/-- The contents of the receive buffer after `rxBytes` have been stored. -/
def stored (rxBytes : List UInt8) (rx : Nat → UInt8) : Nat → UInt8 := fun i => rxBytes[i]?.getD (rx i)

/-- The modes and the word sizes that there is a transfer for. -/
def Supported (mode : UInt32) (xfer : SpiTransfer) : Prop :=
  mode &&& 3 = 0 ∧ (xfer.bits_per_word = 0 ∨ xfer.bits_per_word = 8)

instance (mode : UInt32) (xfer : SpiTransfer) : Decidable (Supported mode xfer) :=
  inferInstanceAs (Decidable (_ ∧ _))

end DaphneZmq.MezzSpi
