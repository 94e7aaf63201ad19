import DaphneZmq.Lib.Lines

/-! # The bit-banged ADC1283 (adc1283-gpio.c)

`adc1283ReadChannel` as a program over the lines of the converter. The level of `cs` is the logical one, so that it is active
when it is high. -/

namespace DaphneZmq.Adc1283
open Lib.Lines

inductive Line
  | sclk
  | din
  | cs
  deriving DecidableEq

inductive Error
  | einval
  | eio
  deriving DecidableEq

def ADC1283_NUM_CHANNELS : UInt32 := 8
def ADC1283_NUM_CLOCKS : Nat := 32
def ADC1283_CMD_BITS : Nat := 8
def ADC1283_RESULT_MASK : UInt32 := 0x0fff

structure Adc1283Gpio where
  cs_setup_delay_ns : UInt32
  cs_hold_delay_ns : UInt32
  dout_sample_delay_ns : UInt32
  sclk_low_delay_ns : UInt32
  sclk_high_delay_ns : UInt32
  preclock_cycles : UInt32
  din_hold_delay_ns : UInt32

/-! ### Delays -/

def udelay (usecs : UInt32) : Prog Line Unit := pause (usecs.toNat * 1000)

def ndelay (nsecs : UInt32) : Prog Line Unit := pause nsecs.toNat

def adc1283DelayNs (nsecs : UInt32) : Prog Line Unit := do
  if nsecs ≠ 0 then
    let usecs := nsecs / 1000
    let remNs := nsecs % 1000
    if usecs ≠ 0 then udelay usecs
    if remNs ≠ 0 then ndelay remNs

/-- It returns what it leaves in `remaining_nsecs`. -/
def adc1283DelayClamped (nsecs maxNsecs : UInt32) : Prog Line UInt32 := do
  if nsecs ≥ maxNsecs then
    adc1283DelayNs maxNsecs
    return 0
  else
    adc1283DelayNs nsecs
    return maxNsecs - nsecs

/-! ### The bus -/

def adc1283IdleBus : Prog Line Unit := do
  drive .cs false
  drive .sclk true
  drive .din false

def adc1283DinBit (cmd : UInt8) (bit : Nat) : Bool :=
  if bit < ADC1283_CMD_BITS then cmd.toBitVec.getLsbD (7 - bit) else false

variable (adc : Adc1283Gpio) (dout : List (Event Line) → Bool)

/-- A cycle with CS inactive. -/
def preclock : Prog Line Unit := do
  adc1283DelayNs adc.sclk_high_delay_ns
  drive .sclk false
  let lowTailNs ← adc1283DelayClamped adc.dout_sample_delay_ns adc.sclk_low_delay_ns
  let _dummy ← sample dout
  adc1283DelayNs lowTailNs
  drive .sclk true

def adc1283PreclockGpioPath : Prog Line Unit := do
  drive .cs false
  drive .din false
  drive .sclk true
  (List.range adc.preclock_cycles.toNat).foldlM (fun _ _ => preclock adc dout) ()
  drive .sclk true
  drive .din false

/-- Clock `i` of the frame, which takes a bit into `raw`. -/
def clock (cmd : UInt8) (raw : UInt32) (i : Nat) : Prog Line UInt32 := do
  drive .sclk false
  let lowTailNs ← adc1283DelayClamped adc.dout_sample_delay_ns adc.sclk_low_delay_ns
  let doutBit ← sample dout
  let raw := (raw <<< 1) ||| (if doutBit then 1 else 0)
  adc1283DelayNs lowTailNs
  drive .sclk true
  if i = ADC1283_NUM_CLOCKS - 1 then
    return raw
  else
    let highTailNs ← adc1283DelayClamped adc.din_hold_delay_ns adc.sclk_high_delay_ns
    drive .din (adc1283DinBit cmd (i + 1))
    adc1283DelayNs highTailNs
    return raw

/-- What the captured bits mean. -/
def decode (raw : UInt32) : Except Error UInt32 :=
  let word := raw &&& 0xffff
  let lead := word >>> 12
  if lead ≠ 0 then .error .eio else .ok (word &&& ADC1283_RESULT_MASK)

def adc1283ReadChannel (channel : UInt32) : Prog Line (Except Error UInt32) := do
  if channel ≥ ADC1283_NUM_CHANNELS then
    return .error .einval
  else
    let cmd := ((channel &&& 0x7) <<< 3).toUInt8
    drive .cs false
    drive .sclk true
    drive .din false
    adc1283PreclockGpioPath adc dout
    drive .din (adc1283DinBit cmd 0)
    adc1283DelayNs adc.sclk_high_delay_ns
    drive .cs true
    adc1283DelayNs adc.cs_setup_delay_ns
    let raw ← (List.range ADC1283_NUM_CLOCKS).foldlM (clock adc dout cmd) 0
    adc1283DelayNs adc.cs_hold_delay_ns
    drive .cs false
    drive .din false
    drive .sclk true
    return decode raw

/-! ### What it is for -/

/-- The converter's side of the lines. -/
def bus : Bus Line where
  clock := .sclk
  data := .din
  select := .cs
  active := true

def levels (sclk din cs : Bool) : Line → Bool
  | .sclk => sclk
  | .din => din
  | .cs => cs

def idle : Line → Bool := levels true false false

/-- The bit of the control byte at a rising edge of the frame. -/
def controlBit (channel i : Nat) : Bool := if i < 8 then (channel <<< 3).testBit (7 - i) else false

/-- Cycle `i` of a frame, from time `t` on: DOUT is sampled in its low phase and DIN changes in its high phase. -/
def cycle (channel i : Nat) (level : Bool) (t : Nat) : List (Nat × Tick) :=
  let low := adc.sclk_low_delay_ns.toNat
  let high := adc.sclk_high_delay_ns.toNat
  [(t, .fall), (t + min adc.dout_sample_delay_ns.toNat low, .sample level (controlBit channel i)),
    (t + low, .rise (controlBit channel i))] ++
    if i = 31 then [] else [(t + low + min adc.din_hold_delay_ns.toNat high, .data (controlBit channel (i + 1)))]

/-- The ticks of the cycles with these samples, from `start` on. -/
def frame (channel start : Nat) (samples : List Bool) : List (Nat × Tick) :=
  samples.zipIdx.flatMap fun (level, i) =>
    cycle adc channel i level (start + i * (adc.sclk_low_delay_ns.toNat + adc.sclk_high_delay_ns.toNat))

/-- The conversion of a word of 32 bits. -/
def conversion (raw : Nat) : Except Error UInt32 :=
  if raw % 2 ^ 16 / 2 ^ 12 = 0 then .ok (UInt32.ofNat (raw % 2 ^ 12)) else .error .eio

end DaphneZmq.Adc1283
