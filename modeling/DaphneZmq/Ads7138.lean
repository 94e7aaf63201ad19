import DaphneZmq.LedSnrScan

/-! # Frames of the ADS7138 (DaphneI2CDrivers.cpp, I2CDevice.cpp)

The driver asks the device for two bytes for each sample of each enabled channel. The number of bytes is a `size_t` where
it is computed and a `uint8_t` where the frame is read. -/

namespace DaphneZmq.Ads7138
open Lib.Checked LedSnrScan

/-- `I2CDevice`, as a `read` finds it. -/
structure I2CDevice where
  devicePath : String
  deviceAddress : UInt8
  /-- Whether a `read` of so many bytes returns that many. -/
  gives : Nat → Bool
  /-- The bytes that the device delivers, in order. -/
  stream : Nat → UInt8

/-- `I2CDevice::readFrame`: the vector has the size of the frame afterwards. -/
def readFrame (device : I2CDevice) (numBytes : UInt8) : Prog (List UInt8) :=
  if device.gives numBytes.toNat then .ok ((List.range numBytes.toNat).map device.stream)
  else .error (.thrown s!"Failed to read bytes from I2C device at {device.devicePath} with address {device.deviceAddress}")

structure ADS7138_Driver where
  ADC_ADS7138 : I2CDevice
  enabled_channels : List Bool
  /-- `setEnabledChannels` takes eight elements. -/
  eight : enabled_channels.length = 8 := by decide

variable {K : Type} [Double K]
open Double (ofInt)

/-- `(static_cast<double>(sample) * Vref) / (1u << N)`. -/
def voltage (sample : UInt16) : K := ofInt sample.toNat * 3.3 / ofInt (2 ^ 16)

/-- The sample of two bytes, the high one first. -/
def sampleOf (hi lo : UInt8) : UInt16 := (hi.toUInt16 <<< 8) ||| lo.toUInt16

variable (driver : ADS7138_Driver)

def numEnabledChannels : Nat := driver.enabled_channels.count true

/-- `numSamples * numEnabledChannels * 2`. -/
def bytesToRead (numSamples : UInt8) : Nat := numSamples.toNat * numEnabledChannels driver * 2

/-- One round of the loop over the raw bytes. -/
def parseAt (rawData : List UInt8) (i : Nat) : Prog K := do
  let hi ← read rawData i
  let lo ← read rawData (i + 1 : Nat)
  return voltage (sampleOf hi lo)

def readData (numSamples : UInt8) : Prog (List K) :=
  if numSamples = 0 then .error (.thrown "Number of samples must be greater than zero.")
  else if numEnabledChannels driver = 0 then
    .error (.thrown "No channels are enabled. Please enable at least one channel before reading data.")
  else do
    let rawData ← readFrame driver.ADC_ADS7138 (UInt8.ofNat (bytesToRead driver numSamples))
    -- `i` goes up by two
    ((List.range (numSamples.toNat * numEnabledChannels driver)).map (2 * ·)).mapM (parseAt rawData)

end DaphneZmq.Ads7138
