import DaphneZmq.Lib.Crc

/-! # The register accesses of the current monitor's ADC (DaphneSpiDrivers.cpp)

The check value from a table of 256 entries, and the frames of a register read and a register write. -/

namespace DaphneZmq.Ads1260

def POLY : UInt8 := 0x07

/-- A round of the inner loop of `build_crc_table`. -/
def crcRound (crc : UInt8) : UInt8 :=
  if crc &&& 0x80 ≠ 0 then (crc <<< 1) ^^^ POLY else crc <<< 1

def buildCrcTable : Vector UInt8 256 := Vector.ofFn fun i => Nat.repeat crcRound 8 (UInt8.ofNat i)

def ads1260Crc8Lut (data : List UInt8) : UInt8 :=
  data.foldl (fun crc byte => buildCrcTable.get (crc ^^^ byte).toFin) 0xFF

def RREG : UInt8 := 0x20
def WREG : UInt8 := 0x40

/-- `readRegister`, over the `transfer` of its six bytes. -/
def readRegister (transfer : Vector UInt8 6 → Except String (Vector UInt8 6)) (registerAddress : UInt8) :
    Except String UInt8 := do
  let opCode := RREG ||| registerAddress
  let txCrc := ads1260Crc8Lut [opCode, 0x00]
  let rxData ← transfer #v[opCode, 0x00, txCrc, 0x00, 0x00, 0x00]
  if ads1260Crc8Lut [rxData[1], rxData[2]] ≠ rxData[3] then
    throw "ADS1260 read: command CRC mismatch."
  if ads1260Crc8Lut [rxData[4]] ≠ rxData[5] then
    throw "ADS1260 read: data CRC mismatch."
  if rxData[1] ≠ opCode then
    throw "ADS1260 read: The rx and tx opCodes do not match."
  return rxData[4]

/-- `writeRegister`, over the `transfer` of its four bytes. -/
def writeRegister (transfer : Vector UInt8 4 → Except String (Vector UInt8 4)) (registerAddress registerValue : UInt8) :
    Except String UInt8 := do
  let opCode := WREG ||| registerAddress
  let txCrc := ads1260Crc8Lut [opCode, registerValue]
  let rxData ← transfer #v[opCode, registerValue, txCrc, 0x00]
  if ads1260Crc8Lut [rxData[1], rxData[2]] ≠ rxData[3] then
    throw "ADS1260 write: CRC mismatch."
  if rxData[1] ≠ opCode then
    throw "ADS1260 write: The rx and tx opCodes do not match."
  if rxData[2] ≠ registerValue then
    throw "ADS1260 write: The rx and tx values do not match."
  return rxData[2]

/-! ### The bits on the wire -/

/-- The bits of some bytes, the highest of each first. -/
def bits (data : List UInt8) : List Bool := data.flatMap fun byte => Lib.Crc.bitsOf byte.toBitVec

/-- The CRC-8 with polynomial 0x07 and initial value 0xFF, bit by bit. -/
def crc8 (data : List UInt8) : UInt8 := ⟨Lib.Crc.crc 0x07#8 0xFF#8 (bits data)⟩

end DaphneZmq.Ads1260
