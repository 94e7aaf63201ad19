import DaphneZmq.AxiQuadSpi

/-! # The current monitor (server_controller/handlers.cpp)

`read_current_monitor_raw` talks to an ADS126x converter over the SPI core. -/

namespace DaphneZmq.CurrentMonitor
open Lib.Trace AxiQuadSpi

def DEFAULT_BASE : UInt64 := 0x9C020000

def ADS_RESET : UInt8 := 0x06
def ADS_START : UInt8 := 0x08
def ADS_STOP : UInt8 := 0x0A
def ADS_RDATA : UInt8 := 0x12
def ADS_RREG : UInt8 := 0x20
def ADS_WREG : UInt8 := 0x40
def REG_ID : UInt8 := 0x00
def REG_STATUS : UInt8 := 0x01
def REG_MODE0 : UInt8 := 0x02
def REG_MODE3 : UInt8 := 0x05
def REG_PGA : UInt8 := 0x10
def REG_INPMUX : UInt8 := 0x11

/-- The environment variables. -/
structure Variables where
  isSet : String → Bool
  /-- What `std::strtoull` makes of one, if it is set and is a number as a whole. -/
  number : String → Option UInt64

def Variables.env_u64 (vars : Variables) (name : String) (fallback : UInt64) : UInt64 := (vars.number name).getD fallback

/-- `hex_u64` -/
def hexU64 (value width : Nat) : String :=
  let digits := (String.ofList (Nat.toDigits 16 value)).toUpper
  "0x" ++ String.ofList (List.replicate (width - digits.length) '0') ++ digits

def currentMonitorMuxForChannel (vars : Variables) (channel : UInt32) : Except String UInt8 :=
  let env_name := "DAPHNE_CURRENT_MONITOR_MUX_" ++ toString channel
  if vars.isSet env_name then .ok (vars.env_u64 env_name 0xFF &&& 0xFF).toUInt8
  else if channel > 9 then .error s!"current monitor channel out of range (0..9): {channel}"
  else
    let muxp := (channel + 1).toUInt8
    let muxn := (vars.env_u64 "DAPHNE_CURRENT_MONITOR_NEG_MUX" 0x0 &&& 0x0F).toUInt8
    .ok ((muxp <<< 4) ||| muxn)

section Converter
variable (spi : AxiQuadSpi) (env : SpiEnv)

def adsCommand (opcode : UInt8) : SpiProg UInt8 := do
  let rx ← spi.transfer env [opcode, 0x00]
  return if rx.length > 1 then rx.getD 1 0 else 0

def adsReadReg (reg_addr : UInt8) : SpiProg UInt8 := do
  let rx ← spi.transfer env [ADS_RREG ||| (reg_addr &&& 0x1F), 0x00, 0x00]
  if rx.length < 3 then throw "short ADS126x RREG response" else return rx.getD 2 0

def adsWriteReg (reg_addr value : UInt8) : SpiProg Unit := do
  let rx ← spi.transfer env [ADS_WREG ||| (reg_addr &&& 0x1F), value]
  if rx.length < 2 then throw "short ADS126x WREG response" else return ()

/-- `raw24` of the bytes of a conversion. -/
def raw24Of (rx : List UInt8) : UInt32 :=
  (rx.getD 2 0).toUInt32 <<< 16 ||| (rx.getD 3 0).toUInt32 <<< 8 ||| (rx.getD 4 0).toUInt32

/-- `signed_raw`, as the unsigned number that is returned. -/
def signedRaw (raw24 : UInt32) : UInt32 := if raw24 &&& 0x800000 ≠ 0 then raw24 ||| 0xFF000000 else raw24

def devIdOf (id : UInt8) : UInt8 := (id >>> 4) &&& 0x0F

def invalidId (id : UInt8) : String :=
  s!"ADS126x current monitor did not return a valid device id: id={hexU64 id.toNat 2} dev_id={hexU64 (devIdOf id).toNat 1}"

def muxMismatch (mux mux_readback : UInt8) : String :=
  s!"ADS126x INPMUX write/readback mismatch: wrote={hexU64 mux.toNat 2} read={hexU64 mux_readback.toNat 2}"

def okMessage (channel : UInt32) (mux id status : UInt8) (raw24 : UInt32) : String :=
  s!"OK: ADS126x raw 24-bit conversion channel={channel} mux={hexU64 mux.toNat 2} id={hexU64 id.toNat 2}" ++
    s!" status={hexU64 status.toNat 2} raw24={hexU64 raw24.toNat 6} signed={(signedRaw raw24).toInt32}"

/-- The `try` block once the core is there: the value and the message, or the message of a `return false`. -/
def convert (channel : UInt32) (mux : UInt8) : SpiProg (Except String (UInt32 × String)) := do
  let _ ← adsCommand spi env ADS_RESET
  sleepFor 5_000_000
  let id ← adsReadReg spi env REG_ID
  if devIdOf id ≠ 0x8 ∧ devIdOf id ≠ 0xA then return .error (invalidId id)
  else do
    adsWriteReg spi env REG_MODE3 0x00
    adsWriteReg spi env REG_MODE0 0x6C
    adsWriteReg spi env REG_PGA 0x05
    adsWriteReg spi env REG_INPMUX mux
    let mux_readback ← adsReadReg spi env REG_INPMUX
    if mux_readback ≠ mux then return .error (muxMismatch mux mux_readback)
    else do
      let _ ← adsCommand spi env ADS_START
      sleepFor 5_000_000
      let rx ← spi.transfer env [ADS_RDATA, 0x00, 0x00, 0x00, 0x00]
      let _ ← adsCommand spi env ADS_STOP
      if rx.length < 5 then throw "short ADS126x RDATA response"
      else do
        let raw24 := raw24Of rx
        let status ← adsReadReg spi env REG_STATUS
        return .ok (signedRaw raw24, okMessage channel mux id status raw24)

end Converter

/-- What `read_current_monitor_raw` leaves to its caller. -/
structure Reading where
  ok : Bool
  current_value : UInt32
  response_msg : String

/-- `read_current_monitor_raw`; `fails` is the exception of the mapping, if it fails. -/
def readCurrentMonitorRaw (env : SpiEnv) (vars : Variables) (fails : Option String) (channel current_value : UInt32) : SpiProg Reading := fun s =>
  let base := vars.env_u64 "DAPHNE_CURRENT_MONITOR_SPI_BASE" DEFAULT_BASE
  let failed e := "Current monitor read failed: " ++ e
  match currentMonitorMuxForChannel vars channel with
  | .error e => .ok ⟨false, 0, failed e⟩ s
  | .ok mux =>
    match (create fails base.toNat >>= fun spi => convert spi env channel mux) s with
    | .ok (.ok (value, msg)) t => .ok ⟨true, value, msg⟩ t
    | .ok (.error msg) t => .ok ⟨false, current_value, msg⟩ t
    | .error e t => .ok ⟨false, 0, failed e⟩ t

/-- `cmd_readCurrentMonitor_response` -/
structure Response where
  success : Bool
  message : String
  currentMonitorChannel : UInt32
  currentValue : UInt32

/-- The handler of `MT2_READ_CURRENT_MONITOR_REQ`; the request is its `currentMonitorChannel`, unless it fails to parse. -/
def handleReadCurrentMonitor (env : SpiEnv) (vars : Variables) (fails : Option String) (request : Option UInt32) : SpiProg Response :=
  match request with
  | none => return ⟨false, "Bad cmd_readCurrentMonitor payload", 0, 0⟩
  | some channel => do
    let reading ← readCurrentMonitorRaw env vars fails channel 0
    return ⟨reading.ok, reading.response_msg, channel, reading.current_value⟩

/-! ### What it is for -/

/-- What has been sent and what has been received with it. -/
abbrev Frame := List UInt8 × List UInt8

/-- What is sent in the course of a read. -/
def course (mux : UInt8) : List (List UInt8) :=
  [[ADS_RESET, 0], [ADS_RREG ||| REG_ID, 0, 0], [ADS_WREG ||| REG_MODE3, 0x00], [ADS_WREG ||| REG_MODE0, 0x6C], [ADS_WREG ||| REG_PGA, 0x05],
    [ADS_WREG ||| REG_INPMUX, mux], [ADS_RREG ||| REG_INPMUX, 0, 0], [ADS_START, 0], [ADS_RDATA, 0, 0, 0, 0], [ADS_STOP, 0],
    [ADS_RREG ||| REG_STATUS, 0, 0]]

/-- The byte of a register in the `n`-th frame. -/
def registerByte (frames : List Frame) (n : Nat) : UInt8 := (frames.getD n ([], [])).2.getD 2 0

/-- The converter has said that it is one. -/
def Identified (frames : List Frame) : Prop := devIdOf (registerByte frames 1) = 0x8 ∨ devIdOf (registerByte frames 1) = 0xA

/-- The number in the bytes of a conversion, in 24 bits with a sign. -/
def twosComplement (rx : List UInt8) : Int :=
  let raw : Nat := (rx.getD 2 0).toNat * 2 ^ 16 + (rx.getD 3 0).toNat * 2 ^ 8 + (rx.getD 4 0).toNat
  if raw < 2 ^ 23 then (raw : Int) else (raw : Int) - 2 ^ 24

def conversion (frames : List Frame) : Int := twosComplement (frames.getD 8 ([], [])).2

end DaphneZmq.CurrentMonitor
