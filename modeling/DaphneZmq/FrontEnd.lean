import DaphneZmq.Registers

/-! # The front end (FrontEnd.cpp, FpgaRegDict.cpp)

The delay and bitslip registers of the five AFEs, the control register and the trigger are cells. The status
register and the frame clocks in the spy buffers are driven by the hardware. -/

namespace DaphneZmq
open Lib.Device

namespace FrontEnd

def delayEnVtc : BitField := { addr := 0x8000000, low := 2, high := 2 }
def serdesReset : BitField := { addr := 0x8000000, low := 1, high := 1 }
def delayctrlReset : BitField := { addr := 0x8000000, low := 0, high := 0 }
def delayctrlReady : BitField := { addr := 0x8000004, low := 0, high := 0 }
def frontendTrigger : Nat := 0x8000008
def frontendDelay (afe : Nat) : BitField := { addr := 0x800000C + afe * 0x4, low := 0, high := 8 }
def frontendBitslip (afe : Nat) : BitField := { addr := 0x8000020 + afe * 0x4, low := 0, high := 3 }

section
variable {D : Type} (env : Env Nat UInt32)

def doResetDelayCtrl : Prog Nat UInt32 D UInt32 := do
  let _ ← Reg.writeBits env delayctrlReset 1
  Reg.writeBits env delayctrlReset 0

def doResetSerDesCtrl : Prog Nat UInt32 D UInt32 := do
  let _ ← Reg.writeBits env serdesReset 1
  Reg.writeBits env serdesReset 0

def setEnableDelayVtc (value : UInt32) : Prog Nat UInt32 D UInt32 := Reg.writeBits env delayEnVtc value

def getDelayCtrlReady : Prog Nat UInt32 D UInt32 := Reg.readBits env delayctrlReady

def doTrigger : Prog Nat UInt32 D UInt32 := Reg.writeRegister env frontendTrigger 0xBABA

def setDelay (afe : Nat) (delay : UInt32) : Prog Nat UInt32 D UInt32 := Reg.writeBits env (frontendDelay afe) delay

def getDelay (afe : Nat) : Prog Nat UInt32 D UInt32 := Reg.readBits env (frontendDelay afe)

def setBitslip (afe : Nat) (bitslip : UInt32) : Prog Nat UInt32 D UInt32 :=
  Reg.writeBits env (frontendBitslip afe) bitslip

def getBitslip (afe : Nat) : Prog Nat UInt32 D UInt32 := Reg.readBits env (frontendBitslip afe)

def resetDelayCtrlValues : Prog Nat UInt32 D UInt32 := do
  let _ ← (List.range 5).mapM fun afe => do
    let _ ← setBitslip env afe 0
    setDelay env afe 0
  return 0

/-- The polls of `waitForDelayCtrlReady`: those before the deadline, and the last one after it. -/
def pollDelayCtrlReady : Nat → Prog Nat UInt32 D Bool
  | 0 => do return (← getDelayCtrlReady env) != 0
  | polls + 1 => do
    let ready ← getDelayCtrlReady env
    if ready ≠ 0 then return true
    pollDelayCtrlReady polls

def waitForDelayCtrlReady : Prog Nat UInt32 D Bool := fun s => pollDelayCtrlReady env (env.polls s.accesses + 1) s

end
end FrontEnd

/-- The full word at the first sample of the frame clock, that is channel 8 of the spy buffer. -/
def SpyBuffer.frameClock (afe : Nat) : Nat := 0x10000000 + afe * 0x9000 + 8 * 0x1000

/-- `SpyBuffer::getFrameClock(afe, 0)`. -/
def SpyBuffer.getFrameClock {D : Type} (env : Env Nat UInt32) (afe : Nat) : Prog Nat UInt32 D UInt32 :=
  read env (SpyBuffer.frameClock afe)

/-- The hardware around the front end. -/
structure Bench where
  faults : Nat → Option String
  /-- The words that the successive reads of the status register give. -/
  status : Nat → UInt32
  /-- The words that the successive reads of each AFE's frame clock give. -/
  frameClock : Nat → Nat → UInt32
  polls : Nat → Nat

namespace Bench
variable (b : Bench)

def env : Env Nat UInt32 where
  faults := b.faults
  driven a :=
    if a = FrontEnd.delayctrlReady.addr then some fun _ => b.status
    else ((List.range 5).find? fun afe => SpyBuffer.frameClock afe = a).map fun afe _ => b.frameClock afe
  polls := b.polls

theorem driven_status : b.env.driven FrontEnd.delayctrlReady.addr = some fun _ => b.status := rfl

theorem driven_control : b.env.driven FrontEnd.delayEnVtc.addr = none := rfl

theorem driven_trigger : b.env.driven FrontEnd.frontendTrigger = none := rfl

theorem driven_frameClock {afe : Nat} (hafe : afe < 5) :
    b.env.driven (SpyBuffer.frameClock afe) = some fun _ => b.frameClock afe := by
  have hne : SpyBuffer.frameClock afe ≠ FrontEnd.delayctrlReady.addr := by
    simp only [SpyBuffer.frameClock, FrontEnd.delayctrlReady]
    omega
  have hfind : ∀ afe < 5, (List.range 5).find? (fun i => SpyBuffer.frameClock i = SpyBuffer.frameClock afe) = some afe := by
    decide
  simp only [env]
  rw [if_neg hne, hfind afe hafe]
  rfl

/-- The registers below the spy buffers other than the status register are cells. -/
theorem driven_cell {a : Nat} (hne : a ≠ FrontEnd.delayctrlReady.addr) (hlt : a < 0x10000000) :
    b.env.driven a = none := by
  simp only [env]
  rw [if_neg hne, Option.map_eq_none_iff, List.find?_eq_none]
  intro afe _ h
  have hafe : SpyBuffer.frameClock afe = a := of_decide_eq_true h
  unfold SpyBuffer.frameClock at hafe
  omega

theorem driven_delay {afe : Nat} (hafe : afe < 5) : b.env.driven (FrontEnd.frontendDelay afe).addr = none := by
  apply b.driven_cell <;> simp only [FrontEnd.frontendDelay, FrontEnd.delayctrlReady] <;> omega

theorem driven_bitslip {afe : Nat} (hafe : afe < 5) : b.env.driven (FrontEnd.frontendBitslip afe).addr = none := by
  apply b.driven_cell <;> simp only [FrontEnd.frontendBitslip, FrontEnd.delayctrlReady] <;> omega

end Bench
end DaphneZmq
