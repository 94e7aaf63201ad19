import DaphneZmq.DevMem
import DaphneZmq.Lib.Trace

/-! # The SPI core of the current monitor (server_controller/handlers.cpp)

`AxiQuadSpi` is a program over the registers of the core. The times are in nanoseconds. -/

namespace DaphneZmq
open Lib Lib.Trace

/-! ### Registers -/

namespace Cmspi

inductive Register
  | SRR
  | SPICR
  | SPISR
  | DTR
  | DRR
  | SPISSR
  deriving DecidableEq

def Register.offset : Register → Nat
  | SRR => 0x40
  | SPICR => 0x60
  | SPISR => 0x64
  | DTR => 0x68
  | DRR => 0x6C
  | SPISSR => 0x70

def SPAN : Nat := 0x100

def CR_SPE : UInt32 := (1 : UInt32) <<< 1
def CR_MASTER : UInt32 := (1 : UInt32) <<< 2
def CR_CPHA : UInt32 := (1 : UInt32) <<< 4
def CR_TXFIFO_RESET : UInt32 := (1 : UInt32) <<< 5
def CR_RXFIFO_RESET : UInt32 := (1 : UInt32) <<< 6
def CR_MANUAL_SS : UInt32 := (1 : UInt32) <<< 7
def CR_INHIBIT : UInt32 := (1 : UInt32) <<< 8
def SR_RX_EMPTY : UInt32 := (1 : UInt32) <<< 0

end Cmspi

open Cmspi

/-- The object: what it has mapped, which is the registers at least. -/
structure AxiQuadSpi where
  mem : DevMem
  spans : SPAN ≤ mem.length

namespace AxiQuadSpi

abbrev SpiAccess := Access Register UInt32
abbrev SpiEnv := Lib.Trace.Env Register UInt32
abbrev SpiState := Lib.Trace.State Register UInt32
abbrev SpiProg (α : Type) := Lib.Trace.Prog Register UInt32 α

def base_cr : UInt32 := CR_SPE ||| CR_MASTER ||| CR_CPHA ||| CR_MANUAL_SS

def idle_cr : UInt32 := base_cr ||| CR_INHIBIT

/-- `SPISSR` without a slave. -/
def noSlave : UInt32 := 0xFFFFFFFF

def timedOut : String := "AXI Quad SPI transfer timed out waiting for RX data"

/-- What the object has mapped after `map_memory(cmspi::SPAN)`. -/
def mapped (base : Nat) : AxiQuadSpi where
  mem := ⟨base, DevMem.alignToPage (SPAN + base % pageSize)⟩
  spans := Nat.le_trans (Nat.le_add_right ..) (DevMem.le_alignToPage _)

variable (spi : AxiQuadSpi) (env : SpiEnv)

/-! ### Registers of the object -/

/-- An access of a register, behind `validate_offset`. -/
def validated {α : Type} (register : Register) (access : SpiProg α) : SpiProg α :=
  if register.offset % 4 ≠ 0 then throw "Offset must be aligned to word size"
  else if register.offset + 4 > spi.mem.length then throw "Read/write operation exceeds memory bounds"
  else access

def read_u32 (register : Register) : SpiProg UInt32 := spi.validated register (read env register)

def write_u32 (register : Register) (value : UInt32) : SpiProg Unit := spi.validated register (write register value)

theorem validated_eq {α : Type} (register : Register) (access : SpiProg α) : spi.validated register access = access := by
  have hspans := spi.spans
  have haligned : register.offset % 4 = 0 := by cases register <;> rfl
  have hfits : register.offset + 4 ≤ SPAN := by cases register <;> decide
  rw [validated, if_neg (not_not_intro haligned), if_neg (Nat.not_lt.mpr (Nat.le_trans hfits hspans))]

theorem read_u32_eq (register : Register) : spi.read_u32 env register = read env register := spi.validated_eq ..

theorem write_u32_eq (register : Register) (value : UInt32) : spi.write_u32 register value = write register value :=
  spi.validated_eq ..

/-! ### The core -/

def reset_core : SpiProg Unit := do
  spi.write_u32 .SRR 0x0A
  sleepFor 10_000
  spi.write_u32 .SPISSR noSlave
  spi.write_u32 .SPICR (base_cr ||| CR_INHIBIT ||| CR_TXFIFO_RESET ||| CR_RXFIFO_RESET)
  spi.write_u32 .SPICR (base_cr ||| CR_INHIBIT)

/-- The constructor; `fails` is the exception of the mapping, if it fails. -/
def create (fails : Option String) (base : Nat) : SpiProg AxiQuadSpi :=
  match fails with
  | some e => throw e
  | none => do
    (mapped base).reset_core
    return mapped base

/-- `drain_rx_fifo`, with the rounds that are left. -/
def drainRounds : Nat → SpiProg Unit
  | 0 => return ()
  | i + 1 => do
    let status ← spi.read_u32 env .SPISR
    if status &&& SR_RX_EMPTY ≠ 0 then return ()
    else do
      let _ ← spi.read_u32 env .DRR
      drainRounds i

def drain_rx_fifo : SpiProg Unit := spi.drainRounds env 64

/-- `static_cast<uint8_t>` of a word of the receive FIFO. -/
def rxByte (word : UInt32) : UInt8 := (word &&& 0xFF).toUInt8

/-- A round of the loop that waits for the bytes: what has been received after it. -/
def pollRound (deadline : Nat) (rx : List UInt8) : SpiProg (List UInt8) := do
  let status ← spi.read_u32 env .SPISR
  if status &&& SR_RX_EMPTY = 0 then do
    let word ← spi.read_u32 env .DRR
    return rx ++ [rxByte word]
  else if (← now env) > deadline then do
    spi.write_u32 .SPICR idle_cr
    spi.write_u32 .SPISSR noSlave
    throw timedOut
  else do
    sleepFor 50_000
    return rx

/-- What a round can do: it takes a byte, sleeps before the deadline, or cleans up after it. -/
theorem pollRound_cases (deadline : Nat) (rx : List UInt8) (s : SpiState) :
    (∃ status word, status &&& SR_RX_EMPTY = 0 ∧
      spi.pollRound env deadline rx s = .ok (rx ++ [rxByte word]) (s.add [.read .SPISR status, .read .DRR word])) ∨
    (∃ status time, status &&& SR_RX_EMPTY ≠ 0 ∧ s.time ≤ time ∧ time ≤ deadline ∧
      spi.pollRound env deadline rx s = .ok rx (((s.add [.read .SPISR status]).look time).sleep 50_000)) ∨
    ∃ status time, status &&& SR_RX_EMPTY ≠ 0 ∧ deadline < time ∧
      spi.pollRound env deadline rx s =
        .error timedOut (((s.add [.read .SPISR status]).look time).add [.write .SPICR idle_cr, .write .SPISSR noSlave]) := by
  have hrun : spi.pollRound env deadline rx s = (read env .SPISR >>= fun status =>
      if status &&& SR_RX_EMPTY = 0 then read env .DRR >>= fun word => return rx ++ [rxByte word]
      else now env >>= fun time =>
        if time > deadline then write .SPICR idle_cr >>= fun _ => write .SPISSR noSlave >>= fun _ => throw timedOut
        else sleepFor 50_000 >>= fun _ => return rx) s := by
    unfold pollRound
    simp only [read_u32_eq, write_u32_eq]
  rw [hrun, read_bind]
  by_cases hstatus : env.answer s.trace .SPISR &&& SR_RX_EMPTY = 0
  · rw [if_pos hstatus, read_bind, State.add_add]
    exact Or.inl ⟨_, _, hstatus, rfl⟩
  · rw [if_neg hstatus, now_bind, State.add_time, State.add_looks]
    by_cases hlate : s.time + env.passes s.looks > deadline
    · rw [if_pos hlate, write_bind, write_bind, State.add_add]
      exact Or.inr (Or.inr ⟨_, _, hstatus, hlate, rfl⟩)
    · rw [if_neg hlate, sleepFor_bind]
      exact Or.inr (Or.inl ⟨_, _, hstatus, Nat.le_add_right .., Nat.le_of_not_lt hlate, rfl⟩)

variable {spi env}

/-- The rounds that are left at a time before the deadline, if no byte comes. -/
def roundsLeft (deadline time : Nat) : Nat := (deadline + 50_000 - time) / 50_000

theorem roundsLeft_sleep {deadline time time' : Nat} (hle : time ≤ time') (hearly : time' ≤ deadline) :
    roundsLeft deadline (time' + 50_000) < roundsLeft deadline time := by
  unfold roundsLeft
  omega

/-- A round that does not throw leaves less to do. -/
theorem pollRound_decreases {deadline size : Nat} {rx rx' : List UInt8} {s t : SpiState} (hsize : rx.length < size)
    (h : spi.pollRound env deadline rx s = .ok rx' t) :
    size - rx'.length + roundsLeft deadline t.time < size - rx.length + roundsLeft deadline s.time := by
  rcases pollRound_cases spi env deadline rx s with
    ⟨status, word, -, hrun⟩ | ⟨status, time, -, hle, hearly, hrun⟩ | ⟨status, time, -, -, hrun⟩
  · cases hrun.symm.trans h
    rw [List.length_append, List.length_singleton, State.add_time]
    omega
  · cases hrun.symm.trans h
    exact Nat.add_lt_add_left (roundsLeft_sleep hle hearly) _
  · cases hrun.symm.trans h

variable (spi env)

/-- `while (rx.size() < tx.size())`. It ends, since a round adds a byte or takes time. -/
def pollLoop (deadline size : Nat) (rx : List UInt8) : SpiProg (List UInt8) := fun s =>
  if _ : rx.length < size then
    match _ : spi.pollRound env deadline rx s with
    | .ok rx t => pollLoop deadline size rx t
    | .error e t => .error e t
  else .ok rx s
termination_by s => size - rx.length + roundsLeft deadline s.time
decreasing_by exact pollRound_decreases ‹_› ‹_›

def transfer (tx : List UInt8) : SpiProg (List UInt8) :=
  if tx = [] then return []
  else do
    spi.write_u32 .SPISSR noSlave
    spi.write_u32 .SPICR (idle_cr ||| CR_TXFIFO_RESET ||| CR_RXFIFO_RESET)
    spi.write_u32 .SPICR idle_cr
    spi.drain_rx_fifo env
    tx.forM fun b => spi.write_u32 .DTR b.toUInt32
    spi.write_u32 .SPISSR 0xFFFFFFFE
    spi.write_u32 .SPICR base_cr
    let deadline := (← now env) + 100_000_000
    let rx ← spi.pollLoop env deadline tx.length []
    spi.write_u32 .SPICR idle_cr
    spi.write_u32 .SPISSR noSlave
    return rx

end AxiQuadSpi
end DaphneZmq
