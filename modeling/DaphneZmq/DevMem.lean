import DaphneZmq.Registers

/-! # Physical memory (DevMem.cpp)

A mapping of `/dev/mem` can fail, when the file is opened or when it is mapped. A write to mapped memory is a store
and does not throw. The addresses are the same as those of the FPGA registers, from the base of these. -/

namespace DaphneZmq
open Lib.Device

/-- The base address of `FpgaReg`. -/
def fpgaBase : Nat := 0x80000000

def pageSize : Nat := 4096

/-- A mapping: the base address that was asked for and `length_`. -/
structure DevMem where
  base : Nat
  length : Nat

namespace DevMem
variable {D : Type}

def alignToPage (length : Nat) : Nat := (length + pageSize - 1) / pageSize * pageSize

/-- `DevMem(base)` and `map_memory(length)`; `fails` has the text of the exception that a mapping throws, if it throws. -/
def mapMemory (fails : Nat → Option String) (base length : Nat) : Prog Nat UInt32 D DevMem := fun s =>
  match fails s.accesses with
  | some e => .error e s.tick
  | none => .ok ⟨base, alignToPage (length + base % pageSize)⟩ s.tick

def store (addr : Nat) (value : UInt32) : Prog Nat UInt32 D Unit := fun s => .ok () (s.afterWrite addr value)

def writeU32 (mem : DevMem) (offset : Nat) (value : UInt32) : Prog Nat UInt32 D Unit :=
  if offset % 4 ≠ 0 then throw "Offset must be aligned to word size"
  else if offset + 4 > mem.length then throw "Read/write operation exceeds memory bounds"
  else store (mem.base - fpgaBase + offset) value

theorem le_alignToPage (length : Nat) : length ≤ alignToPage length := by
  unfold alignToPage pageSize
  omega

theorem mapMemory_ok {fails : Nat → Option String} {base length : Nat} {s : State Nat UInt32 D}
    (h : fails s.accesses = none) :
    mapMemory fails base length s = .ok ⟨base, alignToPage (length + base % pageSize)⟩ s.tick := by
  rw [mapMemory, h]

theorem mapMemory_error {fails : Nat → Option String} {base length : Nat} {e : String} {s : State Nat UInt32 D}
    (h : fails s.accesses = some e) : mapMemory fails base length s = .error e s.tick := by
  rw [mapMemory, h]

theorem writeU32_eq (mem : DevMem) {offset : Nat} (haligned : offset % 4 = 0) (hfits : offset + 4 ≤ mem.length)
    (value : UInt32) (s : State Nat UInt32 D) :
    writeU32 mem offset value s = .ok () (s.afterWrite (mem.base - fpgaBase + offset) value) := by
  rw [writeU32, if_neg (not_not_intro haligned), if_neg (Nat.not_lt.mpr hfits), store]

end DevMem
end DaphneZmq
