import Mathlib.Tactic.Ring

/-! # The window of a `DevMem` object (DevMem.cpp)

An object keeps the requested base address rounded down to a page, the offset of the request in that page, and the length
of what is mapped. `mmap` can fail in every call. The memory is a log of the words that were loaded and stored; what a
load gives is up to the hardware behind it. -/

namespace DaphneZmq

/-- What `mmap` maps. -/
structure Region where
  phys : UInt64
  length : UInt64
deriving DecidableEq

/-- A word that is loaded or stored: `mem_` at that moment, the index of the word from there, and the value if it is
    stored. -/
structure Touch where
  mem : Option Region
  index : Nat
  stored : Option UInt32 := none
deriving DecidableEq

/-- The machine: its page size, the exception that `std::vector` throws for a number of words, if it throws, and the
    value that a load gives after some accesses. -/
structure Host where
  pageBits : Nat
  two_le : 2 ≤ pageBits
  lt : pageBits < 64
  vector : UInt64 → Option String
  load : List Touch → Option Region → Nat → UInt32

def Host.pageSize (host : Host) : UInt64 := UInt64.ofNat (2 ^ host.pageBits)

/-- The fields that a call can change. No region is `MAP_FAILED`. -/
structure DevMemObject where
  baseAddr : UInt64
  offset : UInt64
  length : UInt64 := 0
  mem : Option Region := none
deriving DecidableEq

namespace DevMemObject
variable (host : Host)

/-- The base address, rounded down to a page. -/
def pageOf (baseAddr : UInt64) : UInt64 := baseAddr &&& ~~~(host.pageSize - 1)

/-- The constructor. -/
def create (baseAddr : UInt64) : DevMemObject where
  baseAddr := pageOf host baseAddr
  offset := baseAddr - pageOf host baseAddr

def alignToPage (length : UInt64) : UInt64 := (length + host.pageSize - 1) &&& ~~~(host.pageSize - 1)

/-! ### Mapping -/

def unmapIfMapped : EStateM String DevMemObject Unit :=
  modify fun o => if o.mem.isSome then { o with mem := none, length := 0 } else o

/-- `map_memory`; `fails` is the error of `mmap`, if it fails. -/
def mapMemory (fails : Option String) (length : UInt64) : EStateM String DevMemObject Unit := do
  if length = 0 then throw "Length must be greater than zero"
  unmapIfMapped
  let o ← get
  let newLength := alignToPage host (length + o.offset)
  match fails with
  | some error => throw ("Failed to mmap memory: " ++ error)
  | none => set { o with mem := some ⟨o.baseAddr, newLength⟩, length := newLength }

def changeBaseAddr (fails : Option String) (baseAddr length : UInt64) : EStateM String DevMemObject Unit := do
  if length = 0 then throw "Length must be greater than zero"
  unmapIfMapped
  modify fun o => { o with baseAddr := pageOf host baseAddr, offset := baseAddr - pageOf host baseAddr }
  mapMemory host fails length

inductive Call
  | mapMemory (fails : Option String) (length : UInt64)
  | changeBaseAddr (fails : Option String) (baseAddr length : UInt64)

def Call.run : Call → EStateM String DevMemObject Unit
  | .mapMemory fails length => DevMemObject.mapMemory host fails length
  | .changeBaseAddr fails baseAddr length => DevMemObject.changeBaseAddr host fails baseAddr length

/-- The object after a call, also if the call throws. -/
def Call.after (o : DevMemObject) (call : Call) : DevMemObject :=
  match call.run host o with
  | .ok _ o' | .error _ o' => o'

/-- The object after a sequence of calls. -/
def after (baseAddr : UInt64) (calls : List Call) : DevMemObject := calls.foldl (Call.after host) (create host baseAddr)

/-! ### Accesses -/

section Access
variable (o : DevMemObject)

def requireMapped : EStateM String (List Touch) Unit := do
  if o.mem = none then throw "Memory is not mapped; call map_memory() first"

def validateOffset (offset numWords : UInt64) : EStateM String (List Touch) Unit := do
  o.requireMapped
  if offset % 4 ≠ 0 then throw "Offset must be aligned to word size"
  if offset + numWords * 4 > o.length then throw "Read/write operation exceeds memory bounds"

/-- The index in `word_ptr`, from `mem_`. -/
def wordIndex (offset : UInt64) : Nat := ((o.offset + offset) / 4).toNat

def loadWord (index : Nat) : EStateM String (List Touch) UInt32 := do
  let past ← get
  set (past ++ [{ mem := o.mem, index }])
  return host.load past o.mem index

def storeWord (index : Nat) (value : UInt32) : EStateM String (List Touch) Unit :=
  modify (· ++ [{ mem := o.mem, index, stored := some value }])

/-- `std::vector<uint32_t> data(num_words)`. -/
def newVector (numWords : UInt64) : EStateM String (List Touch) Unit := do
  if let some error := host.vector numWords then throw error

def read (offset numWords : UInt64) : EStateM String (List Touch) (List UInt32) := do
  o.validateOffset offset numWords
  newVector host numWords
  (List.range numWords.toNat).mapM fun i => o.loadWord host (o.wordIndex offset + i)

def readU32 (offset : UInt64) : EStateM String (List Touch) UInt32 := do
  o.validateOffset offset 1
  o.loadWord host (o.wordIndex offset)

/-- The words of a `std::vector<uint32_t>`, which has at most 2^61 - 1 of them. -/
abbrev Words := { words : List UInt32 // words.length < 2 ^ 61 }

def write (offset : UInt64) (data : Words) : EStateM String (List Touch) Unit := do
  o.validateOffset offset (.ofNat data.val.length)
  forM data.val.zipIdx fun (value, i) => o.storeWord (o.wordIndex offset + i) value

def writeU32 (offset : UInt64) (value : UInt32) : EStateM String (List Touch) Unit := do
  o.validateOffset offset 1
  o.storeWord (o.wordIndex offset) value

end Access

end DevMemObject
end DaphneZmq
