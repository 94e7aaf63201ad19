import DaphneZmq.Afe

/-! # AFE functions over plain registers (Afe.cpp)

`setAFEFunction` and `getAFEFunction` over any way to read and write a register: over SPI, or over plain 16-bit cells. -/

namespace DaphneZmq.Afe
open Lib.Device

section Over
variable {M : Type → Type} [Monad M] [MonadExceptOf String M] (getRegister : UInt32 → M UInt32)
  (setRegister : UInt32 → UInt32 → M UInt32)

/-- `setField`. -/
def setFieldOver (undefinedMask register : UInt32) (msb lsb : Nat) (value : UInt16) : M UInt32 := do
  let mask := fieldMask undefinedMask msb lsb
  let registerValue ← getRegister register
  let _ ← setRegister register (withField mask lsb registerValue value)
  let readBack ← getRegister register
  return (readBack &&& mask) >>> UInt32.ofNat lsb

/-- The text of the exception for a function that has no field. -/
def unknownFunction (functionName : String) : String :=
  "AFE function name " ++ functionName ++ " not found in the AFE functions dictionary."

def setAFEFunctionOver (undefinedMask : UInt32) (functionName : String) (value : UInt16) : M UInt32 :=
  match afeFunctionAvailableOptionsDict.lookup functionName with
  | none => throw ("AFE function name " ++ functionName ++ " not found in the AFE options dictionary.")
  | some options =>
    if accepts options value = false then throw (rejection functionName options value)
    else match afeFunctionDict.lookup functionName with
      | none => throw (unknownFunction functionName)
      | some (register, msb, lsb) => setFieldOver getRegister setRegister undefinedMask register msb lsb value

def getAFEFunctionOver (undefinedMask : UInt32) (functionName : String) : M UInt32 :=
  match afeFunctionDict.lookup functionName with
  | none => throw (unknownFunction functionName)
  | some (register, msb, lsb) => do
    let mask := fieldMask undefinedMask msb lsb
    let registerValue ← getRegister register
    return (registerValue &&& mask) >>> UInt32.ofNat lsb

end Over

def getAFEFunction {D : Type} (env : Env Nat UInt32) (undefinedMask : UInt32) (afe : Nat) (functionName : String) :
    Prog Nat UInt32 D UInt32 := getAFEFunctionOver (getRegister env afe) undefinedMask functionName

/-- The amounts by which `setAFEFunction` shifts: for the width of the field, and for its place in the mask, in the value
that is written and in the one that is read back. -/
def shiftAmounts (msb lsb : Nat) : List Int := [(msb : Int) - lsb + 1, lsb, lsb, lsb]

/-- The registers of the AFEs as plain cells. -/
abbrev Cells := Nat → UInt32 → UInt16

namespace Cells

def getRegister (afe : Nat) (register : UInt32) : EStateM String Cells UInt32 :=
  if register ∉ registerList then throw (unlisted register) else do return ((← get) afe register).toUInt32

def setRegister (afe : Nat) (register value : UInt32) : EStateM String Cells UInt32 :=
  if register ∉ registerList then throw (unlisted register)
  else do
    modify fun cells => Function.update cells afe (Function.update (cells afe) register value.toUInt16)
    getRegister afe register

def setAFEFunction (undefinedMask : UInt32) (afe : Nat) (functionName : String) (value : UInt16) :
    EStateM String Cells UInt32 :=
  setAFEFunctionOver (getRegister afe) (setRegister afe) undefinedMask functionName value

def getAFEFunction (undefinedMask : UInt32) (afe : Nat) (functionName : String) : EStateM String Cells UInt32 :=
  getAFEFunctionOver (getRegister afe) undefinedMask functionName

end Cells

end DaphneZmq.Afe
