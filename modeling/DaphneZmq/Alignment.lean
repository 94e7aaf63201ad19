import DaphneZmq.FrontEnd

/-! # Alignment (Daphne.cpp, server_controller/handlers.cpp)

`alignAFE` scans the delay taps of each AFE and then its bitslips, and reads the frame clock after each. The
response that the request fills is the state of the driver. -/

namespace DaphneZmq
open Lib.Device

/-- The word of the frame clock of an AFE that is aligned. -/
def kExpectedFclkWord : UInt32 := 0x00FF00FF

def hex (n : UInt32) : String := String.ofList (Nat.toDigits 16 n.toNat)

/-- With `std::uppercase`. -/
def hexUpper (n : UInt32) : String := (hex n).toUpper

namespace Daphne

/-- The variables of `longestIdenticalSubsequenceIndices`. -/
structure Subsequence where
  maxLength : Nat := 1
  maxStartIndex : Nat := 0
  currentLength : Nat := 1
  currentStartIndex : Nat := 0

/-- The current subsequence becomes the longest if it is longer. -/
def Subsequence.close (r : Subsequence) : Subsequence :=
  if r.currentLength > r.maxLength then { r with maxLength := r.currentLength, maxStartIndex := r.currentStartIndex }
  else r

/-- The round of the loop at the index `i`. -/
def Subsequence.next (nums : List UInt32) (r : Subsequence) (i : Nat) : Subsequence :=
  if nums[i]? = nums[i - 1]? then { r with currentLength := r.currentLength + 1 }
  else { r.close with currentLength := 1, currentStartIndex := i }

def longestIdenticalSubsequenceIndices (nums : List UInt32) : Option (Nat × Nat) :=
  if nums.isEmpty then none
  else
    let r := ((List.range' 1 (nums.length - 1)).foldl (Subsequence.next nums) {}).close
    some (r.maxStartIndex, r.maxStartIndex + r.maxLength - 1)

section
variable {D : Type} (env : Env Nat UInt32)

/-- A trigger, and the word that the frame clock then has. -/
def snapshot (afe : Nat) : Prog Nat UInt32 D UInt32 := do
  let _ ← FrontEnd.doTrigger env
  SpyBuffer.getFrameClock env afe

def scanGeneric (afe taps : Nat) (setFunc : Nat → UInt32 → Prog Nat UInt32 D UInt32) : Prog Nat UInt32 D (List UInt32) :=
  (List.range taps).mapM fun i => do
    let _ ← setFunc afe (UInt32.ofNat i)
    snapshot env afe

/-- `setBestDelay`, with its debug text. The indices are below 2^24, where a `float` has them exactly. -/
def setBestDelay (afe delayTaps : Nat) : Prog Nat UInt32 D (UInt32 × String) := do
  let data ← scanGeneric env afe delayTaps (FrontEnd.setDelay env)
  match longestIdenticalSubsequenceIndices data with
  | none => throw "No delays available!"
  | some (firstDelay, lastDelay) =>
    let bestDelay := firstDelay + (lastDelay - firstDelay) / 2
    let debug := "  DELAY_SCAN window " ++ toString firstDelay ++ ".." ++ toString lastDelay ++ " (len=" ++
      toString (lastDelay - firstDelay + 1) ++ "), sample=0, word=0x" ++ hex (data.getD firstDelay 0) ++ ", best=" ++
      toString bestDelay ++ "\n"
    return (← FrontEnd.setDelay env afe (UInt32.ofNat bestDelay), debug)

/-- `setBestBitslip`: the last word, the debug text and `matched`. The indices in the debug text are hexadecimal
    as well. -/
def setBestBitslip (afe bitslipTaps : Nat) : Prog Nat UInt32 D (UInt32 × String × Bool) := do
  let initialBitslip ← FrontEnd.getBitslip env afe
  let data ← scanGeneric env afe bitslipTaps (FrontEnd.setBitslip env)
  let bestBitslip := data.findIdx? (· == kExpectedFclkWord)
  let finalBitslip := bestBitslip.elim initialBitslip UInt32.ofNat
  let words := data.zipIdx.map fun (word, i) => " [" ++ hexUpper (UInt32.ofNat i) ++ "]=0x" ++ hexUpper word
  let debug := "  BITSLIP_SCAN (sample=0, expect 0x00FF00FF):" ++ String.join words ++ "\n  chosen=" ++
    toString finalBitslip ++ " (initial " ++ toString initialBitslip ++ ")\n"
  let _ ← FrontEnd.setBitslip env afe finalBitslip
  let value ← snapshot env afe
  return (value, debug, bestBitslip.isSome)

end
end Daphne

/-- `cmd_alignAFEs_response`, the fields that `alignAFE` fills. -/
structure AlignAfesResponse where
  delay : List UInt32 := []
  bitslip : List UInt32 := []

namespace AlignAFE

def kVerificationReads : Nat := 4

/-- The state when a request runs. -/
abbrev DeviceState := State Nat UInt32 AlignAfesResponse

variable (env : Env Nat UInt32)

/-- One AFE: its part of the report, and its failure. -/
def alignBlock (afe : Nat) : Prog Nat UInt32 AlignAfesResponse (String × List String) := do
  let (_, delayDbg) ← Daphne.setBestDelay env afe 512
  let (alignedWord, bitslipDbg, matched) ← Daphne.setBestBitslip env afe 16
  let words ← (List.range kVerificationReads).mapM fun _ => Daphne.snapshot env afe
  let verificationOk := matched && words.all (· == kExpectedFclkWord)
  let scan := words.zipIdx.map fun (word, i) => " [" ++ toString i ++ "]=0x" ++ hexUpper word
  let report := delayDbg ++ bitslipDbg ++ "  VERIFY_SCAN:" ++ String.join scan ++ "\n"
  if !matched || alignedWord != kExpectedFclkWord || !verificationOk then
    return (report, ["AFE_" ++ toString afe ++ " did not converge to stable 0x00FF00FF alignment."])
  else return (report, [])

/-- One AFE's registers for the response, with their part of the report. -/
def readBack (afe : Nat) : Prog Nat UInt32 AlignAfesResponse String := do
  let delay ← FrontEnd.getDelay env afe
  let bitslip ← FrontEnd.getBitslip env afe
  modifyDriver fun r => { delay := r.delay ++ [delay], bitslip := r.bitslip ++ [bitslip] }
  return "AFE_" ++ toString afe ++ "\nDELAY: " ++ toString delay ++ "\nBITSLIP: " ++ toString bitslip ++ "\n"

/-- What `alignAFE` does once the delay controller is ready, up to the last write, and its answer. -/
def alignBlocks : Prog Nat UInt32 AlignAfesResponse (Bool × String) := do
  let blocks ← (List.range 5).mapM (alignBlock env)
  modifyDriver fun _ => {}
  let readings ← (List.range 5).mapM (readBack env)
  let report := String.join (blocks.map (·.1)) ++ String.join readings
  let failures := blocks.flatMap (·.2)
  if failures.isEmpty then return (true, "AFEs aligned.\n" ++ report)
  else return (false, "AFE alignment failed.\n" ++ String.join (failures.map (· ++ "\n")) ++ "\n" ++ report)

/-- The resets before the alignment. -/
def reset : Prog Nat UInt32 AlignAfesResponse Unit := do
  let _ ← FrontEnd.resetDelayCtrlValues env
  let _ ← FrontEnd.doResetDelayCtrl env
  let _ ← FrontEnd.doResetSerDesCtrl env
  let _ ← FrontEnd.setEnableDelayVtc env 0

/-- The `try` block of `alignAFE`: the result and `response_str`. -/
def tryAlign : Prog Nat UInt32 AlignAfesResponse (Bool × String) := do
  reset env
  let ready ← FrontEnd.waitForDelayCtrlReady env
  if ready then
    let answer ← alignBlocks env
    let _ ← FrontEnd.setEnableDelayVtc env 1
    return answer
  else throw "DELAYCTRL_READY did not assert after reset; refusing alignment."

end AlignAFE

/-- `alignAFE`: the result, `response_str` and the state. -/
def alignAFE (env : Env Nat UInt32) (s : AlignAFE.DeviceState) : (Bool × String) × AlignAFE.DeviceState :=
  match AlignAFE.tryAlign env s with
  | .ok answer t => (answer, t)
  | .error what t => ((false, "Error aligning AFE: " ++ what), t)

end DaphneZmq
