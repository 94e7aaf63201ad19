import DaphneZmq.Lib.Loop
import DaphneZmq.SpyBuffer
import Mathlib.Logic.Function.Basic

/-! # Bulk extractions of a spy buffer (SpyBuffer.cpp)

The loops of the three bulk extractions with their 32-bit counters, and the words that they read and the stores that they
make, in order. -/

namespace DaphneZmq.SpyBuffer
open Lib

/-- `channel_ptrs` as the words that they point to, and `current_channel_index`. -/
structure Channels where
  channel_ptrs : Fin 40 → Nat → UInt32
  current_channel_index : Fin 40

/-- An extraction under way: the counters of its loop, the words it has read and its stores. -/
structure Extraction where
  i : UInt32
  idx : UInt32
  reads : List Nat
  stores : List (Nat × UInt32)

namespace Extraction

def start (i idx : UInt32) : Extraction := ⟨i, idx, [], []⟩

variable (src : Nat → UInt32)

/-- A round of a loop over single words. -/
def word (e : Extraction) : Extraction where
  i := e.i + 1
  idx := e.idx + 1 + 1
  reads := e.reads ++ [e.i.toNat]
  stores := e.stores ++ [(e.idx.toNat, datal (src e.i.toNat)), ((e.idx + 1).toNat, datah (src e.i.toNat))]

/-- The stores of the lanes of four words at `src + i`, to `dst + idx`. -/
def lanes (i idx : Nat) : List (Nat × UInt32) :=
  [(idx, datal (src i)), (idx + 2, datal (src (i + 1))), (idx + 4, datal (src (i + 2))), (idx + 6, datal (src (i + 3))),
    (idx + 1, datah (src i)), (idx + 3, datah (src (i + 1))), (idx + 5, datah (src (i + 2))), (idx + 7, datah (src (i + 3)))]

/-- A round of a vector loop. -/
def vector (e : Extraction) : Extraction where
  i := e.i + 4
  idx := e.idx + 8
  reads := e.reads ++ [e.i.toNat, e.i.toNat + 1, e.i.toNat + 2, e.i.toNat + 3]
  stores := e.stores ++ lanes src e.i.toNat e.idx.toNat

/-- The last sample of an odd number. -/
def oddSample (nSamples : UInt32) (e : Extraction) : Extraction :=
  if nSamples % 2 ≠ 0 then
    { e with
      idx := e.idx + 1
      reads := e.reads ++ [(nSamples / 2).toNat]
      stores := e.stores ++ [(e.idx.toNat, datal (src (nSamples / 2).toNat))] }
  else e

/-- The loop over single words and the last sample. -/
def words (nSamples : UInt32) (e : Extraction) : Option Extraction :=
  (loop (fun e => e.i < nSamples / 2) (word src) (nSamples / 2).toNat e).map (oddSample src nSamples)

end Extraction

namespace Channels
open Extraction
variable (c : Channels) (nSamples : UInt32)

def extractMappedDataBulk : Option Extraction :=
  words (c.channel_ptrs c.current_channel_index) nSamples (start 0 0)

/-- `extractMappedDataBulkSIMD(dst, nSamples)`. -/
def extractMappedDataBulkSIMD : Option Extraction :=
  let src := c.channel_ptrs c.current_channel_index
  (loop (fun e => e.i + 3 < nSamples / 2) (vector src) (nSamples / 2).toNat (start 0 0)).bind (words src nSamples)

def simdLimit : UInt32 := nSamples / 2 / 4 * 4

/-- A round of the parallel loop of `extractMappedDataBulkSIMD(dst, nSamples, channel_index)`, on its own. -/
def parallelRound (channel_index : Fin 40) (i : UInt32) : Extraction :=
  vector (c.channel_ptrs channel_index) (start i (i * 2))

/-- The rounds, for `i` from 0 in steps of 4 below `simd_limit`. -/
def parallelRounds (channel_index : Fin 40) : List Extraction :=
  (List.range ((simdLimit nSamples).toNat / 4)).map fun k => c.parallelRound channel_index (UInt32.ofNat (k * 4))

/-- What it does after the parallel loop. -/
def leftovers (channel_index : Fin 40) : Option Extraction :=
  words (c.channel_ptrs channel_index) nSamples (start (simdLimit nSamples) (simdLimit nSamples * 2))

end Channels

/-- The destination after some stores. -/
def written (dst : Nat → UInt32) (stores : List (Nat × UInt32)) : Nat → UInt32 :=
  stores.foldl (fun dst w => Function.update dst w.1 w.2) dst

end DaphneZmq.SpyBuffer
