import DaphneZmq.Alignment
import DaphneZmq.Lib.Plateau

/-! What the scans of an AFE read and what they leave programmed. A block is the delay and bitslip register of
    an AFE and the count of its frame clock's reads; every access of `alignBlock` keeps the other blocks. -/

namespace DaphneZmq
open Lib Lib.Device

/-! ### The longest identical subsequence -/

namespace Daphne
variable {nums : List UInt32} {n start len : Nat}

/-- The variables before the round at `n` say what a scan knows there. -/
def Subsequence.Known (nums : List UInt32) (n : Nat) (r : Subsequence) : Prop :=
  Scanned nums n r.currentStartIndex r.maxStartIndex r.maxLength ∧ r.currentStartIndex + r.currentLength = n

theorem Subsequence.Known.close {r : Subsequence} (h : r.Known nums n) :
    if r.maxLength < n - r.currentStartIndex then
      r.close.maxStartIndex = r.currentStartIndex ∧ r.close.maxLength = n - r.currentStartIndex
    else r.close.maxStartIndex = r.maxStartIndex ∧ r.close.maxLength = r.maxLength := by
  have hlen : n - r.currentStartIndex = r.currentLength := by have := h.2; omega
  rw [hlen]
  by_cases hlt : r.maxLength < r.currentLength
  · rw [if_pos hlt, Subsequence.close, if_pos hlt]
    exact ⟨rfl, rfl⟩
  · rw [if_neg hlt, Subsequence.close, if_neg hlt]
    exact ⟨rfl, rfl⟩

theorem Subsequence.Known.next {r : Subsequence} (h : r.Known nums n) (hn : n < nums.length) :
    (r.next nums n).Known nums (n + 1) := by
  unfold Subsequence.next
  split
  · rename_i heq
    exact ⟨h.1.extend hn heq, by have := h.2; simp only; omega⟩
  · rename_i hne
    exact ⟨h.1.restart hn hne h.close, rfl⟩

theorem Subsequence.known_foldl (hne : 0 < nums.length) :
    ∀ k, k + 1 ≤ nums.length → Subsequence.Known nums (k + 1) ((List.range' 1 k).foldl (Subsequence.next nums) {})
  | 0, _ => ⟨.init hne, rfl⟩
  | k + 1, h => by
    rw [List.range'_1_concat, List.foldl_append, List.foldl_cons, List.foldl_nil, Nat.add_comm 1 k]
    exact (known_foldl hne k (by omega)).next (by omega)

/-- The leftmost of the longest subsequences is found. -/
theorem longestIdenticalSubsequenceIndices_spec (hne : 0 < nums.length) :
    ∃ first last, longestIdenticalSubsequenceIndices nums = some (first, last) ∧ LongestPlateau nums first last := by
  have hknown := Subsequence.known_foldl hne (nums.length - 1) (by omega)
  rw [Nat.sub_add_cancel hne] at hknown
  refine ⟨_, _, ?_, hknown.1.finish hknown.close⟩
  rw [longestIdenticalSubsequenceIndices, if_neg (by simpa using List.length_pos_iff.mp hne)]

end Daphne

/-! ### One AFE -/

namespace FrontEnd
variable {D : Type} {b : Bench} {afe : Nat} {s t : State Nat UInt32 D}

/-- The delay and the bitslip that an AFE has. -/
def regs (s : State Nat UInt32 D) (afe : Nat) : UInt32 × UInt32 :=
  ((frontendDelay afe).extract (s.cells (frontendDelay afe).addr),
    (frontendBitslip afe).extract (s.cells (frontendBitslip afe).addr))

/-- How often the frame clock of an AFE has been read. -/
def samples (s : State Nat UInt32 D) (afe : Nat) : Nat := s.reads (SpyBuffer.frameClock afe)

/-- The registers that the alignment of an AFE writes. -/
def blockCells (afe a : Nat) : Prop :=
  a = (frontendDelay afe).addr ∨ a = (frontendBitslip afe).addr ∨ a = frontendTrigger

theorem blockCells_delay : blockCells afe (frontendDelay afe).addr := Or.inl rfl

theorem blockCells_bitslip : blockCells afe (frontendBitslip afe).addr := Or.inr (Or.inl rfl)

theorem blockCells_trigger : blockCells afe frontendTrigger := Or.inr (Or.inr rfl)

/-- What the alignment of an AFE does. -/
def block (afe : Nat) : Effect Nat UInt32 D := .touches (blockCells afe) (· = SpyBuffer.frameClock afe)

theorem takes_setDelay (hafe : afe < 5) (v : UInt32) :
    Takes b.env (block afe) 4 (setDelay b.env afe v)
      (fun _ t => regs t afe = (v &&& (frontendDelay afe).mask, (regs s afe).2) ∧ samples t afe = samples s afe) s := by
  refine Reg.takes_writeBits (b.driven_delay hafe) (touched_afterWrite blockCells_delay _) ⟨?_, rfl⟩
  have hne : (frontendBitslip afe).addr ≠ (frontendDelay afe).addr := by
    simp only [frontendBitslip, frontendDelay]
    omega
  rw [regs, Reg.afterWriteBits_cells, Function.update_self, Function.update_of_ne hne, BitField.extract_insert, regs]

theorem takes_setBitslip (hafe : afe < 5) (v : UInt32) :
    Takes b.env (block afe) 4 (setBitslip b.env afe v)
      (fun _ t => regs t afe = ((regs s afe).1, v &&& (frontendBitslip afe).mask) ∧ samples t afe = samples s afe) s := by
  refine Reg.takes_writeBits (b.driven_bitslip hafe) (touched_afterWrite blockCells_bitslip _) ⟨?_, rfl⟩
  have hne : (frontendDelay afe).addr ≠ (frontendBitslip afe).addr := by
    simp only [frontendBitslip, frontendDelay]
    omega
  rw [regs, Reg.afterWriteBits_cells, Function.update_self, Function.update_of_ne hne, BitField.extract_insert, regs]

theorem takes_doTrigger :
    Takes b.env (block afe) 2 (doTrigger b.env) (fun _ t => regs t afe = regs s afe ∧ samples t afe = samples s afe) s := by
  refine (takes_write (touched_afterWrite blockCells_trigger _) (R := fun _ t => regs t afe = regs s afe ∧
    samples t afe = samples s afe) ⟨?_, rfl⟩).bind (k := 1) fun _ t ht => takes_read_cell b.driven_trigger ht
  have hdelay : (frontendDelay afe).addr ≠ frontendTrigger := by
    simp only [frontendDelay, frontendTrigger]
    omega
  have hbitslip : (frontendBitslip afe).addr ≠ frontendTrigger := by
    simp only [frontendBitslip, frontendTrigger]
    omega
  rw [regs, State.afterWrite_cells, Function.update_of_ne hdelay, Function.update_of_ne hbitslip, regs]

end FrontEnd

namespace Daphne
open FrontEnd
variable {D : Type} {b : Bench} {afe : Nat} {s t : State Nat UInt32 D}

theorem takes_snapshot (hafe : afe < 5) :
    Takes b.env (block afe) 3 (snapshot b.env afe)
      (fun word t => word = b.frameClock afe (samples s afe) ∧ regs t afe = regs s afe ∧
        samples t afe = samples s afe + 1) s := by
  refine takes_doTrigger.bind (k := 1) fun _ t ⟨hregs, hsamples⟩ => ?_
  have hsampled : (· = SpyBuffer.frameClock afe) (SpyBuffer.frameClock afe) := rfl
  refine takes_read_driven (b.driven_frameClock hafe) (touched_afterRead hsampled) ⟨?_, hregs, ?_⟩
  · rw [← hsamples, samples]
  · rw [← hsamples, samples, State.afterRead_reads, Function.update_self, samples]

/-- The words that `n` reads of the frame clock give, once it has been read `start` times. -/
def scan (b : Bench) (afe start n : Nat) : List UInt32 := (List.range n).map fun i => b.frameClock afe (start + i)

theorem scan_succ (start n : Nat) : scan b afe start (n + 1) = scan b afe start n ++ [b.frameClock afe (start + n)] := by
  rw [scan, List.range_succ, List.map_append]
  rfl

/-- A scan keeps what each setting of the scanned register keeps of an AFE. -/
theorem takes_scanGeneric (hafe : afe < 5) (taps : Nat) {setFunc : Nat → UInt32 → Prog Nat UInt32 D UInt32}
    (P : UInt32 × UInt32 → Prop) (hP : P (regs s afe))
    (hset : ∀ v (t : State Nat UInt32 D), P (regs t afe) →
      Takes b.env (block afe) 4 (setFunc afe v) (fun _ u => P (regs u afe) ∧ samples u afe = samples t afe) t) :
    Takes b.env (block afe) (taps * 7) (scanGeneric b.env afe taps setFunc)
      (fun data t => data = scan b afe (samples s afe) taps ∧ P (regs t afe) ∧ samples t afe = samples s afe + taps) s := by
  refine takes_mapM_range (fun i data t => data = scan b afe (samples s afe) i ∧ P (regs t afe) ∧
    samples t afe = samples s afe + i) ⟨rfl, hP, rfl⟩ fun i _ data t ⟨hdata, ht, hsamples⟩ => ?_
  refine (hset _ t ht).bind (k := 3) fun _ u ⟨hu, hsame⟩ => (takes_snapshot hafe).mono fun word v ⟨hword, hregs, hnext⟩ => ?_
  rw [scan_succ, hdata, hword, hsame, hsamples, hnext, hregs, hsame, hsamples]
  exact ⟨rfl, hu, rfl⟩

/-- For any number of taps: the last setting of the delay, and what the register then has. -/
theorem takes_setBestDelay_any (hafe : afe < 5) {taps : Nat} (hpos : 0 < taps) :
    Takes b.env (block afe) (taps * 7 + 4) (setBestDelay b.env afe taps)
      (fun a t => (∃ first last u, longestIdenticalSubsequenceIndices (scan b afe (samples s afe) taps) = some (first, last) ∧
          LongestPlateau (scan b afe (samples s afe) taps) first last ∧
          scanGeneric b.env afe taps (setDelay b.env) s = .ok (scan b afe (samples s afe) taps) u ∧
          setDelay b.env afe (UInt32.ofNat (first + (last - first) / 2)) u = .ok a.1 t ∧
          regs t afe = (UInt32.ofNat (first + (last - first) / 2) &&& (frontendDelay afe).mask, (regs s afe).2)) ∧
        samples t afe = samples s afe + taps) s := by
  have hset (v : UInt32) (t : State Nat UInt32 D) (ht : (regs t afe).2 = (regs s afe).2) :
      Takes b.env (block afe) 4 (setDelay b.env afe v)
        (fun _ u => (regs u afe).2 = (regs s afe).2 ∧ samples u afe = samples t afe) t :=
    (takes_setDelay hafe v).mono fun _ u ⟨hregs, hsame⟩ => ⟨by rw [hregs]; exact ht, hsame⟩
  have hscan := takes_scanGeneric hafe taps (fun r => r.2 = (regs s afe).2) rfl hset
  refine hscan.returned.bind ?_
  rintro data t ⟨⟨rfl, ht, hsamples⟩, hscanned⟩
  have hlen : (scan b afe (samples s afe) taps).length = taps := by simp [scan]
  obtain ⟨first, last, hfound, hlongest⟩ :=
    longestIdenticalSubsequenceIndices_spec (show 0 < (scan b afe (samples s afe) taps).length by omega)
  simp only [hfound]
  refine (takes_setDelay hafe _).returned.bind (k := 0) fun _ u ⟨⟨hregs, hsame⟩, hset⟩ => takes_pure _ ⟨?_, by rw [hsame, hsamples]⟩
  exact ⟨first, last, t, rfl, hlongest, hscanned, hset, by rw [hregs, ht]⟩

theorem takes_setBestDelay (hafe : afe < 5) {taps : Nat} (hpos : 0 < taps) (hle : taps ≤ 512) :
    Takes b.env (block afe) (taps * 7 + 4) (setBestDelay b.env afe taps)
      (fun _ t => (∃ first last, LongestPlateau (scan b afe (samples s afe) taps) first last ∧
          regs t afe = (UInt32.ofNat (first + (last - first) / 2), (regs s afe).2)) ∧
        samples t afe = samples s afe + taps) s := by
  refine (takes_setBestDelay_any hafe hpos).mono ?_
  rintro a t ⟨⟨first, last, -, -, hlongest, -, -, hregs⟩, hsamples⟩
  refine ⟨⟨first, last, hlongest, ?_⟩, hsamples⟩
  have hlt : first + (last - first) / 2 < 512 := by
    have := hlongest.plateau.le
    have := hlongest.plateau.lt
    have hlen : (scan b afe (samples s afe) taps).length = taps := by simp [scan]
    omega
  rw [hregs, BitField.and_mask_of_lt]
  rw [UInt32.toNat_ofNat', Nat.mod_eq_of_lt (by omega)]
  exact hlt

/-- What `setBestBitslip` leaves programmed: the first bitslip of the scan that gave the word, or the one that
    the AFE had before. -/
def ChosenBitslip (data : List UInt32) (initialBitslip chosen : UInt32) : Prop :=
  (∃ i : Nat, data[i]? = some kExpectedFclkWord ∧ (∀ j < i, data[j]? ≠ some kExpectedFclkWord) ∧
    chosen = UInt32.ofNat i) ∨ kExpectedFclkWord ∉ data ∧ chosen = initialBitslip

theorem findIdx?_spec (data : List UInt32) (initialBitslip : UInt32) :
    ∃ chosen, (data.findIdx? (· == kExpectedFclkWord)).elim initialBitslip UInt32.ofNat = chosen ∧
      ChosenBitslip data initialBitslip chosen ∧
      (data.findIdx? (· == kExpectedFclkWord)).isSome = decide (kExpectedFclkWord ∈ data) := by
  cases hfind : data.findIdx? (· == kExpectedFclkWord) with
  | none =>
    have hnot : kExpectedFclkWord ∉ data := fun hmem => by
      have := List.findIdx?_eq_none_iff.mp hfind _ hmem
      simp at this
    exact ⟨_, rfl, Or.inr ⟨hnot, rfl⟩, by simp [hnot]⟩
  | some i =>
    obtain ⟨hi, heq, hmin⟩ := List.findIdx?_eq_some_iff_getElem.mp hfind
    have hget : data[i]? = some kExpectedFclkWord := by
      rw [List.getElem?_eq_getElem hi, beq_iff_eq.mp heq]
    refine ⟨_, rfl, Or.inl ⟨i, hget, fun j hj hget' => ?_, rfl⟩, by simp [List.mem_of_getElem? hget]⟩
    have hne := hmin j hj
    rw [List.getElem?_eq_getElem (by omega), Option.some.injEq] at hget'
    simp [hget'] at hne

theorem ChosenBitslip.lt {data : List UInt32} {initialBitslip chosen : UInt32}
    (h : ChosenBitslip data initialBitslip chosen) (hlen : data.length ≤ 16) (hinit : initialBitslip.toNat < 16) :
    chosen.toNat < 16 := by
  rcases h with ⟨i, hget, -, rfl⟩ | ⟨-, rfl⟩
  · have hi : i < data.length := (List.getElem?_eq_some_iff.mp hget).1
    rw [UInt32.toNat_ofNat', Nat.mod_eq_of_lt (by omega)]
    omega
  · exact hinit

theorem takes_setBestBitslip (hafe : afe < 5) :
    Takes b.env (block afe) 120 (setBestBitslip b.env afe 16)
      (fun a t => a.1 = b.frameClock afe (samples s afe + 16) ∧
        a.2.2 = decide (kExpectedFclkWord ∈ scan b afe (samples s afe) 16) ∧
        (∃ chosen, ChosenBitslip (scan b afe (samples s afe) 16) (regs s afe).2 chosen ∧
          regs t afe = ((regs s afe).1, chosen)) ∧
        samples t afe = samples s afe + 17) s := by
  refine (Reg.takes_readBits (b.driven_bitslip hafe) (R := fun v t => v = (regs s afe).2 ∧ t = s.tick) ⟨rfl, rfl⟩).bind
    (k := 119) ?_
  rintro _ _ ⟨rfl, rfl⟩
  refine (takes_scanGeneric (s := s.tick) hafe 16 (fun r => r.1 = (regs s afe).1) rfl ?_).bind (k := 7) ?_
  · exact fun v t ht => (takes_setBitslip hafe v).mono fun _ u ⟨hregs, hsame⟩ => ⟨by rw [hregs]; exact ht, hsame⟩
  rintro data t ⟨rfl, ht, hsamples⟩
  obtain ⟨chosen, hchosen, hspec, hmatched⟩ :=
    findIdx?_spec (scan b afe (samples s.tick afe) 16) (regs s afe).2
  simp only [hchosen]
  refine (takes_setBitslip hafe chosen).bind (k := 3) fun _ u ⟨hregs, hsame⟩ => ?_
  refine (takes_snapshot hafe).bind (k := 0) fun word v ⟨hword, hkeep, hnext⟩ => takes_pure _ ⟨?_, hmatched, ⟨chosen, hspec, ?_⟩, ?_⟩
  · rw [hword, hsame, hsamples]
    rfl
  · have hlt := hspec.lt (by simp [scan]) (BitField.extract_lt (frontendBitslip afe) _)
    rw [hkeep, hregs, ht, BitField.and_mask_of_lt hlt]
  · rw [hnext, hsame, hsamples]
    rfl

end Daphne

namespace AlignAFE
open FrontEnd Daphne
variable {b : Bench} {afe : Nat} {s t : DeviceState}

/-- What the acceptance of an AFE asks for, once its frame clock has been read `start` times: the bitslip scan
    finds the word, and so do the read after it and the verification reads. -/
structure Accepted (b : Bench) (afe start : Nat) : Prop where
  matched : kExpectedFclkWord ∈ scan b afe (start + 512) 16
  aligned : b.frameClock afe (start + 528) = kExpectedFclkWord
  verified : ∀ i < kVerificationReads, b.frameClock afe (start + 529 + i) = kExpectedFclkWord

/-- What the alignment of an AFE leaves programmed, if it had the bitslip `initialBitslip`. -/
structure Programmed (b : Bench) (afe start : Nat) (initialBitslip : UInt32) (r : UInt32 × UInt32) : Prop where
  delay : ∃ first last, LongestPlateau (scan b afe start 512) first last ∧
    r.1 = UInt32.ofNat (first + (last - first) / 2)
  bitslip : ChosenBitslip (scan b afe (start + 512) 16) initialBitslip r.2

/-- The condition of the source for a failure. -/
theorem accepted_iff {b : Bench} {afe start : Nat} {alignedWord : UInt32} {matched : Bool} {words : List UInt32}
    (hword : alignedWord = b.frameClock afe (start + 512 + 16))
    (hmatched : matched = decide (kExpectedFclkWord ∈ scan b afe (start + 512) 16))
    (hwords : words = scan b afe (start + 529) kVerificationReads) :
    (!matched || alignedWord != kExpectedFclkWord || !(matched && words.all (· == kExpectedFclkWord))) = false ↔
      Accepted b afe start := by
  have hall : words.all (· == kExpectedFclkWord) = true ↔
      ∀ i < kVerificationReads, b.frameClock afe (start + 529 + i) = kExpectedFclkWord := by
    simp [hwords, scan]
  simp only [Bool.or_eq_false_iff, Bool.not_eq_false', bne_eq_false_iff_eq, Bool.and_eq_true, hall, hmatched,
    decide_eq_true_eq, hword]
  exact ⟨fun ⟨⟨hmem, haligned⟩, _, hverified⟩ => ⟨hmem, haligned, hverified⟩,
    fun h => ⟨⟨h.matched, h.aligned⟩, h.matched, h.verified⟩⟩

theorem takes_alignBlock (hafe : afe < 5) :
    Takes b.env (block afe) 3720 (alignBlock b.env afe)
      (fun a t => (a.2 = [] ↔ Accepted b afe (samples s afe)) ∧
        Programmed b afe (samples s afe) (regs s afe).2 (regs t afe) ∧ samples t afe = samples s afe + 533) s := by
  rw [show 3720 = 512 * 7 + 4 + 132 by rfl]
  refine (takes_setBestDelay hafe (by decide) (Nat.le_refl 512)).bind (k := 132) ?_
  rintro ⟨_, delayDbg⟩ t ⟨⟨first, last, hlongest, hdelay⟩, ht⟩
  refine (takes_setBestBitslip hafe).bind (k := 12) ?_
  rintro ⟨alignedWord, bitslipDbg, matched⟩ u ⟨hword, hmatched, ⟨chosen, hchosen, hbitslip⟩, hu⟩
  rw [ht] at hword hmatched hchosen hu
  rw [hdelay] at hbitslip hchosen
  have hverify : Takes b.env (block afe) (kVerificationReads * 3)
      ((List.range kVerificationReads).mapM fun _ => snapshot b.env afe)
      (fun words v => words = scan b afe (samples s afe + 529) kVerificationReads ∧ regs v afe = regs u afe ∧
        samples v afe = samples s afe + 529 + kVerificationReads) u := by
    refine takes_mapM_range (fun i words v => words = scan b afe (samples s afe + 529) i ∧ regs v afe = regs u afe ∧
      samples v afe = samples s afe + 529 + i) ⟨rfl, rfl, by rw [hu]⟩ fun i _ words v ⟨hwords, hkeep, hv⟩ => ?_
    refine (takes_snapshot hafe).mono fun word x ⟨hx, hkeep', hnext⟩ => ?_
    rw [scan_succ, hwords, hx, hkeep', hkeep, hnext, hv]
    exact ⟨rfl, rfl, rfl⟩
  refine hverify.bind (k := 0) ?_
  rintro words v ⟨hwords, hkeep, hv⟩
  have hacc := accepted_iff hword hmatched hwords
  have hprogrammed : Programmed b afe (samples s afe) (regs s afe).2 (regs v afe) := by
    rw [hkeep, hbitslip]
    exact ⟨⟨first, last, hlongest, rfl⟩, hchosen⟩
  dsimp only
  split
  · rename_i hfailed
    refine takes_pure _ ⟨⟨fun h => absurd h (List.cons_ne_nil _ _), fun h => ?_⟩, hprogrammed, hv⟩
    rw [hacc.mpr h] at hfailed
    exact absurd hfailed Bool.false_ne_true
  · rename_i hok
    exact takes_pure _ ⟨⟨fun _ => hacc.mp (Bool.eq_false_iff.mpr hok), fun _ => rfl⟩, hprogrammed, hv⟩

end AlignAFE
end DaphneZmq
