import Mathlib.Data.List.Basic

/-! # `SpyBuffer` (SpyBuffer.hpp, SpyBuffer.cpp)

A spy buffer holds two 14-bit samples in each 32-bit word. An extraction is the list of its stores into the
destination, `(index, value)`, in the order of the source's loops. Every index is at most `nSamples`, so the
32-bit arithmetic of the source does not wrap. -/

namespace DaphneZmq.SpyBuffer

/-- DATAL: bits 2 to 15 of a word. -/
def datal (word : UInt32) : UInt32 := (word >>> 2) &&& 0x3FFF

/-- DATAH: bits 18 to 31 of a word. -/
def datah (word : UInt32) : UInt32 := (word >>> 18) &&& 0x3FFF

/-- Sample `sample` of the words at `ptr`. -/
def getMappedData (ptr : Nat → UInt32) (sample : Nat) : UInt32 :=
  (ptr (sample / 2) >>> UInt32.ofNat (2 + 16 * (sample % 2))) &&& 0x3FFF

/-- One iteration of the vector loop: the words `i` to `i + 3`, first their low samples, then their high
    ones. -/
def simdStores (src : Nat → UInt32) (i : Nat) : List (Nat × UInt32) :=
  let idx := i * 2
  [(idx, datal (src i)), (idx + 2, datal (src (i + 1))), (idx + 4, datal (src (i + 2))), (idx + 6, datal (src (i + 3))),
   (idx + 1, datah (src i)), (idx + 3, datah (src (i + 1))), (idx + 5, datah (src (i + 2))), (idx + 7, datah (src (i + 3)))]

/-- `extractMappedDataBulkSIMD(dst, nSamples, channel_index)`, with `src` the words of the channel. -/
def extractMappedDataBulkSIMD (src : Nat → UInt32) (nSamples : Nat) : List (Nat × UInt32) :=
  let wordCount := nSamples / 2
  let simdLimit := wordCount / 4 * 4
  ((List.range (wordCount / 4)).flatMap fun v => simdStores src (v * 4)) ++
    ((List.range' simdLimit (wordCount - simdLimit)).flatMap fun i =>
      [(i * 2, datal (src i)), (i * 2 + 1, datah (src i))]) ++
    if nSamples % 2 = 1 then [(wordCount * 2, datal (src wordCount))] else []

/-- The stores at `dst = data + offset`. -/
def store (data : List UInt32) (offset : Nat) (stores : List (Nat × UInt32)) : List UInt32 :=
  stores.foldl (fun data w => data.set (offset + w.1) w.2) data

/-- The first `nSamples` samples of the words at `ptr`. -/
def samples (ptr : Nat → UInt32) (nSamples : Nat) : List UInt32 := (List.range nSamples).map (getMappedData ptr)

@[simp] theorem samples_length (ptr : Nat → UInt32) (n : Nat) : (samples ptr n).length = n := by
  simp [samples]

theorem getMappedData_even (ptr : Nat → UInt32) (i : Nat) : getMappedData ptr (i * 2) = datal (ptr i) := by
  simp [getMappedData, datal]

theorem getMappedData_odd (ptr : Nat → UInt32) (i : Nat) : getMappedData ptr (i * 2 + 1) = datah (ptr i) := by
  have h1 : (i * 2 + 1) / 2 = i := by omega
  have h2 : (i * 2 + 1) % 2 = 1 := by omega
  simp [getMappedData, datah, h1, h2]

/-- The vector loop's iteration at `i` stores the samples `i * 2` to `i * 2 + 7`. -/
theorem mem_simdStores {src : Nat → UInt32} {i : Nat} {w : Nat × UInt32} :
    w ∈ simdStores src i ↔ (i * 2 ≤ w.1 ∧ w.1 < i * 2 + 8) ∧ w.2 = getMappedData src w.1 := by
  have even := getMappedData_even src
  have odd := getMappedData_odd src
  obtain ⟨k, v⟩ := w
  simp only [simdStores, List.mem_cons, Prod.mk.injEq, List.not_mem_nil, or_false]
  constructor
  · rintro (⟨rfl, rfl⟩ | ⟨rfl, rfl⟩ | ⟨rfl, rfl⟩ | ⟨rfl, rfl⟩ | ⟨rfl, rfl⟩ | ⟨rfl, rfl⟩ | ⟨rfl, rfl⟩ | ⟨rfl, rfl⟩)
    · exact ⟨by omega, (even i).symm⟩
    · exact ⟨by omega, by rw [← even]; congr 1; omega⟩
    · exact ⟨by omega, by rw [← even]; congr 1; omega⟩
    · exact ⟨by omega, by rw [← even]; congr 1; omega⟩
    · exact ⟨by omega, (odd i).symm⟩
    · exact ⟨by omega, by rw [← odd]; congr 1; omega⟩
    · exact ⟨by omega, by rw [← odd]; congr 1; omega⟩
    · exact ⟨by omega, by rw [← odd]; congr 1; omega⟩
  · rintro ⟨⟨hlo, hhi⟩, rfl⟩
    obtain ⟨j, rfl⟩ : ∃ j, k = i * 2 + j := ⟨k - i * 2, by omega⟩
    have hj : j < 8 := by omega
    have e1 := even (i + 1); have e2 := even (i + 2); have e3 := even (i + 3)
    have o1 := odd (i + 1); have o2 := odd (i + 2); have o3 := odd (i + 3)
    simp only [Nat.add_mul, Nat.one_mul, Nat.reduceMul, Nat.add_assoc, Nat.reduceAdd] at e1 e2 e3 o1 o2 o3
    match j, hj with
    | 0, _ => simp [even]
    | 1, _ => simp [odd]
    | 2, _ => simp [e1]
    | 3, _ => simp [o1]
    | 4, _ => simp [e2]
    | 5, _ => simp [o2]
    | 6, _ => simp [e3]
    | 7, _ => simp [o3]

/-- The stores of an extraction are exactly one sample for each index below `n`. -/
theorem mem_extractMappedDataBulkSIMD {src : Nat → UInt32} {n : Nat} {w : Nat × UInt32} :
    w ∈ extractMappedDataBulkSIMD src n ↔ w.1 < n ∧ w.2 = getMappedData src w.1 := by
  have even := getMappedData_even src
  have odd := getMappedData_odd src
  obtain ⟨k, v⟩ := w
  simp only [extractMappedDataBulkSIMD, List.mem_append, List.mem_flatMap, List.mem_range, mem_simdStores,
    List.mem_range'_1, List.mem_cons, Prod.mk.injEq, List.not_mem_nil, or_false]
  constructor
  · rintro ((⟨x, hx, h, rfl⟩ | ⟨i, hi, ⟨rfl, rfl⟩ | ⟨rfl, rfl⟩⟩) | h)
    · exact ⟨by omega, rfl⟩
    · exact ⟨by omega, (even i).symm⟩
    · exact ⟨by omega, (odd i).symm⟩
    · split at h
      · obtain ⟨rfl, rfl⟩ := by simpa using h
        exact ⟨by omega, (even _).symm⟩
      · simp at h
  · rintro ⟨hk, rfl⟩
    by_cases hsimd : k / 2 < n / 2 / 4 * 4
    · exact Or.inl (Or.inl ⟨k / 8, by omega, by omega, rfl⟩)
    by_cases hword : k / 2 < n / 2
    · refine Or.inl (Or.inr ⟨k / 2, by omega, ?_⟩)
      rcases Nat.mod_two_eq_zero_or_one k with h | h
      · have hk : k = k / 2 * 2 := by omega
        exact Or.inl ⟨hk, by rw [← even, ← hk]⟩
      · have hk : k = k / 2 * 2 + 1 := by omega
        exact Or.inr ⟨hk, by rw [← odd, ← hk]⟩
    · have hodd : n % 2 = 1 := by omega
      have hk : k = n / 2 * 2 := by omega
      refine Or.inr ?_
      rw [if_pos hodd]
      simpa [hk] using even _

theorem store_length (data : List UInt32) (offset : Nat) (ws : List (Nat × UInt32)) :
    (store data offset ws).length = data.length := by
  induction ws generalizing data with
  | nil => rfl
  | cons w ws ih => simp only [store, List.foldl_cons] at ih ⊢; rw [ih, List.length_set]

/-- Stores that all take their value from `f` leave `f` where they store, and the rest as it was. -/
theorem store_getElem? {f : Nat → UInt32} {offset : Nat} {ws : List (Nat × UInt32)} (hf : ∀ w ∈ ws, w.2 = f w.1)
    {data : List UInt32} {k : Nat} (hk : k < data.length) :
    (store data offset ws)[k]? = if ∃ w ∈ ws, offset + w.1 = k then some (f (k - offset)) else data[k]? := by
  induction ws generalizing data with
  | nil => simp [store]
  | cons w ws ih =>
    have hk' : k < (data.set (offset + w.1) w.2).length := by simpa using hk
    have ih := ih (fun x hx => hf x (List.mem_cons_of_mem _ hx)) hk'
    simp only [store, List.foldl_cons, List.mem_cons, exists_eq_or_imp] at ih ⊢
    rw [ih]
    by_cases hlater : ∃ w ∈ ws, offset + w.1 = k
    · simp [hlater]
    · by_cases hw : offset + w.1 = k
      · subst hw
        simp [hk, hf w List.mem_cons_self]
      · simp [hlater, hw]

/-- An extraction into a buffer replaces the samples at its offset. -/
theorem store_extract {src : Nat → UInt32} {n : Nat} (front rest : List UInt32) (hn : n ≤ rest.length) :
    store (front ++ rest) front.length (extractMappedDataBulkSIMD src n) = front ++ samples src n ++ rest.drop n := by
  apply List.ext_getElem?
  intro k
  by_cases hk : k < (front ++ rest).length
  · rw [store_getElem? (fun w hw => (mem_extractMappedDataBulkSIMD.mp hw).2) hk]
    have hmem : (∃ w ∈ extractMappedDataBulkSIMD src n, front.length + w.1 = k) ↔
        front.length ≤ k ∧ k < front.length + n := by
      constructor
      · rintro ⟨w, hw, rfl⟩
        have := (mem_extractMappedDataBulkSIMD.mp hw).1
        omega
      · rintro ⟨h1, h2⟩
        exact ⟨(k - front.length, getMappedData src (k - front.length)),
          mem_extractMappedDataBulkSIMD.mpr ⟨by simp only; omega, rfl⟩, by simp only; omega⟩
    simp only [hmem]
    by_cases hlo : k < front.length
    · rw [if_neg (by omega), List.append_assoc, List.getElem?_append_left hlo, List.getElem?_append_left hlo]
    by_cases hhi : k < front.length + n
    · rw [if_pos ⟨by omega, hhi⟩, List.getElem?_append_left (by simp; omega), List.getElem?_append_right (by omega)]
      simp [samples, show k - front.length < n by omega]
    · rw [if_neg (by omega), List.getElem?_append_right (by omega), List.getElem?_append_right (by simp; omega)]
      simp only [List.length_append, samples_length, List.getElem?_drop]
      congr 1
      omega
  · rw [List.getElem?_eq_none (by rw [store_length]; omega), List.getElem?_eq_none]
    simp only [List.length_append, samples_length, List.length_drop] at hk ⊢
    omega

end DaphneZmq.SpyBuffer
