import DaphneZmq.Lib.Digits
import DaphneZmq.Theorems.Srv
import Mathlib.Data.List.TakeWhile
import Mathlib.Tactic.Ring

/-! The tokens of the register server. What `parse_u32_token` accepts are the literals of C behind an optional sign, where the
protocol has hexadecimal numerals. -/

namespace DaphneZmq
open Lib
open Lib.Wire (Bytes utf8)

namespace Srv

variable {base : Nat} {bytes token : Bytes}

/-! ### Numerals -/

def digit (b : UInt8) : Nat := (digitValue b).getD 0

theorem isDigit_iff {b : UInt8} : isDigit base b = true ↔ ∃ d, digitValue b = some d ∧ d < base := by
  simp [isDigit, Option.any_eq_true]

theorem digit_lt {b : UInt8} (h : isDigit base b = true) : digit b < base := by
  obtain ⟨d, hd, hlt⟩ := isDigit_iff.mp h
  rw [digit, hd]
  exact hlt

theorem isDigit_of_digit_lt {b : UInt8} {base' : Nat} (h : isDigit base' b = true) (hlt : digit b < base) :
    isDigit base b = true := by
  obtain ⟨d, hd, -⟩ := isDigit_iff.mp h
  refine isDigit_iff.mpr ⟨d, hd, ?_⟩
  rwa [digit, hd] at hlt

theorem isDigit_mono {base' : Nat} (hle : base ≤ base') {b : UInt8} (h : isDigit base b = true) : isDigit base' b = true :=
  isDigit_of_digit_lt h (Nat.lt_of_lt_of_le (digit_lt h) hle)

/-- The value of the digits, from the last one on. -/
theorem numeral_eq_some_iff {n : Nat} : numeral base bytes = some n ↔
    bytes ≠ [] ∧ (∀ b ∈ bytes, isDigit base b = true) ∧ Nat.ofDigits base (bytes.reverse.map digit) = n := by
  have hvalue (h : ∀ b ∈ bytes, isDigit base b = true) :
      (readDigits base bytes).1 = Nat.ofDigits base (bytes.reverse.map digit) := by
    have htake : bytes.takeWhile (isDigit base) = bytes := List.takeWhile_eq_self_iff.mpr h
    rw [readDigits, htake, List.map_reverse, ← Digits.foldl_eq_ofDigits, List.foldl_map]
    rfl
  rw [numeral]
  by_cases h : bytes ≠ [] ∧ bytes.all (isDigit base) = true
  · have hall := List.all_eq_true.mp h.2
    rw [if_pos h, Option.some.injEq, hvalue hall]
    exact ⟨fun heq => ⟨h.1, hall, heq⟩, fun ⟨_, _, heq⟩ => heq⟩
  · rw [if_neg h]
    constructor
    · intro heq
      cases heq
    · rintro ⟨hne, hall, -⟩
      exact absurd ⟨hne, List.all_eq_true.mpr hall⟩ h

/-! ### Two bases -/

/-- The digits of a numeral, with the last one apart. -/
theorem numeral_concat_eq_some_iff {init : Bytes} {b : UInt8} {n : Nat} : numeral base (init ++ [b]) = some n ↔
    (∀ c ∈ init ++ [b], isDigit base c = true) ∧ Nat.ofDigits base (digit b :: init.reverse.map digit) = n := by
  have hrev : (init ++ [b]).reverse.map digit = digit b :: init.reverse.map digit := by simp
  rw [numeral_eq_some_iff, hrev]
  exact and_iff_right (by simp)

theorem exists_concat_of_numeral {n : Nat} (h : numeral base token = some n) : ∃ init b, token = init ++ [b] :=
  ⟨_, _, (List.dropLast_concat_getLast (numeral_eq_some_iff.mp h).1).symm⟩

theorem zeros_iff {init : Bytes} : (∀ x ∈ init.reverse.map digit, x = 0) ↔ ∀ b ∈ init, digit b = 0 := by simp

/-- Where a hexadecimal numeral is one of a smaller base too, with the same value. -/
theorem numeral_eq_iff {n : Nat} (hlow : 8 ≤ base) (hbase : base < 16) (h : numeral 16 token = some n) :
    numeral base token = some n ↔ (∀ b ∈ token.dropLast, digit b = 0) ∧ n < base := by
  obtain ⟨init, b, rfl⟩ := exists_concat_of_numeral h
  obtain ⟨hall, hvalue⟩ := numeral_concat_eq_some_iff.mp h
  have hiff := Digits.ofDigits_eq_iff hbase (digit b) (init.reverse.map digit)
  rw [zeros_iff, hvalue] at hiff
  -- with nothing but zeros before it, the last digit is the value
  have hlast (hz : ∀ b ∈ init, digit b = 0) : n = digit b := by
    have hnone := (Digits.ofDigits_eq_zero_iff (b := 16) (by decide)).mpr (zeros_iff.mpr hz)
    rw [← hvalue, Nat.ofDigits_cons, hnone]
    simp
  rw [List.dropLast_concat, numeral_concat_eq_some_iff, hiff]
  constructor
  · rintro ⟨hdigits, hz⟩
    refine ⟨hz, ?_⟩
    rw [hlast hz]
    exact digit_lt (hdigits b (by simp))
  · rintro ⟨hz, hlt⟩
    refine ⟨fun c hc => ?_, hz⟩
    rcases List.mem_append.mp hc with hc' | hc'
    · exact isDigit_of_digit_lt (hall c hc) (by rw [hz c hc']; omega)
    · rw [List.mem_singleton.mp hc'] at hc ⊢
      exact isDigit_of_digit_lt (hall b hc) (by rw [← hlast hz]; exact hlt)

theorem zeros_of_lt {n : Nat} (h : numeral 16 token = some n) (hlt : n < 16) : ∀ b ∈ token.dropLast, digit b = 0 := by
  obtain ⟨init, b, rfl⟩ := exists_concat_of_numeral h
  obtain ⟨-, hvalue⟩ := numeral_concat_eq_some_iff.mp h
  rw [Nat.ofDigits_cons] at hvalue
  have hnone : Nat.ofDigits 16 (init.reverse.map digit) = 0 := by
    have hsum : digit b + 16 * Nat.ofDigits 16 (init.reverse.map digit) = n := hvalue
    omega
  rw [List.dropLast_concat]
  exact zeros_iff.mp ((Digits.ofDigits_eq_zero_iff (by decide)).mp hnone)

theorem eq_zero_of_digit_eq_zero {b : UInt8} (hb : isDigit 16 b = true) (h : digit b = 0) : b = 0x30 := by
  obtain ⟨d, hd, -⟩ := isDigit_iff.mp hb
  rw [digit, hd] at h
  obtain rfl : d = 0 := h
  rw [digitValue] at hd
  by_cases hdec : (0x30 ≤ b && b ≤ 0x39) = true
  · rw [if_pos hdec, Option.some.injEq] at hd
    have hle := UInt8.le_iff_toNat_le.mp (of_decide_eq_true (Bool.and_eq_true_iff.mp hdec).1)
    have hzero : (0x30 : UInt8).toNat = 0x30 := rfl
    apply UInt8.toNat_inj.mp
    omega
  · rw [if_neg hdec] at hd
    by_cases hlet : (0x61 ≤ toLower b && toLower b ≤ 0x7A) = true
    · rw [if_pos hlet, Option.some.injEq] at hd
      have hle := UInt8.le_iff_toNat_le.mp (of_decide_eq_true (Bool.and_eq_true_iff.mp hlet).1)
      have : (0x61 : UInt8).toNat = 0x61 := rfl
      omega
    · rw [if_neg hlet] at hd
      cases hd

/-- What the base goes by, without a prefix. -/
theorem basePrefix_of_bare (h : hasHexPrefix token = false) :
    basePrefix token = (if token.head? = some 0x30 then 8 else 10, 0) := by
  rw [basePrefix.eq_def]
  split
  · rename_i x d rest
    have hx : (toLower x == 0x78) = false := h
    simp [hx]
  · simp
  · rename_i hne
    have hhead : token.head? ≠ some 0x30 := by
      intro hhead
      rcases token with _ | ⟨c, rest⟩
      · cases hhead
      · exact hne rest (by rw [Option.some.inj hhead])
    rw [if_neg hhead]

/-- Without a prefix a hexadecimal numeral is read as one only if it is a single digit behind zeros, or a decimal digit. -/
theorem literal_eq_iff {n : Nat} (hbare : hasHexPrefix token = false) (h : numeral 16 token = some n) :
    literal token = some n ↔ n < 8 ∨ token.length = 1 ∧ n < 10 := by
  obtain ⟨hne, hall, -⟩ := numeral_eq_some_iff.mp h
  rw [literal, basePrefix_of_bare hbare, List.drop_zero]
  by_cases hhead : token.head? = some 0x30
  · rw [if_pos hhead, numeral_eq_iff (by decide) (by decide) h]
    constructor
    · rintro ⟨-, hlt⟩
      exact Or.inl hlt
    · rintro (hlt | ⟨hlength, hlt⟩)
      · exact ⟨zeros_of_lt h (by omega), hlt⟩
      · obtain ⟨b, rfl⟩ := List.length_eq_one_iff.mp hlength
        obtain rfl : b = 0x30 := Option.some.inj hhead
        have hvalue : n = 0 := Option.some.inj (h.symm.trans (by decide))
        exact ⟨zeros_of_lt h (by omega), by omega⟩
  · rw [if_neg hhead, numeral_eq_iff (by decide) (by decide) h]
    constructor
    · rintro ⟨hzeros, hlt⟩
      refine Or.inr ⟨?_, hlt⟩
      rcases token with _ | ⟨b, _ | ⟨c, rest⟩⟩
      · exact absurd rfl hne
      · rfl
      · have hb := eq_zero_of_digit_eq_zero (hall b (by simp)) (hzeros b (by simp))
        exact absurd (by rw [hb]; rfl) hhead
    · rintro (hlt | ⟨-, hlt⟩)
      · exact ⟨zeros_of_lt h (by omega), by omega⟩
      · exact ⟨zeros_of_lt h (by omega), hlt⟩

/-! ### The parser -/

def signBytes (token : Bytes) : Nat := if token.head? = some 0x2B ∨ token.head? = some 0x2D then 1 else 0

/-- What the parser makes of the literal behind the sign. -/
def signed (token : Bytes) (n : Nat) : Option UInt32 :=
  if n < 2 ^ 64 then
    let raw := if token.head? = some 0x2D then (2 ^ 64 - n) % 2 ^ 64 else n
    if raw < 2 ^ 32 then some (UInt32.ofNat raw) else none
  else none

theorem skipped_le (bytes : Bytes) : (basePrefix bytes).2 ≤ bytes.length := by
  rw [basePrefix.eq_def]
  split
  · split <;> simp
  · simp
  · simp

theorem numeral_eq_readDigits (base : Nat) (bytes : Bytes) : numeral base bytes =
    if (readDigits base bytes).2 ≠ 0 ∧ (readDigits base bytes).2 = bytes.length then some (readDigits base bytes).1 else none := by
  have hwhole : (readDigits base bytes).2 = bytes.length ↔ bytes.all (isDigit base) = true := by
    show (bytes.takeWhile (isDigit base)).length = bytes.length ↔ _
    rw [List.all_eq_true, ← List.takeWhile_eq_self_iff]
    exact ⟨fun h => (List.takeWhile_prefix _).eq_of_length h, fun h => by rw [h]⟩
  rw [numeral]
  by_cases hall : bytes.all (isDigit base) = true
  · have hlength := hwhole.mpr hall
    by_cases hnil : bytes = []
    · subst hnil
      rfl
    · have hne : (readDigits base bytes).2 ≠ 0 := by
        rw [hlength]
        exact mt List.length_eq_zero_iff.mp hnil
      rw [if_pos ⟨hnil, hall⟩, if_pos ⟨hne, hlength⟩]
  · rw [if_neg fun h => hall h.2, if_neg fun h => hall (hwhole.mp h.2)]

theorem stoul_eq {skipped value digits : Nat} (hbase : basePrefix (token.drop (signBytes token)) = (base, skipped))
    (hread : readDigits base (token.drop (signBytes token + skipped)) = (value, digits)) : stoul token =
      if digits = 0 then .error (utf8 "stoul") else if value ≥ 2 ^ 64 then .error (utf8 "stoul")
      else .ok (if token.head? = some 0x2D then (2 ^ 64 - value) % 2 ^ 64 else value, signBytes token + skipped + digits) := by
  unfold signBytes at hbase hread ⊢
  rw [stoul]
  simp only [hbase, hread]

theorem parseU32Token_of_stoul (token : Bytes) : (parseU32Token token).toOption = if token = [] then none else
    match stoul token with
    | .error _ => none
    | .ok (raw, consumed) => if consumed = token.length ∧ raw < 2 ^ 32 then some (UInt32.ofNat raw) else none := by
  rw [parseU32Token]
  by_cases hnil : token = []
  · rw [if_pos hnil, if_pos hnil]
    rfl
  rw [if_neg hnil, if_neg hnil]
  rcases stoul token with e | ⟨raw, consumed⟩
  · rfl
  show Except.toOption (if consumed ≠ token.length then _ else if raw ≥ 2 ^ 32 then _ else _) = _
  by_cases hwhole : consumed = token.length
  · rw [if_neg (not_not.mpr hwhole)]
    by_cases hraw : raw ≥ 2 ^ 32
    · rw [if_pos hraw]
      exact (if_neg fun h => Nat.not_lt_of_le hraw h.2).symm
    · rw [if_neg hraw]
      exact (if_pos ⟨hwhole, Nat.lt_of_not_le hraw⟩).symm
  · rw [if_pos hwhole]
    exact (if_neg fun h => hwhole h.1).symm

/-- The token is taken as a whole if all of it behind the sign and the prefix is digits. -/
theorem parseU32Token_eq (token : Bytes) :
    (parseU32Token token).toOption = (literal (token.drop (signBytes token))).bind (signed token) := by
  rw [parseU32Token_of_stoul]
  by_cases hnil : token = []
  · subst hnil
    rfl
  obtain ⟨base, skipped, hbase⟩ : ∃ base skipped, basePrefix (token.drop (signBytes token)) = (base, skipped) := ⟨_, _, rfl⟩
  obtain ⟨value, digits, hread⟩ :
      ∃ value digits, readDigits base (token.drop (signBytes token + skipped)) = (value, digits) := ⟨_, _, rfl⟩
  have hsign : signBytes token ≤ token.length := by
    rw [signBytes]
    split
    · exact List.length_pos_iff.mpr hnil
    · exact Nat.zero_le _
  have hskipped : skipped ≤ token.length - signBytes token := by
    have hle := skipped_le (token.drop (signBytes token))
    rwa [List.length_drop, hbase] at hle
  have hliteral : literal (token.drop (signBytes token)) =
      if digits ≠ 0 ∧ digits = token.length - (signBytes token + skipped) then some value else none := by
    rw [literal, numeral_eq_readDigits, List.drop_drop, hbase, hread, List.length_drop]
  rw [if_neg hnil, stoul_eq hbase hread]
  by_cases hdigits : digits = 0
  · rw [if_neg fun h => h.1 hdigits] at hliteral
    rw [if_pos hdigits, hliteral]
    rfl
  rw [if_neg hdigits]
  by_cases hwhole : digits = token.length - (signBytes token + skipped)
  · rw [if_pos ⟨hdigits, hwhole⟩] at hliteral
    rw [hliteral, Option.bind_some, signed]
    have hconsumed : signBytes token + skipped + digits = token.length := by omega
    by_cases hlarge : value ≥ 2 ^ 64
    · rw [if_pos hlarge, if_neg (Nat.not_lt_of_le hlarge)]
    · rw [if_neg hlarge, if_pos (Nat.lt_of_not_le hlarge)]
      simp only [hconsumed, true_and]
  · have hconsumed : signBytes token + skipped + digits ≠ token.length := by omega
    rw [if_neg fun h => hwhole h.2] at hliteral
    rw [hliteral, Option.bind_none]
    by_cases hlarge : value ≥ 2 ^ 64
    · rw [if_pos hlarge]
    · rw [if_neg hlarge]
      exact if_neg fun h => hconsumed h.1

/-! ### What is meant -/

theorem meaning_eq (token : Bytes) :
    meaning token = (hexNumeral token).bind fun n => if n < 2 ^ 32 then some (UInt32.ofNat n) else none := by
  rw [meaning]
  cases hexNumeral token with
  | none => rfl
  | some n =>
    by_cases h : n < 2 ^ 32
    · rw [Option.filter_some, if_pos (decide_eq_true h), Option.bind_some, if_pos h]
      rfl
    · rw [Option.filter_some, if_neg (by simpa using h), Option.bind_some, if_neg h]
      rfl

theorem signed_unsigned (hminus : token.head? ≠ some 0x2D) (n : Nat) :
    signed token n = if n < 2 ^ 32 then some (UInt32.ofNat n) else none := by
  rw [signed, if_neg hminus]
  by_cases hlarge : n < 2 ^ 64
  · rw [if_pos hlarge]
  · have : ¬n < 2 ^ 32 := by omega
    rw [if_neg hlarge, if_neg this]

theorem signed_minus_eq_none_iff (rest : Bytes) (n : Nat) :
    signed (0x2D :: rest) n = none ↔ 0 < n ∧ n ≤ 2 ^ 64 - 2 ^ 32 ∨ 2 ^ 64 ≤ n := by
  rw [signed, if_pos (show (0x2D :: rest).head? = some 0x2D from rfl)]
  by_cases hlarge : n < 2 ^ 64
  · rw [if_pos hlarge]
    by_cases hfits : (2 ^ 64 - n) % 2 ^ 64 < 2 ^ 32
    · simp only [if_pos hfits, reduceCtorEq, false_iff]
      omega
    · simp only [if_neg hfits, true_iff]
      omega
  · rw [if_neg hlarge]
    simp only [true_iff]
    omega

theorem numeral_eq_none {b : UInt8} (hmem : b ∈ bytes) (h : isDigit base b = false) : numeral base bytes = none := by
  rw [numeral, if_neg]
  rintro ⟨-, hall⟩
  exact absurd (List.all_eq_true.mp hall b hmem) (by rw [h]; decide)

theorem eq_of_toLower {x : UInt8} (h : toLower x = 0x78) : x = 0x58 ∨ x = 0x78 := by
  rw [toLower] at h
  split at h
  · have hx : x + 0x20 - 0x20 = x := UInt8.add_sub_cancel ..
    rw [h] at hx
    exact Or.inl hx.symm
  · exact Or.inr h

theorem exists_of_hexPrefix (h : hasHexPrefix token = true) : ∃ x rest, token = 0x30 :: x :: rest ∧ toLower x = 0x78 := by
  rw [hasHexPrefix.eq_def] at h
  split at h
  · rename_i x rest
    exact ⟨x, rest, rfl, by simpa using h⟩
  · cases h

theorem literal_of_hexPrefix (h : hasHexPrefix token = true) : literal token = hexNumeral token := by
  rw [hexNumeral, if_pos h]
  obtain ⟨x, rest, rfl, hx⟩ := exists_of_hexPrefix h
  have hnot : isDigit 8 x = false := by
    rcases eq_of_toLower hx with rfl | rfl <;> decide
  have hnone : numeral 8 (0x30 :: x :: rest) = none := numeral_eq_none (b := x) (by simp) hnot
  rcases rest with _ | ⟨d, rest⟩
  · exact hnone
  · have hbase : basePrefix (0x30 :: x :: d :: rest) = if toLower x == 0x78 && isDigit 16 d then (16, 2) else (8, 0) := rfl
    rw [literal, hbase, hx]
    cases hd : isDigit 16 d
    · rw [List.drop_succ_cons, List.drop_succ_cons, List.drop_zero, numeral_eq_none (List.mem_cons_self ..) hd]
      exact hnone
    · rfl

/-- Of a number that is or is not below a bound, the same part is left exactly if it is the same or both are too large. -/
theorem below_eq_iff {o : Option Nat} {n : Nat} : (o.bind fun n => if n < 2 ^ 32 then some (UInt32.ofNat n) else none) =
    (if n < 2 ^ 32 then some (UInt32.ofNat n) else none) ↔ o = some n ∨ 2 ^ 32 ≤ n ∧ ∀ m, o = some m → 2 ^ 32 ≤ m := by
  constructor
  · intro h
    by_cases hn : n < 2 ^ 32
    · rw [if_pos hn, Option.bind_eq_some_iff] at h
      obtain ⟨m, ho, hm⟩ := h
      by_cases hlt : m < 2 ^ 32
      · rw [if_pos hlt, Option.some.injEq] at hm
        have hnat := congrArg UInt32.toNat hm
        rw [UInt32.toNat_ofNat_of_lt' hlt, UInt32.toNat_ofNat_of_lt' hn] at hnat
        exact Or.inl (ho.trans (congrArg some hnat))
      · rw [if_neg hlt] at hm
        cases hm
    · rw [if_neg hn, Option.bind_eq_none_iff] at h
      refine Or.inr ⟨Nat.le_of_not_lt hn, fun m ho => ?_⟩
      by_contra hlt
      have hm := h m ho
      rw [if_pos (Nat.lt_of_not_le hlt)] at hm
      cases hm
  · rintro (rfl | ⟨hn, hall⟩)
    · rfl
    · rw [if_neg (Nat.not_lt_of_le hn), Option.bind_eq_none_iff]
      exact fun m ho => if_neg (Nat.not_lt_of_le (hall m ho))

/-- `parse_u32_token` reads a token as the protocol means it exactly where the literal of C is no other number. -/
theorem parseU32Token_eq_meaning_iff (token : Bytes) :
    (parseU32Token token).toOption = meaning token ↔ ReadAsMeant token := by
  rw [parseU32Token_eq]
  have hsignNone {b : UInt8} {rest : Bytes} (hb : hasHexPrefix (b :: rest) = false) (hd : isDigit 16 b = false) :
      meaning (b :: rest) = none := by
    rw [meaning_eq, hexNumeral, if_neg (by simp [hb]), numeral_eq_none (List.mem_cons_self ..) hd]
    rfl
  rw [ReadAsMeant.eq_def]
  split
  · rename_i rest
    rw [hsignNone rfl (by decide), Option.bind_eq_none_iff]
    refine forall₂_congr fun n _ => ?_
    rw [signed_unsigned (by simp)]
    simp
  · rename_i rest
    rw [hsignNone rfl (by decide), Option.bind_eq_none_iff]
    exact forall₂_congr fun n _ => signed_minus_eq_none_iff rest n
  · rename_i hplus hminus
    have hhead (c : UInt8) (hc : ∀ rest, token = c :: rest → False) : token.head? ≠ some c := by
      intro h
      rcases token with _ | ⟨b, rest⟩
      · cases h
      · exact hc rest (by rw [Option.some.inj h])
    have hbytes : signBytes token = 0 := if_neg fun h => h.elim (hhead _ hplus) (hhead _ hminus)
    have hsigned : signed token = fun n => if n < 2 ^ 32 then some (UInt32.ofNat n) else none :=
      funext (signed_unsigned (hhead _ hminus))
    rw [hbytes, List.drop_zero, hsigned, meaning_eq]
    by_cases hprefix : hasHexPrefix token = true
    · rw [literal_of_hexPrefix hprefix]
      exact ⟨fun _ => Or.inl hprefix, fun _ => rfl⟩
    · have hbare : hasHexPrefix token = false := Bool.eq_false_iff.mpr hprefix
      rw [hexNumeral, if_neg hprefix]
      cases hnumeral : numeral 16 token with
      | none =>
        -- what is not a hexadecimal numeral has no digits of a smaller base either
        have hliteral : literal token = none := by
          rw [literal, basePrefix_of_bare hbare, List.drop_zero, Option.eq_none_iff_forall_ne_some]
          intro m hm
          obtain ⟨hne, hall, -⟩ := numeral_eq_some_iff.mp hm
          have hle : (if token.head? = some 0x30 then 8 else 10) ≤ 16 := by split <;> decide
          have hhex := numeral_eq_some_iff.mpr ⟨hne, fun b hb => isDigit_mono hle (hall b hb), rfl⟩
          rw [hnumeral] at hhex
          cases hhex
        rw [hliteral]
        exact ⟨fun _ => Or.inr fun n h => (by cases h), fun _ => rfl⟩
      | some n =>
        rw [Option.bind_some, below_eq_iff, literal_eq_iff hbare hnumeral]
        constructor
        · intro h
          refine Or.inr fun m hm => ?_
          obtain rfl := Option.some.inj hm
          exact or_assoc.mp h
        · rintro (h | h)
          · exact absurd h hprefix
          · exact or_assoc.mpr (h n rfl)

/-! ### What a read sends back -/

theorem utf8_ofList_append (a b : List Char) : utf8 (String.ofList (a ++ b)) = utf8 (String.ofList a) ++ utf8 (String.ofList b) := by
  simp [utf8, String.ofList_append]

def upper (b : UInt8) : UInt8 := if 0x61 ≤ b && b ≤ 0x7A then b - 0x20 else b

/-- The digits of a number in upper case, without leading zeros. -/
def hexDigits (n : Nat) : Bytes := (utf8 (String.ofList (Nat.toDigits 16 n))).map upper

/-- The byte of a digit. -/
def hexByte (d : Nat) : UInt8 := if d < 10 then UInt8.ofNat (0x30 + d) else UInt8.ofNat (0x37 + d)

theorem hexByte_spec : ∀ d < 16, (utf8 (String.ofList [Nat.digitChar d])).map upper = [hexByte d] ∧
    isDigit 16 (hexByte d) = true ∧ digit (hexByte d) = d := by
  decide

theorem hexDigits_eq (n : Nat) :
    hexDigits n = if n < 16 then [hexByte n] else hexDigits (n / 16) ++ [hexByte (n % 16)] := by
  rw [hexDigits, Nat.toDigits_eq_if (by decide)]
  by_cases h : n < 16
  · rw [if_pos h, if_pos h, (hexByte_spec n h).1]
  · rw [if_neg h, if_neg h, utf8_ofList_append, List.map_append, (hexByte_spec (n % 16) (Nat.mod_lt n (by decide))).1]
    rfl

theorem toHex8_eq (v : UInt32) :
    toHex8 v = List.replicate (8 - (hexDigits v.toNat).length) 0x30 ++ hexDigits v.toNat := rfl

theorem numeral_hexDigits (n : Nat) : numeral 16 (hexDigits n) = some n := by
  induction n using Nat.strongRecOn with
  | _ n ih =>
    rw [hexDigits_eq, numeral_eq_some_iff]
    by_cases h : n < 16
    · obtain ⟨-, hdigit, hvalue⟩ := hexByte_spec n h
      rw [if_pos h]
      refine ⟨by simp, by simpa using hdigit, ?_⟩
      simp [hvalue]
    · obtain ⟨-, hdigit, hvalue⟩ := hexByte_spec (n % 16) (Nat.mod_lt n (by decide))
      obtain ⟨-, hall, hrest⟩ := numeral_eq_some_iff.mp (ih (n / 16) (by omega))
      rw [if_neg h]
      refine ⟨by simp, ?_, ?_⟩
      · intro b hb
        rcases List.mem_append.mp hb with hb | hb
        · exact hall b hb
        · exact List.mem_singleton.mp hb ▸ hdigit
      · rw [List.reverse_append, List.reverse_singleton, List.singleton_append, List.map_cons, Nat.ofDigits_cons, hrest, hvalue]
        exact Nat.mod_add_div n 16

theorem length_hexDigits_le (k : Nat) : ∀ n < 16 ^ (k + 1), (hexDigits n).length ≤ k + 1 := by
  induction k with
  | zero =>
    intro n h
    rw [hexDigits_eq, if_pos (show n < 16 from h)]
    exact Nat.le_refl 1
  | succ k ih =>
    intro n h
    rw [hexDigits_eq]
    split
    · exact Nat.succ_le_succ (Nat.zero_le _)
    · rw [List.length_append]
      exact Nat.succ_le_succ (ih _ (Nat.div_lt_of_lt_mul (by rw [Nat.mul_comm, ← Nat.pow_succ]; exact h)))

theorem length_toHex8 (v : UInt32) : (toHex8 v).length = 8 := by
  have hle := length_hexDigits_le 7 v.toNat v.toNat_lt
  rw [toHex8_eq, List.length_append, List.length_replicate]
  omega

theorem numeral_toHex8 (v : UInt32) : numeral 16 (toHex8 v) = some v.toNat := by
  obtain ⟨hne, hall, hvalue⟩ := numeral_eq_some_iff.mp (numeral_hexDigits v.toNat)
  rw [toHex8_eq, numeral_eq_some_iff]
  refine ⟨by simp [hne], fun b hb => ?_, ?_⟩
  · rcases List.mem_append.mp hb with hb | hb
    · rw [(List.mem_replicate.mp hb).2]
      decide
    · exact hall b hb
  · have hzero : digit 0x30 = 0 := by decide
    rw [List.reverse_append, List.map_append, List.reverse_replicate, List.map_replicate, hzero,
      Nat.ofDigits_append_replicate_zero, hvalue]

/-- What is sent back for a read of `v` is read as `v` exactly if `v` is a single octal digit. -/
theorem parseU32Token_toHex8_iff (v : UInt32) : parseU32Token (toHex8 v) = .ok v ↔ v.toNat < 8 := by
  have hnumeral := numeral_toHex8 v
  obtain ⟨-, hall, -⟩ := numeral_eq_some_iff.mp hnumeral
  have hlength := length_toHex8 v
  have hlt := v.toNat_lt
  have hiff := parseU32Token_eq_meaning_iff (toHex8 v)
  generalize toHex8 v = token at hnumeral hall hlength hiff
  have hbare : hasHexPrefix token = false := by
    rw [Bool.eq_false_iff]
    intro hprefix
    obtain ⟨x, rest, rfl, hx⟩ := exists_of_hexPrefix hprefix
    have hdigit := hall x (by simp)
    rcases eq_of_toLower hx with rfl | rfl <;> exact absurd hdigit (by decide)
  have hmeaning : meaning token = some v := by
    rw [meaning_eq, hexNumeral, if_neg (by simp [hbare]), hnumeral, Option.bind_some, if_pos hlt, UInt32.ofNat_toNat]
  have hcond : ReadAsMeant token ↔ v.toNat < 8 := by
    rw [ReadAsMeant.eq_def]
    split
    · exact absurd (hall 0x2B (List.mem_cons_self ..)) (by decide)
    · exact absurd (hall 0x2D (List.mem_cons_self ..)) (by decide)
    · rw [hnumeral, hbare, hlength]
      simp only [Bool.false_eq_true, false_or, Option.some.injEq, forall_eq']
      omega
  rw [hmeaning, hcond] at hiff
  rw [← hiff]
  cases parseU32Token token with
  | ok a => simp [Except.toOption]
  | error e => simp [Except.toOption]

/-! ### Requests -/

theorem noSpace_of_any {bytes : Bytes} (h : bytes.any isSpace = false) : ∀ b ∈ bytes, isSpace b = false := fun b hb =>
  Bool.eq_false_iff.mpr (List.any_eq_false.mp h b hb)

theorem nextToken_blank (line : Bytes) : nextToken (0x20 :: line) = nextToken line := rfl

theorem nextToken_append {rest : Bytes} (hne : token ≠ []) (hspace : ∀ b ∈ token, isSpace b = false)
    (hrest : ∀ b ∈ rest.head?, isSpace b = true) : nextToken (token ++ rest) = some (token, rest) := by
  rcases token with _ | ⟨b, token⟩
  · exact absurd rfl hne
  have hb : isSpace b = false := hspace b (List.mem_cons_self ..)
  have htake : rest.takeWhile (!isSpace ·) = [] := by
    rcases rest with _ | ⟨c, rest⟩
    · rfl
    · simp [hrest c (by simp)]
  have hdrop : rest.dropWhile (!isSpace ·) = rest := by
    rcases rest with _ | ⟨c, rest⟩
    · rfl
    · simp [hrest c (by simp)]
  have hall : ∀ c ∈ b :: token, (!isSpace c) = true := by
    intro c hc
    rw [hspace c hc]
    rfl
  rw [nextToken, List.cons_append, List.dropWhile_cons_of_neg (by simp [hb])]
  show some (((b :: token) ++ rest).takeWhile (!isSpace ·), ((b :: token) ++ rest).dropWhile (!isSpace ·)) = _
  rw [List.takeWhile_append_of_pos hall, List.dropWhile_append_of_pos hall, htake, hdrop, List.append_nil]

theorem nextToken_last (hne : token ≠ []) (hspace : ∀ b ∈ token, isSpace b = false) :
    nextToken (0x20 :: token) = some (token, []) := by
  have hend : nextToken (token ++ []) = some (token, []) := nextToken_append hne hspace (by simp)
  rwa [List.append_nil, ← nextToken_blank] at hend

variable {host : Host} {devmem : DevMemObject} {offset value : Bytes} {o : UInt32} {past : List Touch}

theorem ne_nil_of_parse (ho : parseU32Token offset = .ok o) : offset ≠ [] := by
  rintro rfl
  cases ho

theorem readU32_run {offset : UInt64} (hvalid : ∀ past, devmem.validateOffset offset 1 past = .ok () past) : bytesOf (devmem.readU32 host offset) past =
    .ok (host.load past devmem.mem (devmem.wordIndex offset)) (past ++ [{ mem := devmem.mem, index := devmem.wordIndex offset }]) := by
  simp only [bytesOf, EStateM.adaptExcept, DevMemObject.readU32, bind, EStateM.bind, hvalid]
  rfl

theorem writeU32_run {offset : UInt64} (hvalid : ∀ past, devmem.validateOffset offset 1 past = .ok () past) (v : UInt32) :
    bytesOf (devmem.writeU32 offset v) past =
    .ok () (past ++ [{ mem := devmem.mem, index := devmem.wordIndex offset, stored := some v }]) := by
  simp only [bytesOf, EStateM.adaptExcept, DevMemObject.writeU32, bind, EStateM.bind, hvalid]
  rfl

theorem handleRequest_read (hspace : ∀ b ∈ offset, isSpace b = false) (ho : parseU32Token offset = .ok o)
    (hvalid : ∀ past, devmem.validateOffset o.toUInt64 1 past = .ok () past) :
    handleRequest host devmem (readRequest offset) past =
      .ok (toHex8 (host.load past devmem.mem (devmem.wordIndex o.toUInt64)))
        (past ++ [{ mem := devmem.mem, index := devmem.wordIndex o.toUInt64 }]) := by
  have hcommand : nextToken (readRequest offset) = some (utf8 "read", 0x20 :: offset) :=
    nextToken_append (by decide) (noSpace_of_any (by decide)) fun b hb => by cases hb; rfl
  have hoffset : nextToken (0x20 :: offset) = some (offset, []) := nextToken_last (ne_nil_of_parse ho) hspace
  have hlower : (utf8 "read").map toLower = utf8 "read" := by decide
  have hnot : utf8 "read" ≠ utf8 "write" := by decide
  rw [handleRequest, if_neg (by simp [readRequest]), hcommand]
  simp only [hoffset, hlower, if_neg hnot, ho]
  show ((bytesOf (devmem.readU32 host o.toUInt64)) >>= fun data => pure (toHex8 data)) past = _
  simp only [bind, EStateM.bind, readU32_run hvalid]
  rfl

theorem handleRequest_write (hspace : ∀ b ∈ offset, isSpace b = false) (ho : parseU32Token offset = .ok o)
    (hvalid : ∀ past, devmem.validateOffset o.toUInt64 1 past = .ok () past) (hne : value ≠ [])
    (hvalue : ∀ b ∈ value, isSpace b = false) :
    touched (handleRequest host devmem (writeRequest offset value) past) =
      match parseU32Token value with
      | .ok v => past ++ [{ mem := devmem.mem, index := devmem.wordIndex o.toUInt64, stored := some v }] ++
          [{ mem := devmem.mem, index := devmem.wordIndex o.toUInt64 }]
      | .error _ => past := by
  have hblank : ∀ (rest : Bytes), ∀ b ∈ (0x20 :: rest).head?, isSpace b = true := by
    intro rest b hb
    cases hb
    rfl
  have hcommand : nextToken (writeRequest offset value) = some (utf8 "write", 0x20 :: (offset ++ 0x20 :: value)) :=
    nextToken_append (by decide) (noSpace_of_any (by decide)) (hblank _)
  have hoffset : nextToken (0x20 :: (offset ++ 0x20 :: value)) = some (offset, 0x20 :: value) :=
    nextToken_append (ne_nil_of_parse ho) hspace (hblank _)
  have hlast : nextToken (0x20 :: value) = some (value, []) := nextToken_last hne hvalue
  have hlower : (utf8 "write").map toLower = utf8 "write" := by decide
  rw [handleRequest, if_neg (by simp [writeRequest]), hcommand]
  simp only [hoffset, hlower, ho, hlast]
  cases parseU32Token value with
  | error e => rfl
  | ok v =>
    show touched (((bytesOf (devmem.writeU32 o.toUInt64 v)) >>= fun _ =>
      (bytesOf (devmem.readU32 host o.toUInt64)) >>= fun readBack => _) past) = _
    simp only [bind, EStateM.bind, writeU32_run hvalid, readU32_run hvalid]
    split <;> rfl

theorem isDigit_of_lt {b : UInt8} (h : b.toNat < 0x30) : isDigit base b = false := by
  have hnot {c d : UInt8} (hc : 0x30 ≤ c.toNat) : ¬(c ≤ b && b ≤ d) = true := by
    intro hin
    have hle := UInt8.le_iff_toNat_le.mp (of_decide_eq_true (Bool.and_eq_true_iff.mp hin).1)
    omega
  have hlower : toLower b = b := if_neg (hnot (by decide))
  rw [isDigit, digitValue, if_neg (hnot (by decide)), hlower, if_neg (hnot (by decide))]
  rfl

theorem isSpace_le {b : UInt8} (h : isSpace b = true) : b.toNat ≤ 0x20 := by
  rw [isSpace, Bool.or_eq_true_iff] at h
  rcases h with h | h
  · rw [eq_of_beq h]
    decide
  · exact Nat.le_trans (UInt8.le_iff_toNat_le.mp (of_decide_eq_true (Bool.and_eq_true_iff.mp h).2)) (by decide)

theorem toHex8_noSpace (v : UInt32) : ∀ b ∈ toHex8 v, isSpace b = false := by
  obtain ⟨-, hall, -⟩ := numeral_eq_some_iff.mp (numeral_toHex8 v)
  intro b hb
  by_contra hspace
  have hle := isSpace_le (by simpa using hspace)
  have hnot : isDigit 16 b = false := isDigit_of_lt (by omega)
  rw [hall b hb] at hnot
  cases hnot

/-- A token is read as the protocol means it exactly under `ReadAsMeant`, and what is sent back for a read of a register is
    written back as it was exactly if it is a single octal digit. -/
theorem readAsMeant_iff (host : Host) (devmem : DevMemObject) :
    (∀ token : Token, (parseU32Token token.val).toOption = meaning token.val ↔ ReadAsMeant token.val) ∧
    ∀ (offset : Token) (o : UInt32) (past past' : List Touch), parseU32Token offset.val = .ok o →
      (∀ past, devmem.validateOffset o.toUInt64 1 past = .ok () past) → ∃ v : UInt32,
        v = host.load past devmem.mem (devmem.wordIndex o.toUInt64) ∧
        handleRequest host devmem (readRequest offset.val) past =
          .ok (toHex8 v) (past ++ [{ mem := devmem.mem, index := devmem.wordIndex o.toUInt64 }]) ∧
        (past' ++ [{ mem := devmem.mem, index := devmem.wordIndex o.toUInt64, stored := some v }] <+:
          touched (handleRequest host devmem (writeRequest offset.val (toHex8 v)) past') ↔ v.toNat < 8) := by
  refine ⟨fun token => parseU32Token_eq_meaning_iff token.val, fun offset o past past' ho hvalid => ?_⟩
  refine ⟨_, rfl, handleRequest_read offset.property ho hvalid, ?_⟩
  generalize host.load past devmem.mem (devmem.wordIndex o.toUInt64) = v
  have hne : toHex8 v ≠ [] := by
    rw [← List.length_pos_iff, length_toHex8]
    decide
  rw [handleRequest_write offset.property ho hvalid hne (toHex8_noSpace v), ← parseU32Token_toHex8_iff]
  cases hparse : parseU32Token (toHex8 v) with
  | error e =>
    constructor
    · intro hprefix
      have hlength : (past' ++ [_]).length ≤ past'.length := hprefix.length_le
      rw [List.length_append, List.length_singleton] at hlength
      omega
    · intro h
      cases h
  | ok w =>
    constructor
    · intro hprefix
      obtain ⟨rest, hrest⟩ := hprefix
      have hstores : past' ++ [_] ++ rest = past' ++ [_] ++ [_] := hrest
      rw [List.append_assoc, List.append_assoc, List.append_cancel_left_eq] at hstores
      have hhead := List.head_eq_of_cons_eq hstores
      rw [Touch.mk.injEq, Option.some.injEq] at hhead
      rw [hhead.2.2]
    · intro h
      rw [Except.ok.inj h]
      exact List.prefix_append _ _

/-- The reply for a register that holds 16 is read as 8. -/
theorem sixteen_not_read_as_meant : ¬∀ token : Token, (parseU32Token token.val).toOption = meaning token.val := by
  intro h
  exact absurd (h ⟨utf8 "00000010", noSpace_of_any (by decide)⟩) (by decide)

/-- A request for the first register of the window. -/
theorem readAsMeant_first_register : ∃ v : UInt32,
    [{ mem := (window DevMemObject.smallPages).mem, index := (window DevMemObject.smallPages).wordIndex 0, stored := some v }] <+:
      touched (handleRequest DevMemObject.smallPages (window DevMemObject.smallPages) (writeRequest (utf8 "0x0") (toHex8 v)) []) ↔
        v.toNat < 8 := by
  obtain ⟨v, -, -, h⟩ := (readAsMeant_iff DevMemObject.smallPages (window DevMemObject.smallPages)).2
    ⟨utf8 "0x0", noSpace_of_any (by decide)⟩ 0 [] [] (by decide) fun _ => rfl
  exact ⟨v, h⟩

end Srv
end DaphneZmq
