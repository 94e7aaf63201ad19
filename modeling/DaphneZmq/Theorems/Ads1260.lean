import DaphneZmq.Ads1260

/-! The check value of the current monitor's ADC: the table does eight shifts at once, so the table-driven value is the
bit-by-bit one, and with it the register accesses see every burst of at most eight bits. -/

namespace DaphneZmq.Ads1260
open Lib

/-! ### The table -/

theorem crcRound_toBitVec (crc : UInt8) : (crcRound crc).toBitVec = Crc.shift 0x07#8 crc.toBitVec := by
  have hmsb : crc &&& 0x80 ≠ 0 ↔ crc.toBitVec.msb := by
    have htop : crc.toBitVec &&& 0x80#8 = if crc.toBitVec.getLsbD 7 then 0x80#8 else 0#8 := BitVec.and_twoPow _ 7
    rw [Ne, ← UInt8.toBitVec_inj, UInt8.toBitVec_and, BitVec.msb_eq_getLsbD_last]
    show ¬crc.toBitVec &&& 0x80#8 = 0#8 ↔ _
    rw [htop]
    cases crc.toBitVec.getLsbD 7 <;> decide
  by_cases h : crc.toBitVec.msb
  · rw [crcRound, if_pos (hmsb.mpr h), Crc.shift, if_pos h]
    rfl
  · rw [crcRound, if_neg (mt hmsb.mp h), Crc.shift, if_neg h]
    rfl

theorem repeat_crcRound (k : Nat) (crc : UInt8) :
    (Nat.repeat crcRound k crc).toBitVec = Nat.repeat (Crc.shift 0x07#8) k crc.toBitVec := by
  induction k with
  | zero => rfl
  | succ k ih =>
    show (crcRound (Nat.repeat crcRound k crc)).toBitVec = _
    rw [crcRound_toBitVec, ih]
    rfl

/-- An entry of the table is the register after the eight bits of a byte. -/
theorem buildCrcTable_get (crc byte : UInt8) :
    (buildCrcTable.get (crc ^^^ byte).toFin).toBitVec = Crc.crc 0x07#8 crc.toBitVec (Crc.bitsOf byte.toBitVec) := by
  have hget : buildCrcTable.get (crc ^^^ byte).toFin = Nat.repeat crcRound 8 (crc ^^^ byte) := by
    have hlt : (crc ^^^ byte).toNat < 256 := (crc ^^^ byte).toNat_lt
    show buildCrcTable[(crc ^^^ byte).toNat] = _
    rw [buildCrcTable, Vector.getElem_ofFn, UInt8.ofNat_toNat]
  rw [hget, repeat_crcRound, Crc.crc_bitsOf]
  rfl

theorem ads1260Crc8Lut_eq_crc8 (data : List UInt8) : ads1260Crc8Lut data = crc8 data := by
  have hrun : ∀ (data : List UInt8) (crc : UInt8),
      (data.foldl (fun crc byte => buildCrcTable.get (crc ^^^ byte).toFin) crc).toBitVec =
        Crc.crc 0x07#8 crc.toBitVec (bits data) := by
    intro data
    induction data with
    | nil => intro crc; rfl
    | cons byte data ih =>
      intro crc
      rw [List.foldl_cons, ih, buildCrcTable_get, ← Crc.crc_append]
      rfl
  exact UInt8.toBitVec_inj.mp (hrun data 0xFF)

/-! ### Errors -/

theorem crc8_ne_of_burst {data data' : List UInt8} (h : Crc.Burst 8 (bits data) (bits data')) : crc8 data ≠ crc8 data' := by
  intro heq
  exact Crc.crc_ne_of_burst (by decide) h (congrArg UInt8.toBitVec heq)

/-- Some bytes that came with a check value are refused if a burst hit them or the value. -/
theorem ads1260Crc8Lut_ne_of_burst {sent came : List UInt8} {crc : UInt8}
    (h : Crc.Burst 8 (bits (sent ++ [ads1260Crc8Lut sent])) (bits (came ++ [crc]))) : ads1260Crc8Lut came ≠ crc := by
  have hlast : ∀ (data : List UInt8) (crc : UInt8), bits (data ++ [crc]) = bits data ++ Crc.bitsOf crc.toBitVec := by
    intro data crc
    simp [bits]
  rw [hlast, hlast, ads1260Crc8Lut_eq_crc8] at h
  intro heq
  rw [ads1260Crc8Lut_eq_crc8] at heq
  exact Crc.crc_ne_of_burst_append (by decide) h (congrArg UInt8.toBitVec heq)

/-- The table-driven value is the CRC-8 bit by bit, and it tells two messages apart that a burst of at most eight bits makes
    different. -/
theorem ads1260Crc8Lut_detects_bursts :
    (∀ data : List UInt8, ads1260Crc8Lut data = crc8 data) ∧
      ∀ data data' : List UInt8, Crc.Burst 8 (bits data) (bits data') → ads1260Crc8Lut data ≠ ads1260Crc8Lut data' := by
  refine ⟨ads1260Crc8Lut_eq_crc8, fun data data' hburst => ?_⟩
  rw [ads1260Crc8Lut_eq_crc8, ads1260Crc8Lut_eq_crc8]
  exact crc8_ne_of_burst hburst

/-- The answer 0xFF to a read of a register, with its lowest bit lost. -/
theorem ads1260Crc8Lut_detects_lost_bit : ads1260Crc8Lut [0x21, 0xFF] ≠ ads1260Crc8Lut [0x21, 0xFE] := by
  refine ads1260Crc8Lut_detects_bursts.2 [0x21, 0xFF] [0x21, 0xFE] ⟨by decide, by decide, 8, fun i hi => ?_⟩
  by_contra hout
  apply hi
  rcases Nat.lt_or_ge i 16 with hlt | hge
  · have hlow : i < 8 := by omega
    have htake : (bits [0x21, 0xFF]).take 8 = (bits [0x21, 0xFE]).take 8 := by decide
    rw [← List.getElem?_take_of_lt hlow, htake, List.getElem?_take_of_lt hlow]
  · rw [List.getElem?_eq_none hge, List.getElem?_eq_none hge]

/-! ### The register accesses -/

variable {addr value : UInt8}

/-- What the device sent of a register read is refused if a burst hit the echo of the command or the data. -/
theorem readRegister_error_of_burst {rx : Vector UInt8 6} {echo : List UInt8} {data : UInt8}
    (h : Crc.Burst 8 (bits (echo ++ [ads1260Crc8Lut echo])) (bits [rx.get 1, rx.get 2, rx.get 3]) ∨
      Crc.Burst 8 (bits [data, ads1260Crc8Lut [data]]) (bits [rx.get 4, rx.get 5])) :
    ∃ e, readRegister (fun _ => .ok rx) addr = .error e := by
  rcases h with h | h
  · have hne : ads1260Crc8Lut [rx.get 1, rx.get 2] ≠ rx.get 3 := ads1260Crc8Lut_ne_of_burst h
    exact ⟨_, by rw [readRegister]; simp only [bind, Except.bind]; exact if_pos hne⟩
  · have hburst : Crc.Burst 8 (bits ([data] ++ [ads1260Crc8Lut [data]])) (bits ([rx.get 4] ++ [rx.get 5])) := h
    have hne : ads1260Crc8Lut [rx.get 4] ≠ rx.get 5 := ads1260Crc8Lut_ne_of_burst hburst
    by_cases hcommand : ads1260Crc8Lut [rx.get 1, rx.get 2] ≠ rx.get 3
    · exact ⟨_, by rw [readRegister]; simp only [bind, Except.bind]; exact if_pos hcommand⟩
    · exact ⟨_, by rw [readRegister]; simp only [bind, Except.bind]; exact (if_neg hcommand).trans (if_pos hne)⟩

end DaphneZmq.Ads1260
