import DaphneZmq.Lib.Device

/-! # FPGA registers (reg.cpp, FpgaReg.cpp)

A field is a range of bits of a 32-bit register. Writing a field reads the register, replaces the field, writes
the register and reads it twice more: once in `WriteRegister` and once for the value that is returned. Every
one of these accesses can throw. -/

namespace DaphneZmq
open Lib.Device

/-- A bit field of a register at an offset from the base address. -/
structure BitField where
  addr : Nat
  low : Nat
  high : Nat
  ordered : Nat.ble low high = true := by exact Eq.refl true
  bounded : Nat.blt high 32 = true := by exact Eq.refl true

namespace BitField
variable (f : BitField)

def width : Nat := f.high - f.low + 1

def mask : UInt32 := if f.width = 32 then 0xFFFFFFFF else (1 <<< UInt32.ofNat f.width) - 1

/-- The value of the field in a word. -/
def extract (word : UInt32) : UInt32 := (word >>> UInt32.ofNat f.low) &&& f.mask

/-- The word with the field replaced. -/
def insert (word data : UInt32) : UInt32 :=
  (word &&& ~~~(f.mask <<< UInt32.ofNat f.low)) ||| ((data &&& f.mask) <<< UInt32.ofNat f.low)

end BitField

namespace Reg
variable {D : Type} (env : Env Nat UInt32)

def readRegister (addr : Nat) : Prog Nat UInt32 D UInt32 := read env addr

/-- `WriteRegister`, with the word that is read back. -/
def writeRegister (addr : Nat) (value : UInt32) : Prog Nat UInt32 D UInt32 := do
  write env addr value
  readRegister env addr

def readBits (f : BitField) : Prog Nat UInt32 D UInt32 := do
  let value ← read env f.addr
  return f.extract value

/-- `WriteBits`, with the field as it is read back. -/
def writeBits (f : BitField) (data : UInt32) : Prog Nat UInt32 D UInt32 := do
  let value ← read env f.addr
  let _ ← writeRegister env f.addr (f.insert value data)
  readBits env f

end Reg

/-! ### Bits -/

namespace BitField
variable {f g : BitField} {word data : UInt32}

theorem low_le (f : BitField) : f.low ≤ f.high := Nat.le_of_ble_eq_true f.ordered

theorem high_lt (f : BitField) : f.high < 32 := Nat.le_of_ble_eq_true f.bounded

theorem width_le (f : BitField) : f.width ≤ 32 := by
  have := f.low_le
  have := f.high_lt
  unfold width
  omega

theorem toNat_mask (f : BitField) : f.mask.toNat = 2 ^ f.width - 1 := by
  have hle := f.width_le
  unfold mask
  split
  · rename_i h
    rw [h]
    rfl
  · have hlt : f.width < 32 := by omega
    have hpow : 2 ^ f.width < 2 ^ 32 := Nat.pow_lt_pow_right (by decide) hlt
    have hshift : ((1 : UInt32) <<< UInt32.ofNat f.width).toNat = 2 ^ f.width := by
      rw [UInt32.toNat_shiftLeft, UInt32.toNat_ofNat', Nat.mod_eq_of_lt (a := f.width) (by omega), Nat.mod_eq_of_lt hlt,
        Nat.shiftLeft_eq, UInt32.toNat_one, Nat.one_mul, Nat.mod_eq_of_lt hpow]
    have hone : (1 : UInt32) ≤ 1 <<< UInt32.ofNat f.width := by
      rw [UInt32.le_iff_toNat_le, hshift, UInt32.toNat_one]
      exact Nat.one_le_two_pow
    rw [UInt32.toNat_sub_of_le _ _ hone, hshift, UInt32.toNat_one]

theorem toNat_low (f : BitField) : (UInt32.ofNat f.low).toNat % 32 = f.low := by
  have := f.low_le
  have := f.high_lt
  rw [UInt32.toNat_ofNat']
  omega

theorem testBit_extract (i : Nat) :
    (f.extract word).toNat.testBit i = (word.toNat.testBit (f.low + i) && decide (i < f.width)) := by
  rw [extract, UInt32.toNat_and, Nat.testBit_and, toNat_mask, Nat.testBit_two_pow_sub_one, UInt32.toNat_shiftRight,
    toNat_low, Nat.testBit_shiftRight]

theorem testBit_shifted (i : Nat) {v : UInt32} :
    (v <<< UInt32.ofNat f.low).toNat.testBit i = (decide (i < 32) && (decide (f.low ≤ i) && v.toNat.testBit (i - f.low))) := by
  rw [UInt32.toNat_shiftLeft, toNat_low, Nat.testBit_mod_two_pow, Nat.testBit_shiftLeft]

theorem testBit_insert {i : Nat} (hi : i < 32) : (f.insert word data).toNat.testBit i =
    if f.low ≤ i ∧ i < f.low + f.width then data.toNat.testBit (i - f.low) else word.toNat.testBit i := by
  have hnot : ∀ v : UInt32, (~~~v).toNat.testBit i = !v.toNat.testBit i := fun v => by
    have hv : v.toNat < 2 ^ 32 := v.toNat_lt
    have hsub : (~~~v).toNat = 2 ^ 32 - (v.toNat + 1) := by
      rw [UInt32.toNat_not]
      simp only [UInt32.size]
      omega
    rw [hsub, Nat.testBit_two_pow_sub_succ hv, decide_eq_true hi, Bool.true_and]
  rw [insert, UInt32.toNat_or, Nat.testBit_or, UInt32.toNat_and, Nat.testBit_and, hnot, testBit_shifted, testBit_shifted,
    toNat_mask, UInt32.toNat_and, Nat.testBit_and, toNat_mask, Nat.testBit_two_pow_sub_one, decide_eq_true hi]
  by_cases hlow : f.low ≤ i
  · by_cases hhigh : i < f.low + f.width
    · have : i - f.low < f.width := by omega
      simp [hlow, hhigh, this]
    · have : ¬i - f.low < f.width := by omega
      simp [hlow, hhigh, this]
  · simp [hlow]

theorem eq_of_testBit {v w : UInt32} (h : ∀ i < 32, v.toNat.testBit i = w.toNat.testBit i) : v = w := by
  rw [← UInt32.toNat_inj]
  apply Nat.eq_of_testBit_eq
  intro i
  by_cases hi : i < 32
  · exact h i hi
  · have hv := Nat.testBit_lt_two_pow (Nat.lt_of_lt_of_le v.toNat_lt (Nat.pow_le_pow_right Nat.two_pos (Nat.le_of_not_lt hi)))
    have hw := Nat.testBit_lt_two_pow (Nat.lt_of_lt_of_le w.toNat_lt (Nat.pow_le_pow_right Nat.two_pos (Nat.le_of_not_lt hi)))
    rw [hv, hw]

/-- A field that has been written reads as the data, cut to the width of the field. -/
theorem extract_insert : f.extract (f.insert word data) = data &&& f.mask := by
  have := f.low_le
  have := f.high_lt
  refine eq_of_testBit fun i hi => ?_
  rw [testBit_extract, UInt32.toNat_and, Nat.testBit_and, toNat_mask, Nat.testBit_two_pow_sub_one]
  by_cases hw : i < f.width
  · have hlt : f.low + i < 32 := by unfold width at hw; omega
    rw [testBit_insert hlt, if_pos ⟨Nat.le_add_right _ _, by omega⟩, Nat.add_sub_cancel_left]
  · simp [hw]

/-- Writing a field leaves the fields that share no bit with it. -/
theorem extract_insert_of_disjoint (h : g.high < f.low ∨ f.high < g.low) : g.extract (f.insert word data) = g.extract word := by
  have := f.low_le
  have := g.low_le
  have := g.high_lt
  refine eq_of_testBit fun i hi => ?_
  rw [testBit_extract, testBit_extract]
  by_cases hw : i < g.width
  · have hlt : g.low + i < 32 := by unfold width at hw; omega
    rw [testBit_insert hlt, if_neg]
    unfold width at hw ⊢
    omega
  · simp [hw]

/-- A field within another one reads as in the data that was written there. -/
theorem extract_insert_within (hlow : f.low = 0) (hhigh : g.high ≤ f.high) : g.extract (f.insert word data) = g.extract data := by
  have := g.low_le
  have := g.high_lt
  refine eq_of_testBit fun i _ => ?_
  rw [testBit_extract, testBit_extract]
  by_cases hw : i < g.width
  · have hlt : g.low + i < f.low + f.width := by
      unfold width at hw ⊢
      omega
    have hbound := f.high_lt
    rw [testBit_insert (by unfold width at hlt; omega), if_pos ⟨by omega, hlt⟩, hlow, Nat.sub_zero]
  · simp [hw]

theorem and_mask_of_lt (h : data.toNat < 2 ^ f.width) : data &&& f.mask = data := by
  rw [← UInt32.toNat_inj, UInt32.toNat_and, toNat_mask, Nat.and_two_pow_sub_one_eq_mod, Nat.mod_eq_of_lt h]

theorem extract_lt (f : BitField) (word : UInt32) : (f.extract word).toNat < 2 ^ f.width := by
  rw [extract, UInt32.toNat_and, toNat_mask, Nat.and_two_pow_sub_one_eq_mod]
  exact Nat.mod_lt _ (Nat.two_pow_pos _)

end BitField

/-! ### What the accesses of a field do -/

namespace Reg
variable {D : Type} {env : Env Nat UInt32} {G : Effect Nat UInt32 D} {s : State Nat UInt32 D} {f : BitField}

/-- The state after a field of a cell is written, the reads included. -/
def afterWriteBits (s : State Nat UInt32 D) (f : BitField) (data : UInt32) : State Nat UInt32 D :=
  { s with
    cells := Function.update s.cells f.addr (f.insert (s.cells f.addr) data)
    accesses := s.accesses + 4
    writes := s.writes ++ [⟨s.cells, s.reads, f.addr, f.insert (s.cells f.addr) data⟩] }

theorem afterWriteBits_cells (data : UInt32) :
    (afterWriteBits s f data).cells = Function.update s.cells f.addr (f.insert (s.cells f.addr) data) := rfl

theorem takes_readBits (hcell : env.driven f.addr = none) {R : UInt32 → State Nat UInt32 D → Prop}
    (h : R (f.extract (s.cells f.addr)) s.tick) : Takes env G 1 (readBits env f) R s :=
  (takes_read_cell hcell (R := fun v t => v = s.cells f.addr ∧ t = s.tick) ⟨rfl, rfl⟩).bind
    fun _ _ ⟨hv, ht⟩ => takes_pure _ (by rw [hv, ht]; exact h)

theorem takes_writeBits (hcell : env.driven f.addr = none) {data : UInt32} {R : UInt32 → State Nat UInt32 D → Prop}
    (hG : G.Rel s.tick (s.tick.afterWrite f.addr (f.insert (s.cells f.addr) data)))
    (h : R (data &&& f.mask) (afterWriteBits s f data)) : Takes env G 4 (writeBits env f data) R s := by
  refine (takes_read_cell hcell (R := fun v t => v = s.cells f.addr ∧ t = s.tick) ⟨rfl, rfl⟩).bind (k := 3) ?_
  rintro _ _ ⟨rfl, rfl⟩
  refine Takes.bind (n := 2) (k := 1) (R := fun _ t => t = (s.tick.afterWrite f.addr (f.insert (s.cells f.addr) data)).tick) ?_ ?_
  · refine (takes_write hG (R := fun _ t => t = s.tick.afterWrite f.addr (f.insert (s.cells f.addr) data)) rfl).bind (k := 1) ?_
    rintro _ _ rfl
    exact takes_read_cell hcell rfl
  · rintro _ _ rfl
    refine takes_readBits hcell ?_
    simpa [State.tick, State.afterWrite, afterWriteBits, BitField.extract_insert, Nat.add_assoc] using h

/-- What a write of a field leaves, also if it is cut off: the field is written once the first two accesses are
    done. -/
def Written (env : Env Nat UInt32) (f : BitField) (data : UInt32) (s t : State Nat UInt32 D) : Prop :=
  (env.Clear s.accesses 2 ∧ Quiet (afterWriteBits s f data) t) ∨ (¬env.Clear s.accesses 2 ∧ Quiet s t)

theorem does_quiet_readBits (f : BitField) : Does .quiet (readBits env f : Prog Nat UInt32 D UInt32) :=
  (does_quiet_read f.addr).bind fun _ => does_pure _

theorem written_writeBits (hcell : env.driven f.addr = none) (data : UInt32) :
    wp (writeBits env f data) (fun _ t => Written env f data s t) (fun _ t => Written env f data s t) s := by
  have hreads : Does .quiet (readRegister env f.addr >>= fun _ => readBits env f : Prog Nat UInt32 D UInt32) :=
    (does_quiet_read f.addr).bind fun _ => does_quiet_readBits f
  have hprog : writeBits env f data = (read env f.addr >>= fun value =>
      write env f.addr (f.insert value data) >>= fun _ => readRegister env f.addr >>= fun _ => readBits env f : Prog _ _ D _) := by
    simp only [writeBits, writeRegister, bind_assoc]
  rw [hprog, wp_bind, wp_read_cell hcell]
  cases hfirst : env.faults s.accesses with
  | some e => exact Or.inr ⟨fun h => by simpa [hfirst] using h 0 (by omega), rfl, rfl, rfl⟩
  | none =>
    dsimp only
    rw [wp_bind, wp_write]
    cases hsecond : env.faults s.tick.accesses with
    | some e =>
      have hfault : env.faults (s.accesses + 1) = some e := hsecond
      exact Or.inr ⟨fun h => by simpa [hfault] using h 1 (by omega), rfl, rfl, rfl⟩
    | none =>
      have hclear : env.Clear s.accesses 2 := fun k hk => by
        rcases Nat.lt_succ_iff_lt_or_eq.mp hk with h | rfl
        · rwa [Nat.lt_one_iff.mp h]
        · exact hsecond
      have hdone : ∀ t, Quiet (s.tick.afterWrite f.addr (f.insert (s.cells f.addr) data)) t → Written env f data s t :=
        fun t ht => Or.inl ⟨hclear, ht.cells, ht.writes, ht.driver⟩
      exact wp_mono (hreads.run _) (fun _ t ht => hdone t ht) fun _ t ht => hdone t ht

theorem readBits_eq (hfaults : ∀ n, env.faults n = none) (hcell : env.driven f.addr = none) (s : State Nat UInt32 D) :
    readBits env f s = .ok (f.extract (s.cells f.addr)) s.tick := by
  rw [readBits, bind_ok (read_cell_eq hfaults hcell s)]
  rfl

theorem writeBits_eq (hfaults : ∀ n, env.faults n = none) (hcell : env.driven f.addr = none) (data : UInt32)
    (s : State Nat UInt32 D) : writeBits env f data s = .ok (data &&& f.mask) (afterWriteBits s f data) := by
  have hwrite (t : State Nat UInt32 D) (w : UInt32) : writeRegister env f.addr w t = .ok w (t.afterWrite f.addr w).tick := by
    rw [writeRegister, bind_ok (write_eq hfaults f.addr w t), readRegister, read_cell_eq hfaults hcell]
    simp
  rw [writeBits, bind_ok (read_cell_eq hfaults hcell s), bind_ok (hwrite _ _), readBits_eq hfaults hcell]
  simp [State.tick, State.afterWrite, afterWriteBits, BitField.extract_insert]

end Reg
end DaphneZmq
