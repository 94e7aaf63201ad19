import DaphneZmq.Theorems.AfeRegisters

/-! What becomes of `setRegister` and `getRegister` when a timeout cuts one of them off. The exchange sets the readout mode
and clears it again at its end, so a call that is cut off in between leaves the mode set, and the next call starts with it. -/

namespace DaphneZmq
open Lib Lib.Device
namespace AfeTransfers
open Afe

/-- A call of `setRegister` with a value, or of `getRegister`, for a listed register other than register 0. -/
structure Call where
  afe : Nat
  register : UInt32
  value : Option UInt32
  afe_lt : afe < 5 := by decide
  listed : register ∈ registerList := by decide
  ne_zero : register ≠ 0 := by decide

variable (b : Board)

def Call.prog (c : Call) : Prog Nat UInt32 Daphne UInt32 :=
  match c.value with
  | some value => setRegister b.env c.afe c.register value
  | none => getRegister b.env c.afe c.register

/-- The state after a call, whether it returns or throws. -/
def Call.run (c : Call) (s : ServerState) : ServerState :=
  match c.prog b s with
  | .ok _ t => t
  | .error _ t => t

/-- REGISTER_READOUT_ENABLE of an AFE. -/
def readoutEnable (afe : Nat) (s : ServerState) : Bool := (registersOf b afe s).cells 0 &&& 2 != 0

/-- What a call that returns `v` should have done: register 0 is left clear, and the others are the ones for the calls. -/
structure Call.Done (c : Call) (s : ServerState) (v : UInt32) (t : ServerState) : Prop where
  result : match c.value with
    | some value => (registersOf b c.afe t).cells c.register.toNat = value.toUInt16
    | none => v = ((registersOf b c.afe s).cells c.register.toNat).toUInt32
  kept (k : Nat) : k ≠ 0 → (c.value.isSome → k ≠ c.register.toNat) →
    (registersOf b c.afe t).cells k = (registersOf b c.afe s).cells k
  mode : (registersOf b c.afe t).cells 0 = 0
  others (afe : Nat) : afe ≠ c.afe → registersOf b afe t = registersOf b afe s

/-- A value is only stored where the mode is clear, unless the register holds it already. -/
def Call.Ready (c : Call) (s : ServerState) : Prop :=
  ∀ value, c.value = some value →
    readoutEnable b c.afe s = false ∨ (registersOf b c.afe s).cells c.register.toNat = value.toUInt16

/-- The calls that return, in a run of calls from `s`. -/
def EveryReturn (P : Call → ServerState → UInt32 → ServerState → Prop) : List Call → ServerState → Prop
  | [], _ => True
  | c :: calls, s => (∀ v t, c.prog b s = .ok v t → P c s v t) ∧ EveryReturn P calls (c.run b s)

/-- No call of a run is cut off. -/
def Uncut : List Call → ServerState → Prop
  | [], _ => True
  | c :: calls, s => (∃ v t, c.prog b s = .ok v t) ∧ Uncut calls (c.run b s)

variable {b} {s t : ServerState}

/-! ### One call -/

/-- The registers after the first frame of `setRegister`, or none of `getRegister`. -/
def Call.stored (b : Board) (c : Call) (s : ServerState) : Nat → UInt16 :=
  match c.value with
  | some value =>
    if readoutEnable b c.afe s then (registersOf b c.afe s).cells
    else Function.update (registersOf b c.afe s).cells c.register.toNat value.toUInt16
  | none => (registersOf b c.afe s).cells

/-- What a call that returns has done. -/
structure Call.Moved (b : Board) (c : Call) (s : ServerState) (v : UInt32) (t : ServerState) : Prop where
  result : v = (c.stored b s c.register.toNat).toUInt32
  cells : (registersOf b c.afe t).cells = Function.update (c.stored b s) 0 0
  others (afe : Nat) : afe ≠ c.afe → registersOf b afe t = registersOf b afe s

theorem Call.register_toNat (c : Call) : c.register.toNat ≠ 0 := fun h => c.ne_zero (UInt32.toNat_inj.mp h)

theorem transfer_clear {r : Registers} {register word : UInt32} (h : wordAddress.extract word = register)
    (hclear : r.cells 0 &&& 2 = 0) : (r.transfer word).cells =
      Function.update r.cells register.toNat (wordContent.extract word).toUInt16 := by
  rw [Registers.transfer, h, if_neg fun hmode => hmode.2 hclear]

theorem wp_get {afe : Nat} (hafe : afe < 5) {register : UInt32} (hregister : register ∈ registerList) (hne : register ≠ 0)
    (s : ServerState) : wp (getRegister b.env afe register)
      (fun v t => v = ((registersOf b afe s).cells register.toNat).toUInt32 ∧
        (registersOf b afe t).cells = Function.update (registersOf b afe s).cells 0 0 ∧
        ∀ afe', afe' ≠ afe → registersOf b afe' t = registersOf b afe' s) (fun e _ => e = Spi.timeout) s := by
  rw [getRegister, if_neg (not_not_intro hregister)]
  refine wp_readOut hafe hregister rfl pure s fun t ht => ?_
  obtain ⟨-, hcells, -⟩ := readOut hregister (registersOf b afe s)
  have hne' : register.toNat ≠ 0 := fun h => hne (UInt32.toNat_inj.mp h)
  exact ⟨by rw [settled, if_neg hne'], by rw [ht.registers, hcells], ht.others⟩

theorem Call.wp_prog (c : Call) (s : ServerState) : wp (c.prog b) (c.Moved b s) (fun _ _ => True) s := by
  obtain ⟨afe, register, _ | value, hafe, hregister, hne⟩ := c
  · refine wp_mono (wp_get hafe hregister hne s) (fun v t ht => ?_) fun _ _ _ => trivial
    exact ⟨ht.1, ht.2.1, ht.2.2⟩
  · obtain ⟨-, hand, hclear, -, -⟩ := listed_spec register hregister
    have hword : (((register &&& 0xFF) <<< 16) ||| (value &&& (0xFFFF : UInt32))) &&& (0xFF0000 : UInt32) = register <<< 16 := by
      rw [word_and, hand, hclear]
    have hne' : register.toNat ≠ 0 := fun h => hne (UInt32.toNat_inj.mp h)
    show wp (setRegister b.env afe register value) _ _ s
    rw [setRegister, if_neg (not_not_intro hregister)]
    refine wp_bind.mpr (wp_mono (wp_send afe _ s) (fun _ s1 h1 => ?_) fun _ _ _ => trivial)
    -- The first frame is stored if the mode is clear, and only addresses the register if it is set.
    have hcells1 : (registersOf b afe s1).cells = Call.stored b ⟨afe, register, some value, hafe, hregister, hne⟩ s := by
      rw [h1.registers, Call.stored, readoutEnable]
      by_cases hmode : (registersOf b afe s).cells 0 &&& 2 = 0
      · rw [transfer_clear (extract_word_address register value) hmode, extract_word_content, toUInt16_and, hand, hmode]
        rfl
      · rw [transfer_address ((extract_word_address register value).trans hand) hne hmode]
        simp [hmode]
    refine wp_mono (wp_readOut hafe hregister hword pure s1 (Q := Call.Moved b ⟨afe, register, some value, hafe, hregister, hne⟩ s)
      fun t ht => ?_) (fun _ _ h => h) fun _ _ _ => trivial
    obtain ⟨-, hcells, -⟩ := readOut hregister (registersOf b afe s1)
    rw [hword] at ht
    refine ⟨?_, ?_, fun a ha => (ht.others a ha).trans (h1.others a ha)⟩
    · rw [settled, if_neg hne', hcells1]
    · rw [ht.registers, hcells, hcells1]

theorem Call.moved {c : Call} {v : UInt32} (h : c.prog b s = .ok v t) : c.Moved b s v t := wp_ok (c.wp_prog s) h

theorem Call.run_eq {c : Call} {v : UInt32} (h : c.prog b s = .ok v t) : c.run b s = t := by rw [Call.run, h]

namespace Call.Moved
variable {c : Call} {v : UInt32}

/-- The registers that the calls are for are what the first frame has left. -/
theorem cells_of_ne (h : c.Moved b s v t) {k : Nat} (hk : k ≠ 0) :
    (registersOf b c.afe t).cells k = c.stored b s k := by
  rw [h.cells, Function.update_of_ne hk]

theorem mode (h : c.Moved b s v t) : (registersOf b c.afe t).cells 0 = 0 := by rw [h.cells, Function.update_self]

theorem readoutEnable_self (h : c.Moved b s v t) : readoutEnable b c.afe t = false := by
  rw [readoutEnable, h.mode]
  rfl

/-- The rest of the registers is kept in any case. -/
theorem kept (h : c.Moved b s v t) {k : Nat} (hk : k ≠ 0) (hne : c.value.isSome → k ≠ c.register.toNat) :
    (registersOf b c.afe t).cells k = (registersOf b c.afe s).cells k := by
  rw [h.cells_of_ne hk, stored]
  cases hvalue : c.value with
  | none => rfl
  | some value =>
    dsimp only
    split
    · rfl
    · exact Function.update_of_ne (hne (by rw [hvalue]; rfl)) _ _

theorem done_iff (h : c.Moved b s v t) : c.Done b s v t ↔ c.Ready b s := by
  have hcell := h.cells_of_ne c.register_toNat
  constructor
  · intro hdone value hvalue
    cases hmode : readoutEnable b c.afe s with
    | false => exact Or.inl rfl
    | true =>
      refine Or.inr ?_
      have hresult := hdone.result
      rw [hvalue] at hresult
      dsimp only at hresult
      rw [← hresult, hcell, stored, hvalue, hmode]
      rfl
  · intro hready
    refine ⟨?_, fun k hk hne => h.kept hk hne, h.mode, h.others⟩
    cases hvalue : c.value with
    | none =>
      dsimp only
      rw [h.result, stored, hvalue]
    | some value =>
      dsimp only
      rw [hcell, stored, hvalue]
      dsimp only
      cases hmode : readoutEnable b c.afe s with
      | false => exact Function.update_self ..
      | true => exact (hready value hvalue).resolve_left fun hf => by rw [hmode] at hf; cases hf

end Call.Moved

/-! ### Runs of calls -/

theorem EveryReturn.mono {P Q : Call → ServerState → UInt32 → ServerState → Prop}
    (hPQ : ∀ c s v t, c.prog b s = .ok v t → P c s v t → Q c s v t) :
    ∀ {calls : List Call} {s : ServerState}, EveryReturn b P calls s → EveryReturn b Q calls s
  | [], _, _ => trivial
  | c :: _, s, h => ⟨fun v t hret => hPQ c s v t hret (h.1 v t hret), EveryReturn.mono hPQ h.2⟩

/-- Calls that are not cut off leave the mode clear. -/
theorem ready_of_uncut : ∀ {calls : List Call} {s : ServerState}, (∀ afe, readoutEnable b afe s = false) →
    Uncut b calls s → EveryReturn b (fun c s _ _ => c.Ready b s) calls s
  | [], _, _, _ => trivial
  | c :: _, s, hclear, h => by
    refine ⟨fun _ _ _ _ _ => Or.inl (hclear c.afe), ready_of_uncut (fun afe => ?_) h.2⟩
    obtain ⟨v, t, hret⟩ := h.1
    have hmoved := Call.moved hret
    rw [Call.run_eq hret]
    by_cases hafe : afe = c.afe
    · rw [hafe]
      exact hmoved.readoutEnable_self
    · rw [readoutEnable, hmoved.others afe hafe]
      exact hclear afe

/-- In a run of calls, of which any may be cut off at any frame, the calls that return have stored or returned the content
of their register and changed nothing else exactly when each value met a clear readout mode, or the same value in its
register; it does in a run in which no call is cut off. -/
theorem everyReturn_done_iff (b : Board) (calls : List Call) :
    (∀ s, EveryReturn b (fun c s v t => c.Done b s v t) calls s ↔ EveryReturn b (fun c s _ _ => c.Ready b s) calls s) ∧
      ∀ cells reads accesses, Uncut b calls (.start cells reads accesses) →
        EveryReturn b (fun c s v t => c.Done b s v t) calls (.start cells reads accesses) := by
  have hiff (s : ServerState) :
      EveryReturn b (fun c s v t => c.Done b s v t) calls s ↔ EveryReturn b (fun c s _ _ => c.Ready b s) calls s :=
    ⟨EveryReturn.mono fun _ _ _ _ hret => (Call.moved hret).done_iff.mp,
      EveryReturn.mono fun _ _ _ _ hret => (Call.moved hret).done_iff.mpr⟩
  refine ⟨hiff, fun cells reads accesses huncut => (hiff _).mpr (ready_of_uncut (fun afe => ?_) huncut)⟩
  have hclear : (registersOf b afe (.start cells reads accesses)).cells 0 = 0 := rfl
  rw [readoutEnable, hclear]
  rfl

/-- The call returns and leaves its register with a content. -/
def Call.leaves (b : Board) (c : Call) (content : UInt16) (s : ServerState) : Bool :=
  match c.prog b s with
  | .ok _ t => (registersOf b c.afe t).cells c.register.toNat == content
  | .error .. => false

theorem Call.of_leaves {c : Call} {content : UInt16} (h : c.leaves b content s = true) :
    ∃ v t, c.prog b s = .ok v t ∧ (registersOf b c.afe t).cells c.register.toNat = content := by
  unfold leaves at h
  split at h
  · rename_i v t hret
    exact ⟨v, t, hret, eq_of_beq h⟩
  · cases h

/-- Two values for one register. -/
def twoCalls : List Call := [⟨0, 1, some 5, by decide, by decide, by decide⟩, ⟨0, 1, some 7, by decide, by decide, by decide⟩]

/-- On a board that is never busy both are stored. -/
theorem twoCalls_done : EveryReturn .idle (fun c s v t => c.Done .idle s v t) twoCalls .fresh := by
  refine (everyReturn_done_iff .idle twoCalls).2 (fun _ => 0) (fun _ => 0) 0 ⟨?_, ?_, trivial⟩
  · obtain ⟨v, t, hret, -⟩ := Call.of_leaves (show twoCalls[0].leaves .idle 5 .fresh = true by decide +kernel)
    exact ⟨v, t, hret⟩
  · obtain ⟨v, t, hret, -⟩ := Call.of_leaves
      (show twoCalls[1].leaves .idle 7 (twoCalls[0].run .idle .fresh) = true by decide +kernel)
    exact ⟨v, t, hret⟩

/-- The SPI is busy at the fourth read of its state, after the second frame of a `setRegister`. -/
def stuck : Board := { Board.idle with control := fun n => if n = 3 then 4 else 0 }

/-- The first call is cut off with the mode set, and the second one returns and has not stored 7. -/
theorem twoCalls_not_done : ¬EveryReturn stuck (fun c s v t => c.Done stuck s v t) twoCalls .fresh := by
  intro h
  obtain ⟨v, t, hret, hcell⟩ := Call.of_leaves
    (show twoCalls[1].leaves stuck 5 (twoCalls[0].run stuck .fresh) = true by decide +kernel)
  have hstored : (registersOf stuck 0 t).cells 1 = 7 := (h.2.1 v t hret).result
  exact absurd (hcell.symm.trans hstored) (by decide)

end AfeTransfers
end DaphneZmq
