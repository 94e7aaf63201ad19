import DaphneZmq.Theorems.AlignAFE

/-! DELAY_EN_VTC over the calls of `alignAFE`: when the tap registers are written, and what a call leaves. The
    resets write them before DELAY_EN_VTC is cleared, and a call that does not reach its last write leaves it
    cleared. -/

namespace DaphneZmq
open Lib Lib.Device

/-! ### Every access is logged -/

namespace FrontEnd
variable {D : Type} (env : Env Nat UInt32)

theorem does_readBits (f : BitField) : Does .logs (Reg.readBits env f : Prog Nat UInt32 D UInt32) :=
  (does_logs_read f.addr).bind fun _ => does_pure _

theorem does_writeRegister (addr : Nat) (value : UInt32) :
    Does .logs (Reg.writeRegister env addr value : Prog Nat UInt32 D UInt32) :=
  (does_logs_write addr value).bind fun _ => does_logs_read addr

theorem does_writeBits (f : BitField) (data : UInt32) : Does .logs (Reg.writeBits env f data : Prog Nat UInt32 D UInt32) :=
  (does_logs_read f.addr).bind fun _ => (does_writeRegister env f.addr _).bind fun _ => does_readBits env f

theorem does_pollDelayCtrlReady : ∀ polls, Does .logs (pollDelayCtrlReady env polls : Prog Nat UInt32 D Bool)
  | 0 => (does_readBits env delayctrlReady).bind fun _ => does_pure _
  | polls + 1 => (does_readBits env delayctrlReady).bind fun ready => by
    split
    · exact does_pure _
    · exact does_pollDelayCtrlReady polls

theorem does_waitForDelayCtrlReady : Does .logs (waitForDelayCtrlReady env : Prog Nat UInt32 D Bool) :=
  ⟨fun s => (does_pollDelayCtrlReady env (env.polls s.accesses + 1)).run s⟩

end FrontEnd

namespace Daphne
open FrontEnd
variable {D : Type} (env : Env Nat UInt32)

theorem does_snapshot (afe : Nat) : Does .logs (snapshot env afe : Prog Nat UInt32 D UInt32) :=
  (does_writeRegister env frontendTrigger _).bind fun _ => does_logs_read _

theorem does_scanGeneric {afe taps : Nat} {setFunc : Nat → UInt32 → Prog Nat UInt32 D UInt32}
    (hset : ∀ v, Does .logs (setFunc afe v)) : Does .logs (scanGeneric env afe taps setFunc) :=
  does_mapM (fun _ => (hset _).bind fun _ => does_snapshot env afe) _

theorem does_setBestDelay (afe taps : Nat) : Does .logs (setBestDelay env afe taps : Prog Nat UInt32 D _) :=
  (does_scanGeneric env fun v => does_writeBits env (frontendDelay afe) v).bind fun data => by
    split
    · exact does_throw _
    · exact (does_writeBits env (frontendDelay afe) _).bind fun _ => does_pure _

theorem does_setBestBitslip (afe taps : Nat) : Does .logs (setBestBitslip env afe taps : Prog Nat UInt32 D _) :=
  (does_readBits env (frontendBitslip afe)).bind fun _ =>
    (does_scanGeneric env fun v => does_writeBits env (frontendBitslip afe) v).bind fun _ =>
      (does_writeBits env (frontendBitslip afe) _).bind fun _ => (does_snapshot env afe).bind fun _ => does_pure _

end Daphne

namespace AlignAFE
open FrontEnd Daphne

theorem does_alignBlock (env : Env Nat UInt32) (afe : Nat) : Does .logs (alignBlock env afe) :=
  (does_setBestDelay env afe 512).bind fun _ => (does_setBestBitslip env afe 16).bind fun _ =>
    (does_mapM (fun _ => does_snapshot env afe) _).bind fun _ => by
      dsimp only
      split <;> exact does_pure _

theorem does_readBack (env : Env Nat UInt32) (afe : Nat) : Does .logs (readBack env afe) :=
  (does_readBits env (frontendDelay afe)).bind fun _ => (does_readBits env (frontendBitslip afe)).bind fun _ =>
    (does_modifyDriver fun _ => List.prefix_rfl).bind fun _ => does_pure _

theorem does_alignBlocks (env : Env Nat UInt32) : Does .logs (alignBlocks env) :=
  (does_mapM (does_alignBlock env) _).bind fun _ => (does_modifyDriver fun _ => List.prefix_rfl).bind fun _ =>
    (does_mapM (does_readBack env) _).bind fun _ => by
      dsimp only
      split <;> exact does_pure _

theorem tryAlign_opening (env : Env Nat UInt32) : ∃ rest : UInt32 → Prog Nat UInt32 AlignAfesResponse (Bool × String),
    (∀ v, Does .logs (rest v)) ∧
      tryAlign env = setBitslip env 0 0 >>= fun _ => setDelay env 0 0 >>= rest := by
  refine ⟨fun _ => (do
      let _ ← [1, 2, 3, 4].mapM fun afe => setBitslip env afe 0 >>= fun _ => setDelay env afe 0
      let _ ← doResetDelayCtrl env
      let _ ← doResetSerDesCtrl env
      let _ ← setEnableDelayVtc env 0
      let ready ← waitForDelayCtrlReady env
      if ready then
        let answer ← alignBlocks env
        let _ ← setEnableDelayVtc env 1
        return answer
      else throw "DELAYCTRL_READY did not assert after reset; refusing alignment."), fun _ => ?_, ?_⟩
  · refine (does_mapM (fun _ => (does_writeBits env _ 0).bind fun _ => does_writeBits env _ 0) _).bind fun _ => ?_
    refine ((does_writeBits env _ 1).bind fun _ => does_writeBits env _ 0).bind fun _ => ?_
    refine ((does_writeBits env _ 1).bind fun _ => does_writeBits env _ 0).bind fun _ => ?_
    refine (does_writeBits env _ 0).bind fun _ => (does_waitForDelayCtrlReady env).bind fun ready => ?_
    split
    · exact (does_alignBlocks env).bind fun _ => (does_writeBits env _ 1).bind fun _ => does_pure _
    · exact does_throw _
  · have hrange : List.range 5 = 0 :: [1, 2, 3, 4] := rfl
    simp only [tryAlign, reset, resetDelayCtrlValues, hrange, List.mapM_cons, bind_assoc, pure_bind]

/-! ### One call -/

variable {b : Bench} {s t : DeviceState}

/-- The write goes to a tap register. -/
def TapWrite (w : Write Nat UInt32) : Prop := ∃ afe < 5, w.address = (frontendDelay afe).addr

/-- The writes since `s`. -/
def newWrites (s t : DeviceState) : List (Write Nat UInt32) := t.writes.drop s.writes.length

theorem newWrites_append {ws : List (Write Nat UInt32)} (h : t.writes = s.writes ++ ws) : newWrites s t = ws := by
  rw [newWrites, h, List.drop_left]

/-- Since `s` the tap registers were written only while DELAY_EN_VTC was 0, and it is 1 now. -/
structure KeepsVtcRule (s t : DeviceState) : Prop where
  taps : ∀ w ∈ newWrites s t, TapWrite w → vtc w.before = 0
  enabled : vtc t.cells = 1

/-- Either DELAY_EN_VTC is 1 and one of the first six accesses throws, so that no tap register is written; or it
    is 0, the delay controller becomes ready within the wait and no access throws before DELAY_EN_VTC is set. -/
def Complies (b : Bench) (s : DeviceState) : Prop :=
  (vtc s.cells = 1 ∧ ∃ k < 6, b.faults (s.accesses + k) ≠ none) ∨
    vtc s.cells = 0 ∧ ∃ k ≤ lastPoll b s, FirstReady b (statusReads s) k ∧ b.env.Clear s.accesses (18673 + k)

theorem vtc_cases (cells : Nat → UInt32) : vtc cells = 0 ∨ vtc cells = 1 := by
  have hlt := BitField.extract_lt delayEnVtc (cells delayEnVtc.addr)
  have hwidth : 2 ^ delayEnVtc.width = 2 := by decide
  rw [hwidth] at hlt
  simp only [vtc, ← UInt32.toNat_inj, UInt32.toNat_zero, UInt32.toNat_one]
  omega

theorem not_tapWrite_control {w : Write Nat UInt32} (h : w.address = delayEnVtc.addr) : ¬TapWrite w := by
  rintro ⟨afe, -, hafe⟩
  rw [h] at hafe
  simp only [frontendDelay, delayEnVtc] at hafe
  omega

theorem not_tapWrite_bitslip {w : Write Nat UInt32} (h : w.address = (frontendBitslip 0).addr) : ¬TapWrite w := by
  rintro ⟨afe, hlt, hafe⟩
  rw [h] at hafe
  simp only [frontendDelay, frontendBitslip] at hafe
  omega

theorem KeepsVtcRule.not_off (h : vtc t.cells = 0) : ¬KeepsVtcRule s t := fun hrule => by
  rw [hrule.enabled] at h
  exact absurd h (by decide)

theorem keepsVtcRule_last {u : DeviceState} (hoff : vtc s.cells = 0) (hG : vtcOff.Rel s t)
    (hcells : u.cells = (Reg.afterWriteBits t delayEnVtc 1).cells)
    (hwrites : u.writes = (Reg.afterWriteBits t delayEnVtc 1).writes) : KeepsVtcRule s u := by
  obtain ⟨ws, hws, h⟩ := hG
  obtain ⟨-, hbefore⟩ := h hoff
  constructor
  · have hnew : u.writes = s.writes ++ (ws ++ [⟨t.cells, t.reads, delayEnVtc.addr, delayEnVtc.insert (t.cells delayEnVtc.addr) 1⟩]) := by
      rw [hwrites, Reg.afterWriteBits, hws, List.append_assoc]
    rw [newWrites_append hnew]
    intro w hw htap
    rcases List.mem_append.mp hw with hw | hw
    · exact hbefore w hw
    · rw [List.mem_singleton.mp hw] at htap
      exact absurd htap (not_tapWrite_control rfl)
  · rw [hcells, vtc, Reg.afterWriteBits_cells, Function.update_self, BitField.extract_insert]
    decide

theorem tryAlign_off (hoff : vtc s.cells = 0) :
    wp (tryAlign b.env) (fun _ t => KeepsVtcRule s t ↔ Complies b s) (fun _ t => KeepsVtcRule s t ↔ Complies b s) s := by
  have hcomplies : Complies b s ↔
      ∃ k ≤ lastPoll b s, FirstReady b (statusReads s) k ∧ b.env.Clear s.accesses (18673 + k) := by
    refine ⟨?_, fun h => Or.inr ⟨hoff, h⟩⟩
    rintro (⟨hon, -⟩ | ⟨-, h⟩)
    · rw [hoff] at hon
      exact absurd hon (by decide)
    · exact h
  have hstill : ∀ {t : DeviceState}, vtcOff.Rel s t → vtc t.cells = 0 := fun ⟨_, _, h⟩ => (h hoff).1
  rw [tryAlign_eq, hcomplies]
  rcases firstReady_or b s with ⟨k, hk, hready⟩ | hnot
  · have hunique : (∃ k ≤ lastPoll b s, FirstReady b (statusReads s) k ∧ b.env.Clear s.accesses (18673 + k)) ↔
        b.env.Clear s.accesses (18673 + k) := by
      refine ⟨fun ⟨j, _, hj, hclear⟩ => ?_, fun hclear => ⟨k, hk, hready, hclear⟩⟩
      rwa [First.unique hready hj]
    rw [hunique]
    refine wp_bind.mpr (wp_mono (takes_approach hk hready).run ?_ ?_)
    · rintro answer t ⟨haccesses, hclear, hG, -⟩
      -- the last write is decided by its first two accesses
      have hsplit : b.env.Clear s.accesses (18673 + k) ↔ b.env.Clear t.accesses 2 := by
        rw [haccesses]
        rw [show 18673 + k = 60 + (k + 1 + 18610) + 2 by omega]
        exact ⟨Env.Clear.drop, hclear.append⟩
      have hlast : ∀ u : DeviceState, Reg.Written b.env delayEnVtc 1 t u →
          (KeepsVtcRule s u ↔ b.env.Clear s.accesses (18673 + k)) := by
        rintro u (⟨hclear', hcells, hwrites, -⟩ | ⟨hcut, hcells, -, -⟩)
        · exact iff_of_true (keepsVtcRule_last hoff hG hcells hwrites) (hsplit.mpr hclear')
        · refine iff_of_false (KeepsVtcRule.not_off ?_) (mt hsplit.mp hcut)
          rw [hcells]
          exact hstill hG
      exact wp_bind.mpr (wp_mono (Reg.written_writeBits b.driven_control 1) (fun _ u hu => hlast u hu) fun _ u hu => hlast u hu)
    · rintro e t ⟨hbroke, hG⟩
      exact iff_of_false (KeepsVtcRule.not_off (hstill hG)) fun hclear => hbroke.not_clear (hclear.mono (by omega))
  · refine wp_bind.mpr (wp_mono (approach_not_ready hnot) (fun _ _ h => h.elim) ?_)
    rintro e t ⟨-, hG⟩
    exact iff_of_false (KeepsVtcRule.not_off (hstill hG)) fun ⟨k, hk, hready, _⟩ => hnot k hk hready.holds

theorem written_opening {u : DeviceState} (hon : vtc s.cells = 1) (h : Reg.Written b.env (frontendBitslip 0) 0 s u) :
    vtc u.cells = 1 ∧ ∃ ws, u.writes = s.writes ++ ws ∧ ∀ w ∈ ws, ¬TapWrite w := by
  rcases h with ⟨-, hcells, hwrites, -⟩ | ⟨-, hcells, hwrites, -⟩
  · refine ⟨?_, _, hwrites, fun w hw => not_tapWrite_bitslip (by rw [List.mem_singleton.mp hw])⟩
    have hne : delayEnVtc.addr ≠ (frontendBitslip 0).addr := by decide
    rw [vtc, hcells, Reg.afterWriteBits_cells, Function.update_of_ne hne]
    exact hon
  · exact ⟨by rw [hcells]; exact hon, [], by rw [hwrites, List.append_nil], by simp⟩

/-- Once a tap register has been written while DELAY_EN_VTC was 1, the rule is broken for good. -/
theorem KeepsVtcRule.not_opened {u : DeviceState} {w : Write Nat UInt32} {ws : List (Write Nat UInt32)}
    (hws : t.writes = s.writes ++ ws ++ [w]) (htap : TapWrite w) (hon : vtc w.before = 1) (hlogs : t.writes <+: u.writes) :
    ¬KeepsVtcRule s u := fun hrule => by
  obtain ⟨ws', hws'⟩ := hlogs
  have hnew : newWrites s u = ws ++ [w] ++ ws' := newWrites_append (by rw [← hws', hws]; simp)
  have hoff := hrule.taps w (by rw [hnew]; simp) htap
  rw [hon] at hoff
  exact absurd hoff (by decide)

theorem tryAlign_on (hon : vtc s.cells = 1) :
    wp (tryAlign b.env) (fun _ t => KeepsVtcRule s t ↔ Complies b s) (fun _ t => KeepsVtcRule s t ↔ Complies b s) s := by
  have hcomplies : Complies b s ↔ ¬b.env.Clear s.accesses 6 := by
    have hexists : (∃ k < 6, b.faults (s.accesses + k) ≠ none) ↔ ¬b.env.Clear s.accesses 6 := by
      rw [Env.Clear]
      push Not
      rfl
    rw [← hexists]
    refine ⟨?_, fun h => Or.inl ⟨hon, h⟩⟩
    rintro (⟨-, h⟩ | ⟨hoff, -⟩)
    · exact h
    · rw [hon] at hoff
      exact absurd hoff (by decide)
  obtain ⟨rest, hrest, heq⟩ := tryAlign_opening b.env
  rw [heq, hcomplies, wp_bind]
  refine wp_mono (wp_and (takes_setBitslip (b := b) (show 0 < 5 by decide) 0).run
    (Reg.written_writeBits (b.driven_bitslip (by decide)) 0)) ?_ ?_
  · rintro _ t ⟨⟨haccesses, hclear, -, -⟩, hwritten⟩
    obtain ⟨hvtc, ws, hws, htaps⟩ := written_opening hon hwritten
    have hsplit : b.env.Clear s.accesses 6 ↔ b.env.Clear t.accesses 2 := by
      rw [haccesses, show 6 = 4 + 2 by rfl]
      exact ⟨Env.Clear.drop, hclear.append⟩
    -- whatever follows the write of the tap register, the write stays in the log
    have htap : ∀ {u v : DeviceState}, b.env.Clear t.accesses 2 → u.writes = (Reg.afterWriteBits t (frontendDelay 0) 0).writes →
        u.writes <+: v.writes → (KeepsVtcRule s v ↔ ¬b.env.Clear s.accesses 6) := fun hclear' hwrites hlogs =>
      iff_of_false (KeepsVtcRule.not_opened (w := ⟨t.cells, t.reads, _, _⟩) (by rw [hwrites, Reg.afterWriteBits, hws])
        ⟨0, by decide, rfl⟩ hvtc hlogs) (not_not.mpr (hsplit.mpr hclear'))
    refine wp_bind.mpr (wp_mono (wp_and (takes_setDelay (b := b) (show 0 < 5 by decide) 0).run
      (Reg.written_writeBits (b.driven_delay (by decide)) 0)) ?_ ?_)
    · rintro v u ⟨⟨-, hclear', -, -⟩, hwritten' | ⟨hcut, -, -⟩⟩
      · exact wp_mono ((hrest v).run u) (fun _ _ hlogs => htap (hclear'.mono (by decide)) hwritten'.2.writes hlogs)
          fun _ _ hlogs => htap (hclear'.mono (by decide)) hwritten'.2.writes hlogs
      · exact absurd (hclear'.mono (by decide)) hcut
    · rintro e u ⟨-, ⟨hclear', -, hwrites, -⟩ | ⟨hcut, hcells, hwrites, -⟩⟩
      · exact htap hclear' hwrites List.prefix_rfl
      · refine iff_of_true ⟨fun w hw htap => absurd htap (htaps w ?_), by rw [hcells]; exact hvtc⟩ (mt hsplit.mp hcut)
        rwa [newWrites_append (by rw [hwrites, hws])] at hw
  · rintro e t ⟨⟨hbroke, -⟩, hwritten⟩
    obtain ⟨hvtc, ws, hws, htaps⟩ := written_opening hon hwritten
    refine iff_of_true ⟨fun w hw htap => absurd htap (htaps w ?_), hvtc⟩ fun hclear => hbroke.not_clear (hclear.mono (by decide))
    rwa [newWrites_append hws] at hw

/-- One call keeps the rule exactly if it complies. -/
theorem alignAFE_keeps_iff (b : Bench) (s : DeviceState) : KeepsVtcRule s (alignAFE b.env s).2 ↔ Complies b s := by
  have hwp := (vtc_cases s.cells).elim (tryAlign_off (b := b)) (tryAlign_on (b := b))
  unfold wp at hwp
  unfold alignAFE
  split at hwp <;> rename_i heq <;> simp only [heq] <;> exact hwp

/-! ### Every sequence of calls -/

/-- A call begins with an empty response. -/
def renew (s : DeviceState) : DeviceState := { s with driver := {} }

/-- The state after `n` calls. -/
def calls (b : Bench) (s : DeviceState) : Nat → DeviceState
  | 0 => s
  | n + 1 => (alignAFE b.env (renew (calls b s n))).2

theorem calls_succ (b : Bench) (s : DeviceState) (n : Nat) :
    calls b s (n + 1) = (alignAFE b.env (renew (calls b s n))).2 := rfl

/-- The rule over the first `n` calls: at every write of a tap register DELAY_EN_VTC is 0, and after every call
    it is 1. -/
structure AlwaysKeepsVtcRule (b : Bench) (s : DeviceState) (n : Nat) : Prop where
  taps : ∀ w ∈ newWrites s (calls b s n), TapWrite w → vtc w.before = 0
  enabled : ∀ i < n, vtc (calls b s (i + 1)).cells = 1

theorem does_tryAlign (env : Env Nat UInt32) : Does .logs (tryAlign env) := by
  obtain ⟨rest, hrest, heq⟩ := tryAlign_opening env
  rw [heq]
  exact (does_writeBits env _ 0).bind fun _ => (does_writeBits env _ 0).bind hrest

theorem alignAFE_logs (b : Bench) (s : DeviceState) : s.writes <+: (alignAFE b.env s).2.writes := by
  have hwp := (does_tryAlign b.env).run s
  unfold wp at hwp
  unfold alignAFE
  split at hwp <;> rename_i heq <;> simp only [heq] <;> exact hwp

theorem calls_succ_logs (b : Bench) (s : DeviceState) (n : Nat) : (calls b s n).writes <+: (calls b s (n + 1)).writes :=
  alignAFE_logs b (renew (calls b s n))

theorem calls_logs (b : Bench) (s : DeviceState) : ∀ n, s.writes <+: (calls b s n).writes
  | 0 => List.prefix_rfl
  | n + 1 => (calls_logs b s n).trans (calls_succ_logs b s n)

theorem newWrites_trans {u : DeviceState} (h : s.writes <+: t.writes) (h' : t.writes <+: u.writes) :
    newWrites s u = newWrites s t ++ newWrites t u := by
  obtain ⟨ws, hws⟩ := h
  obtain ⟨ws', hws'⟩ := h'
  rw [newWrites_append hws.symm, newWrites_append hws'.symm, newWrites_append (by rw [← hws', ← hws, List.append_assoc])]

/-- The next call keeps the rule exactly if the state that it finds complies. -/
theorem keeps_next_iff (b : Bench) (s : DeviceState) (n : Nat) :
    KeepsVtcRule (calls b s n) (calls b s (n + 1)) ↔ Complies b (calls b s n) := by
  have h := alignAFE_keeps_iff b (renew (calls b s n))
  rw [← calls_succ] at h
  exact ⟨fun hrule => h.mp ⟨hrule.taps, hrule.enabled⟩, fun hcomplies => ⟨(h.mpr hcomplies).taps, (h.mpr hcomplies).enabled⟩⟩

theorem alwaysKeepsVtcRule_succ (n : Nat) : AlwaysKeepsVtcRule b s (n + 1) ↔
    AlwaysKeepsVtcRule b s n ∧ KeepsVtcRule (calls b s n) (calls b s (n + 1)) := by
  have hwrites : newWrites s (calls b s (n + 1)) = newWrites s (calls b s n) ++ newWrites (calls b s n) (calls b s (n + 1)) :=
    newWrites_trans (calls_logs b s n) (calls_succ_logs b s n)
  constructor
  · rintro ⟨htaps, henabled⟩
    rw [hwrites] at htaps
    exact ⟨⟨fun w hw => htaps w (List.mem_append_left _ hw), fun i hi => henabled i (by omega)⟩,
      fun w hw => htaps w (List.mem_append_right _ hw), henabled n (Nat.lt_succ_self n)⟩
  · rintro ⟨⟨htaps, henabled⟩, hnext⟩
    refine ⟨fun w hw => ?_, fun i hi => ?_⟩
    · rw [hwrites] at hw
      rcases List.mem_append.mp hw with hw | hw
      · exact htaps w hw
      · exact hnext.taps w hw
    · rcases Nat.lt_succ_iff_lt_or_eq.mp hi with hlt | rfl
      · exact henabled i hlt
      · exact hnext.enabled

/-- The rule holds over a sequence of calls exactly if each call finds a state that complies. -/
theorem alwaysKeepsVtcRule_iff (b : Bench) (s : DeviceState) :
    ∀ n, AlwaysKeepsVtcRule b s n ↔ ∀ i < n, Complies b (calls b s i)
  | 0 => by
    refine iff_of_true ⟨fun w hw => ?_, fun i hi => absurd hi (Nat.not_lt_zero i)⟩ fun i hi => absurd hi (Nat.not_lt_zero i)
    rw [newWrites, calls, List.drop_length] at hw
    exact absurd hw List.not_mem_nil
  | n + 1 => by
    rw [alwaysKeepsVtcRule_succ, alwaysKeepsVtcRule_iff b s n, keeps_next_iff]
    constructor
    · rintro ⟨hprev, hlast⟩ i hi
      rcases Nat.lt_succ_iff_lt_or_eq.mp hi with hlt | rfl
      · exact hprev i hlt
      · exact hlast
    · exact fun h => ⟨fun i hi => h i (by omega), h n (Nat.lt_succ_self n)⟩

/-- Hardware on which nothing throws and every word of the status register is `word`. -/
def steadyBench (word : UInt32) : Bench where
  faults _ := none
  status _ := word
  frameClock _ _ := kExpectedFclkWord
  polls _ := 0

/-- A front end with the control register at `control`. -/
def freshState (control : UInt32) : DeviceState where
  cells := Function.update (fun _ => 0) delayEnVtc.addr control
  reads _ := 0
  accesses := 0
  writes := []
  driver := {}

/-- One call breaks the rule on hardware that is ready and has DELAY_EN_VTC set, and on hardware that never gets
    ready. -/
theorem ready_and_not_ready_break : ¬AlwaysKeepsVtcRule (steadyBench 1) (freshState 4) 1 ∧
    ¬AlwaysKeepsVtcRule (steadyBench 0) (freshState 0) 1 := by
  constructor
  · rw [alwaysKeepsVtcRule_succ, keeps_next_iff]
    rintro ⟨-, ⟨-, k, -, hfault⟩ | ⟨hoff, -⟩⟩
    · exact hfault rfl
    · exact absurd hoff (by decide)
  · rw [alwaysKeepsVtcRule_succ, keeps_next_iff]
    rintro ⟨-, ⟨hon, -⟩ | ⟨-, k, -, hready, -⟩⟩
    · exact absurd hon (by decide)
    · have hnot : ¬Ready 0 := by decide
      exact hnot hready.holds

end AlignAFE
end DaphneZmq
