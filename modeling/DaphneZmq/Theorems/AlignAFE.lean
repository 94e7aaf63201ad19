import DaphneZmq.Theorems.Alignment

/-! The phases of `alignAFE`: the resets, the wait for the delay controller, the alignment of the AFEs. Each takes
    a number of accesses that is known before, and as long as DELAY_EN_VTC is 0 it keeps it so. -/

namespace DaphneZmq
open Lib Lib.Device
namespace AlignAFE
open FrontEnd Daphne
variable {b : Bench} {afe : Nat} {s t : DeviceState}

/-- DELAY_EN_VTC. -/
def vtc (cells : Nat → UInt32) : UInt32 := delayEnVtc.extract (cells delayEnVtc.addr)

/-- How often the status register has been read. -/
def statusReads (s : DeviceState) : Nat := s.reads delayctrlReady.addr

/-- If DELAY_EN_VTC is 0, then it is 0 at every write and at the end. -/
def vtcOff : Effect Nat UInt32 AlignAfesResponse where
  Rel s t := ∃ ws, t.writes = s.writes ++ ws ∧ (vtc s.cells = 0 → vtc t.cells = 0 ∧ ∀ w ∈ ws, vtc w.before = 0)
  refl s := ⟨[], (List.append_nil _).symm, fun h => ⟨h, by simp⟩⟩
  trans := by
    rintro s t u ⟨ws, hws, h⟩ ⟨ws', hws', h'⟩
    refine ⟨ws ++ ws', by rw [hws', hws, List.append_assoc], fun hs => ⟨(h' (h hs).1).1, fun w hw => ?_⟩⟩
    rcases List.mem_append.mp hw with hw | hw
    · exact (h hs).2 w hw
    · exact (h' (h hs).1).2 w hw
  tick s := ⟨[], (List.append_nil _).symm, fun h => ⟨h, by simp⟩⟩

theorem vtcOff_logs (h : vtcOff.Rel s t) : (Effect.logs : Effect Nat UInt32 AlignAfesResponse).Rel s t := by
  obtain ⟨ws, hws, -⟩ := h
  exact ⟨ws, hws.symm⟩

theorem vtcOff_of_eq (hcells : t.cells = s.cells) (hwrites : t.writes = s.writes) : vtcOff.Rel s t :=
  ⟨[], by rw [hwrites, List.append_nil], fun h => ⟨by rw [hcells]; exact h, by simp⟩⟩

/-! ### What an AFE's alignment keeps -/

theorem block_vtcOff (h : (block afe).Rel s t) : vtcOff.Rel s t := by
  have hnot : ¬blockCells afe delayEnVtc.addr := by
    simp only [blockCells, delayEnVtc, frontendDelay, frontendBitslip, frontendTrigger]
    omega
  obtain ⟨ws, hws, hbefore⟩ := h.writes
  refine ⟨ws, hws, fun hs => ⟨?_, fun w hw => ?_⟩⟩
  · rw [vtc, h.cells _ hnot]
    exact hs
  · rw [vtc, (hbefore w hw).2 _ hnot]
    exact hs

theorem block_statusReads (h : (block afe).Rel s t) : statusReads t = statusReads s := by
  refine h.reads _ ?_
  simp only [delayctrlReady, SpyBuffer.frameClock]
  omega

theorem block_other {other : Nat} (h : (block afe).Rel s t) (hafe : afe < 5) (hother : other < 5) (hne : other ≠ afe) :
    regs t other = regs s other ∧ samples t other = samples s other := by
  have hdelay : ¬blockCells afe (frontendDelay other).addr := by
    simp only [blockCells, frontendDelay, frontendBitslip, frontendTrigger]
    omega
  have hbitslip : ¬blockCells afe (frontendBitslip other).addr := by
    simp only [blockCells, frontendDelay, frontendBitslip, frontendTrigger]
    omega
  refine ⟨by rw [regs, h.cells _ hdelay, h.cells _ hbitslip, regs], h.reads _ ?_⟩
  simp only [SpyBuffer.frameClock]
  omega

/-! ### The resets -/

/-- A state that differs from `s` in the control register and the registers of the AFEs only, and in which
    the first `n` AFEs have bitslip 0. -/
structure ResetUpTo (s : DeviceState) (n : Nat) (t : DeviceState) : Prop where
  bitslip : ∀ afe < n, (regs t afe).2 = 0
  samples : ∀ afe < 5, FrontEnd.samples t afe = FrontEnd.samples s afe
  statusReads : statusReads t = AlignAFE.statusReads s

theorem takes_resetBlock {i : Nat} (hi : i < 5) (ht : ResetUpTo s i t) :
    Takes b.env vtcOff 8 (setBitslip b.env i 0 >>= fun _ => setDelay b.env i 0) (fun _ u => ResetUpTo s (i + 1) u) t := by
  refine ((takes_setBitslip hi 0).keep.coarsen fun _ => block_vtcOff).bind (k := 4) ?_
  rintro _ u ⟨⟨hregs, hsamples⟩, hblock, -⟩
  refine ((takes_setDelay hi 0).keep.coarsen fun _ => block_vtcOff).mono ?_
  rintro _ v ⟨⟨hregs', hsamples'⟩, hblock', -⟩
  refine ⟨fun afe hafe => ?_, fun afe hafe => ?_, ?_⟩
  · rcases Nat.lt_or_ge afe i with hlt | hge
    · rw [(block_other hblock' hi (by omega) (by omega)).1, (block_other hblock hi (by omega) (by omega)).1]
      exact ht.bitslip afe hlt
    · rw [show afe = i by omega, hregs', hregs]
      exact UInt32.zero_and
  · rw [← ht.samples afe hafe]
    by_cases hafe' : afe = i
    · rw [hafe', hsamples', hsamples]
    · rw [(block_other hblock' hi hafe hafe').2, (block_other hblock hi hafe hafe').2]
  · rw [block_statusReads hblock', block_statusReads hblock, ht.statusReads]

theorem takes_resetDelayCtrlValues :
    Takes b.env vtcOff 40 (resetDelayCtrlValues b.env) (fun _ t => ResetUpTo s 5 t) s := by
  have hloop : Takes b.env vtcOff (5 * 8)
      ((List.range 5).mapM fun afe => setBitslip b.env afe 0 >>= fun _ => setDelay b.env afe 0)
      (fun _ t => ResetUpTo s 5 t) s := by
    refine takes_mapM_range (fun i _ t => ResetUpTo s i t) ?_ fun i hi _ t ht => takes_resetBlock hi ht
    exact ⟨fun _ h => absurd h (Nat.not_lt_zero _), fun _ _ => rfl, rfl⟩
  exact hloop.bind (k := 0) fun _ t ht => takes_pure 0 ht

theorem takes_control {f : BitField} (hf : f.addr = delayEnVtc.addr) {data : UInt32}
    (hoff : ∀ word, delayEnVtc.extract word = 0 → delayEnVtc.extract (f.insert word data) = 0) (ht : ResetUpTo s 5 t) :
    Takes b.env vtcOff 4 (Reg.writeBits b.env f data) (fun _ u => ResetUpTo s 5 u) t := by
  refine Reg.takes_writeBits (by rw [hf]; exact b.driven_control) ⟨_, rfl, fun hs => ⟨?_, fun w hw => ?_⟩⟩
    ⟨fun afe hafe => ?_, ht.samples, ht.statusReads⟩
  · rw [vtc, State.afterWrite_cells, hf, Function.update_self]
    exact hoff _ hs
  · rw [List.mem_singleton.mp hw]
    exact hs
  · have hne : (frontendBitslip afe).addr ≠ f.addr := by
      rw [hf]
      simp only [frontendBitslip, delayEnVtc]
      omega
    rw [regs, Reg.afterWriteBits_cells, Function.update_of_ne hne]
    exact ht.bitslip afe hafe

theorem takes_resetBit {f : BitField} (hf : f.addr = delayEnVtc.addr) (hlow : f.high < delayEnVtc.low) (data : UInt32)
    (ht : ResetUpTo s 5 t) : Takes b.env vtcOff 4 (Reg.writeBits b.env f data) (fun _ u => ResetUpTo s 5 u) t :=
  takes_control hf (fun word hword => by rw [BitField.extract_insert_of_disjoint (Or.inr hlow), hword]) ht

theorem takes_reset : Takes b.env vtcOff 60 (reset b.env) (fun _ t => ResetUpTo s 5 t) s := by
  refine takes_resetDelayCtrlValues.bind (k := 20) fun _ t ht => ?_
  have hdelayctrl : Takes b.env vtcOff 8 (doResetDelayCtrl b.env) (fun _ u => ResetUpTo s 5 u) t :=
    (takes_resetBit (f := delayctrlReset) rfl (by decide) 1 ht).bind (k := 4) fun _ _ hu =>
      takes_resetBit (f := delayctrlReset) rfl (by decide) 0 hu
  refine hdelayctrl.bind (k := 12) fun _ u hu => ?_
  have hserdes : Takes b.env vtcOff 8 (doResetSerDesCtrl b.env) (fun _ u => ResetUpTo s 5 u) u :=
    (takes_resetBit (f := serdesReset) rfl (by decide) 1 hu).bind (k := 4) fun _ _ hv =>
      takes_resetBit (f := serdesReset) rfl (by decide) 0 hv
  refine hserdes.bind (k := 4) fun _ u hu => ?_
  refine (takes_control (f := delayEnVtc) rfl (fun word _ => ?_) hu).bind (k := 0) fun _ v hv => takes_pure _ hv
  rw [BitField.extract_insert]
  exact UInt32.zero_and

/-! ### The wait -/

def Ready (word : UInt32) : Prop := delayctrlReady.extract word ≠ 0

instance (word : UInt32) : Decidable (Ready word) := inferInstanceAs (Decidable (_ ≠ _))

/-- The first of the words from the `start`-th on that says ready is the `k`-th of them. -/
def FirstReady (b : Bench) (start k : Nat) : Prop := First (fun j => Ready (b.status (start + j))) k

/-- What a wait does. -/
def polling : Effect Nat UInt32 AlignAfesResponse := .touches (fun _ => False) (· = delayctrlReady.addr)

theorem polling_vtcOff (h : polling.Rel s t) : vtcOff.Rel s t := by
  obtain ⟨ws, hws, hbefore⟩ := h.writes
  refine ⟨ws, hws, fun hs => ⟨?_, fun w hw => absurd (hbefore w hw).1 not_false⟩⟩
  rw [vtc, h.cells _ not_false]
  exact hs

theorem polling_block (h : polling.Rel s t) : regs t afe = regs s afe ∧ samples t afe = samples s afe := by
  refine ⟨by rw [regs, h.cells _ not_false, h.cells _ not_false, regs], h.reads _ ?_⟩
  simp only [delayctrlReady, SpyBuffer.frameClock]
  omega

theorem takes_getDelayCtrlReady :
    Takes b.env polling 1 (getDelayCtrlReady b.env)
      (fun ready t => (ready ≠ 0 ↔ Ready (b.status (statusReads s))) ∧ statusReads t = statusReads s + 1) s := by
  have hread : polling.Rel s (s.afterRead delayctrlReady.addr) := touched_afterRead rfl
  refine (takes_read_driven b.driven_status hread (R := fun word t =>
    word = b.status (statusReads s) ∧ statusReads t = statusReads s + 1) ⟨rfl, ?_⟩).bind (k := 0) ?_
  · rw [statusReads, State.afterRead_reads, Function.update_self, statusReads]
  · rintro _ t ⟨rfl, ht⟩
    exact takes_pure _ ⟨Iff.rfl, ht⟩

theorem takes_poll_ready {k : Nat} : ∀ {polls : Nat} {s : DeviceState}, k ≤ polls → FirstReady b (statusReads s) k →
    Takes b.env polling (k + 1) (pollDelayCtrlReady b.env polls)
      (fun ready t => ready = true ∧ statusReads t = statusReads s + (k + 1)) s := by
  induction k with
  | zero =>
    intro polls s _ hfirst
    cases polls with
    | zero =>
      refine takes_getDelayCtrlReady.bind (k := 0) fun ready t ht => takes_pure _ ⟨?_, ht.2⟩
      simpa using ht.1.mpr hfirst.holds
    | succ polls =>
      refine takes_getDelayCtrlReady.bind (k := 0) fun ready t ht => ?_
      rw [if_pos (ht.1.mpr hfirst.holds)]
      exact takes_pure _ ⟨rfl, ht.2⟩
  | succ k ih =>
    rintro (_ | polls) s hle hfirst
    · omega
    · rw [Nat.add_comm (k + 1) 1]
      refine takes_getDelayCtrlReady.bind fun ready t ht => ?_
      rw [if_neg (fun h => hfirst.not_before 0 (by omega) (ht.1.mp h))]
      refine (ih (by omega) ⟨?_, fun j hj => ?_⟩).mono fun ready u hu => ⟨hu.1, ?_⟩
      · rw [ht.2, Nat.add_assoc, Nat.add_comm 1 k]
        exact hfirst.holds
      · rw [ht.2, Nat.add_assoc, Nat.add_comm 1 j]
        exact hfirst.not_before (j + 1) (by omega)
      · rw [hu.2, ht.2, Nat.add_assoc, Nat.add_comm 1 (k + 1)]

theorem takes_poll_not {polls : Nat} : ∀ {s : DeviceState}, (∀ j ≤ polls, ¬Ready (b.status (statusReads s + j))) →
    Takes b.env polling (polls + 1) (pollDelayCtrlReady b.env polls)
      (fun ready t => ready = false ∧ statusReads t = statusReads s + (polls + 1)) s := by
  induction polls with
  | zero =>
    intro s hnot
    refine takes_getDelayCtrlReady.bind (k := 0) fun ready t ht => takes_pure _ ⟨?_, ht.2⟩
    simpa using mt ht.1.mp (hnot 0 (Nat.le_refl 0))
  | succ polls ih =>
    intro s hnot
    rw [Nat.add_comm (polls + 1) 1]
    refine takes_getDelayCtrlReady.bind fun ready t ht => ?_
    rw [if_neg (fun h => hnot 0 (by omega) (ht.1.mp h))]
    refine (ih fun j hj => ?_).mono fun ready u hu => ⟨hu.1, ?_⟩
    · rw [ht.2, Nat.add_assoc, Nat.add_comm 1 j]
      exact hnot (j + 1) (by omega)
    · rw [hu.2, ht.2, Nat.add_assoc, Nat.add_comm 1 (polls + 1)]

theorem takes_wait_ready {polls k : Nat} (hpolls : b.polls s.accesses + 1 = polls) (hk : k ≤ polls)
    (hready : FirstReady b (statusReads s) k) : Takes b.env polling (k + 1) (waitForDelayCtrlReady b.env)
      (fun ready t => ready = true ∧ statusReads t = statusReads s + (k + 1)) s :=
  ⟨(takes_poll_ready (by rwa [← hpolls] at hk) hready).run⟩

theorem takes_wait_not {polls : Nat} (hpolls : b.polls s.accesses + 1 = polls)
    (hnot : ∀ j ≤ polls, ¬Ready (b.status (statusReads s + j))) :
    Takes b.env polling (polls + 1) (waitForDelayCtrlReady b.env)
      (fun ready t => ready = false ∧ statusReads t = statusReads s + (polls + 1)) s := by
  subst hpolls
  exact ⟨(takes_poll_not hnot).run⟩

/-! ### The AFEs -/

/-- The first `n` AFEs have been aligned since `s`, with the parts `blocks` of the report. -/
structure AlignedUpTo (b : Bench) (s : DeviceState) (n : Nat) (blocks : List (String × List String)) (t : DeviceState) :
    Prop where
  failures : blocks.flatMap (·.2) = [] ↔ ∀ afe < n, Accepted b afe (samples s afe)
  programmed : ∀ afe < n, Programmed b afe (samples s afe) (regs s afe).2 (regs t afe)
  rest : ∀ afe < 5, n ≤ afe → regs t afe = regs s afe ∧ samples t afe = samples s afe
  statusReads : statusReads t = AlignAFE.statusReads s

theorem AlignedUpTo.next {n : Nat} {blocks : List (String × List String)} {a : String × List String} {u : DeviceState}
    (h : AlignedUpTo b s n blocks t) (hn : n < 5) (hfailures : a.2 = [] ↔ Accepted b n (samples t n))
    (hprogrammed : Programmed b n (samples t n) (regs t n).2 (regs u n)) (hblock : (block n).Rel t u) :
    AlignedUpTo b s (n + 1) (blocks ++ [a]) u where
  failures := by
    rw [(h.rest n hn (Nat.le_refl n)).2] at hfailures
    rw [List.flatMap_append, List.append_eq_nil_iff, h.failures, List.flatMap_cons, List.flatMap_nil, List.append_nil,
      hfailures]
    constructor
    · rintro ⟨hprev, hlast⟩ afe hafe
      rcases Nat.lt_succ_iff_lt_or_eq.mp hafe with hlt | rfl
      · exact hprev afe hlt
      · exact hlast
    · exact fun hall => ⟨fun afe hafe => hall afe (by omega), hall n (Nat.lt_succ_self n)⟩
  programmed afe hafe := by
    rcases Nat.lt_succ_iff_lt_or_eq.mp hafe with hlt | rfl
    · rw [(block_other hblock hn (by omega) (by omega)).1]
      exact h.programmed afe hlt
    · rw [(h.rest afe hn (Nat.le_refl afe)).1, (h.rest afe hn (Nat.le_refl afe)).2] at hprogrammed
      exact hprogrammed
  rest afe hafe hle := by
    obtain ⟨hregs, hsamples⟩ := block_other hblock hn hafe (by omega)
    obtain ⟨hregs', hsamples'⟩ := h.rest afe hafe (by omega)
    exact ⟨hregs.trans hregs', hsamples.trans hsamples'⟩
  statusReads := (block_statusReads hblock).trans h.statusReads

/-- The response that reports the registers. -/
def responseOf (s : DeviceState) (n : Nat) : AlignAfesResponse where
  delay := (List.range n).map fun afe => (regs s afe).1
  bitslip := (List.range n).map fun afe => (regs s afe).2

theorem takes_readBack (hafe : afe < 5) (ht : t.cells = s.cells ∧ t.reads = s.reads ∧ t.driver = responseOf s afe) :
    Takes b.env vtcOff 2 (readBack b.env afe)
      (fun _ u => u.cells = s.cells ∧ u.reads = s.reads ∧ u.driver = responseOf s (afe + 1)) t := by
  obtain ⟨hcells, hreads, hdriver⟩ := ht
  refine (Reg.takes_readBits (b.driven_delay hafe) (R := fun v u => v = (regs t afe).1 ∧ u = t.tick) ⟨rfl, rfl⟩).bind
    (k := 1) ?_
  rintro _ _ ⟨rfl, rfl⟩
  refine (Reg.takes_readBits (s := t.tick) (b.driven_bitslip hafe)
    (R := fun v u => v = (regs t afe).2 ∧ u = t.tick.tick) ⟨rfl, rfl⟩).bind (k := 0) ?_
  rintro _ _ ⟨rfl, rfl⟩
  have hregs : regs t afe = regs s afe := by rw [regs, hcells, regs]
  refine Takes.bind (n := 0) (k := 0) (takes_modifyDriver (R := fun _ u => u.cells = s.cells ∧ u.reads = s.reads ∧
    u.driver = responseOf s (afe + 1)) (vtcOff_of_eq rfl rfl) ⟨hcells, hreads, ?_⟩) fun _ _ hu => takes_pure _ hu
  show AlignAfesResponse.mk (t.driver.delay ++ _) (t.driver.bitslip ++ _) = _
  rw [hdriver, hregs]
  simp only [responseOf, List.range_succ, List.map_append, List.map_cons, List.map_nil]

/-- What the alignment of the AFEs gives: whether all of them are accepted, what is left programmed and what is
    reported. -/
structure Outcome (b : Bench) (s : DeviceState) (ok : Bool) (t : DeviceState) : Prop where
  accepted : ok = true ↔ ∀ afe < 5, Accepted b afe (samples s afe)
  programmed : ∀ afe < 5, Programmed b afe (samples s afe) (regs s afe).2 (regs t afe)
  response : t.driver = responseOf t 5
  statusReads : statusReads t = AlignAFE.statusReads s

theorem takes_alignBlocks : Takes b.env vtcOff 18610 (alignBlocks b.env) (fun a t => Outcome b s a.1 t) s := by
  have hblocks : Takes b.env vtcOff (5 * 3720) ((List.range 5).mapM (alignBlock b.env)) (AlignedUpTo b s 5) s := by
    refine takes_mapM_range (AlignedUpTo b s) ?_ fun i hi blocks t ht =>
      ((takes_alignBlock hi).keep.coarsen fun _ => block_vtcOff).mono fun a u hu =>
        ht.next hi hu.1.1 hu.1.2.1 hu.2.1
    exact ⟨by simp, fun _ h => absurd h (Nat.not_lt_zero _), fun _ _ _ => ⟨rfl, rfl⟩, rfl⟩
  rw [show 18610 = 5 * 3720 + 10 by rfl]
  refine hblocks.bind fun blocks t ht => ?_
  refine (takes_modifyDriver (R := fun _ u => u.cells = t.cells ∧ u.reads = t.reads ∧ u.driver = responseOf t 0)
    (vtcOff_of_eq rfl rfl) ⟨rfl, rfl, rfl⟩).bind (k := 10) fun _ u hu => ?_
  have hreadBack : Takes b.env vtcOff (5 * 2) ((List.range 5).mapM (readBack b.env))
      (fun _ v => v.cells = t.cells ∧ v.reads = t.reads ∧ v.driver = responseOf t 5) u :=
    takes_mapM_range (fun i _ v => v.cells = t.cells ∧ v.reads = t.reads ∧ v.driver = responseOf t i) hu
      fun i hi _ v hv => takes_readBack hi hv
  refine hreadBack.bind (k := 0) fun readings v ⟨hcells, hreads, hdriver⟩ => ?_
  have hregs : ∀ afe, regs v afe = regs t afe := fun afe => by rw [regs, hcells, regs]
  have houtcome : ∀ ok : Bool, (ok = true ↔ blocks.flatMap (·.2) = []) → Outcome b s ok v := fun ok hok =>
    { accepted := hok.trans ht.failures
      programmed := fun afe hafe => by
        rw [hregs]
        exact ht.programmed afe hafe
      response := by simp only [hdriver, responseOf, hregs]
      statusReads := by rw [statusReads, hreads]; exact ht.statusReads }
  dsimp only
  split
  · rename_i hnone
    exact takes_pure _ (houtcome true (iff_of_true rfl (List.isEmpty_iff.mp hnone)))
  · rename_i hsome
    exact takes_pure _ (houtcome false (iff_of_false Bool.false_ne_true fun h => hsome (List.isEmpty_iff.mpr h)))

/-! ### The request -/

/-- All of `alignAFE` before the last write of DELAY_EN_VTC. -/
def approach (env : Env Nat UInt32) : Prog Nat UInt32 AlignAfesResponse (Bool × String) := do
  reset env
  let ready ← waitForDelayCtrlReady env
  if ready then alignBlocks env
  else throw "DELAYCTRL_READY did not assert after reset; refusing alignment."

theorem tryAlign_eq (env : Env Nat UInt32) : tryAlign env = approach env >>= fun answer =>
    setEnableDelayVtc env 1 >>= fun _ => pure answer := by
  simp only [tryAlign, approach, bind_assoc]
  congr 1
  funext _
  congr 1
  funext ready
  cases ready <;> rfl

/-- The polls of the wait, the last one included, all but one. -/
def lastPoll (b : Bench) (s : DeviceState) : Nat := b.polls (s.accesses + 60) + 1

theorem firstReady_or (b : Bench) (s : DeviceState) :
    (∃ k ≤ lastPoll b s, FirstReady b (statusReads s) k) ∨ ∀ j ≤ lastPoll b s, ¬Ready (b.status (statusReads s + j)) :=
  First.exists_or _ _

/-- What the alignment gives, once the delay controller is ready. -/
structure Completed (b : Bench) (s : DeviceState) (ok : Bool) (t : DeviceState) : Prop where
  accepted : ok = true ↔ ∀ afe < 5, Accepted b afe (samples s afe)
  programmed : ∀ afe < 5, Programmed b afe (samples s afe) 0 (regs t afe)
  response : t.driver = responseOf t 5

theorem takes_approach {k : Nat} (hk : k ≤ lastPoll b s) (hready : FirstReady b (statusReads s) k) :
    Takes b.env vtcOff (60 + (k + 1 + 18610)) (approach b.env)
      (fun a t => Completed b s a.1 t ∧ statusReads t = statusReads s + (k + 1)) s := by
  refine takes_reset.keep.bind fun _ t ⟨ht, _, haccesses⟩ => ?_
  have hpolls : b.polls t.accesses + 1 = lastPoll b s := by rw [haccesses, lastPoll]
  have hwait := takes_wait_ready hpolls hk (by rwa [ht.statusReads])
  refine (hwait.keep.coarsen fun _ => polling_vtcOff).bind ?_
  rintro ready u ⟨⟨rfl, hu⟩, hpolling, -⟩
  refine takes_alignBlocks.mono fun a v hv => ⟨⟨hv.accepted.trans ?_, fun afe hafe => ?_, hv.response⟩, ?_⟩
  · exact forall₂_congr fun afe hafe => by rw [(polling_block hpolling).2, ht.samples afe hafe]
  · have := hv.programmed afe hafe
    rwa [(polling_block hpolling).1, (polling_block hpolling).2, ht.samples afe hafe, ht.bitslip afe hafe] at this
  · rw [hv.statusReads, hu, ht.statusReads]

theorem approach_not_ready (hnot : ∀ j ≤ lastPoll b s, ¬Ready (b.status (statusReads s + j))) :
    wp (approach b.env) (fun _ _ => False)
      (fun _ t => (Broke b.env s (60 + (lastPoll b s + 1)) t ∨ statusReads t = statusReads s + (lastPoll b s + 1)) ∧
        vtcOff.Rel s t) s := by
  have hwait : Takes b.env vtcOff (60 + (lastPoll b s + 1)) (reset b.env >>= fun _ => waitForDelayCtrlReady b.env)
      (fun ready u => ready = false ∧ statusReads u = statusReads s + (lastPoll b s + 1)) s := by
    refine takes_reset.keep.bind fun _ t ⟨ht, _, haccesses⟩ => ?_
    have hpolls : b.polls t.accesses + 1 = lastPoll b s := by rw [haccesses, lastPoll]
    have hwait := takes_wait_not hpolls (by rwa [ht.statusReads])
    rw [ht.statusReads] at hwait
    exact hwait.coarsen fun _ => polling_vtcOff
  have heq : approach b.env = (reset b.env >>= fun _ => waitForDelayCtrlReady b.env) >>= fun ready =>
      if ready then alignBlocks b.env else throw "DELAYCTRL_READY did not assert after reset; refusing alignment." := by
    rw [bind_assoc]
    rfl
  rw [heq]
  refine wp_bind.mpr (wp_mono hwait.run ?_ fun e t ⟨hbroke, hG⟩ => ⟨Or.inl hbroke, hG⟩)
  rintro ready t ⟨-, -, hG, rfl, ht⟩
  exact ⟨Or.inr ht, hG⟩

theorem takes_tryAlign {k : Nat} (hk : k ≤ lastPoll b s) (hready : FirstReady b (statusReads s) k) :
    Takes b.env .logs (60 + (k + 1 + 18610) + 4) (tryAlign b.env)
      (fun a t => Completed b s a.1 t ∧ statusReads t = statusReads s + (k + 1)) s := by
  rw [tryAlign_eq]
  refine ((takes_approach hk hready).coarsen fun _ => vtcOff_logs).bind fun a t ⟨hdone, ht⟩ => ?_
  refine (Reg.takes_writeBits b.driven_control (List.prefix_append _ _) (R := fun _ u =>
    u = Reg.afterWriteBits t delayEnVtc 1) rfl).bind (k := 0) ?_
  rintro _ _ rfl
  have hregs : ∀ afe, regs (Reg.afterWriteBits t delayEnVtc 1) afe = regs t afe := fun afe => by
    have hdelay : (frontendDelay afe).addr ≠ delayEnVtc.addr := by
      simp only [frontendDelay, delayEnVtc]
      omega
    have hbitslip : (frontendBitslip afe).addr ≠ delayEnVtc.addr := by
      simp only [frontendBitslip, delayEnVtc]
      omega
    rw [regs, Reg.afterWriteBits_cells, Function.update_of_ne hdelay, Function.update_of_ne hbitslip, regs]
  refine takes_pure _ ⟨⟨hdone.accepted, fun afe hafe => by rw [hregs]; exact hdone.programmed afe hafe, ?_⟩, ht⟩
  simp only [responseOf, hregs]
  exact hdone.response

/-- A read of the status register between the states said ready. -/
def ReadySeen (b : Bench) (s t : DeviceState) : Prop :=
  ∃ n, statusReads s ≤ n ∧ n < statusReads t ∧ Ready (b.status n)

theorem Broke.threw {n : Nat} (h : Broke b.env s n t) : ¬b.env.Clean s t := by
  obtain ⟨k, -, -, hfault, ht⟩ := h
  exact fun hnone => hfault (hnone _ (Nat.le_add_right _ _) (by omega))

theorem wp_tryAlign (b : Bench) (s : DeviceState) :
    wp (tryAlign b.env) (fun a t => b.env.Clean s t ∧ ReadySeen b s t ∧ Completed b s a.1 t)
      (fun _ t => ¬(b.env.Clean s t ∧ ReadySeen b s t)) s := by
  rcases firstReady_or b s with ⟨k, hk, hready⟩ | hnot
  · refine wp_mono (takes_tryAlign hk hready).run ?_ fun e t ⟨hbroke, _⟩ h => Broke.threw hbroke h.1
    rintro a t ⟨haccesses, hclear, -, hdone, ht⟩
    refine ⟨fun n hle hlt => ?_, ⟨statusReads s + k, Nat.le_add_right _ _, by omega, hready.holds⟩, hdone⟩
    have := hclear (n - s.accesses) (by omega)
    rwa [Nat.add_sub_cancel' hle] at this
  · rw [tryAlign_eq]
    refine wp_bind.mpr (wp_mono (approach_not_ready hnot) (fun _ _ h => h.elim) ?_)
    rintro e t ⟨hbroke | ht, -⟩ ⟨hnone, n, hle, hlt, hn⟩
    · exact Broke.threw hbroke hnone
    · refine hnot (n - statusReads s) (by omega) ?_
      rwa [Nat.add_sub_cancel' hle]

/-- The answer says that the AFEs are aligned exactly if they are, and what is programmed is what is reported. -/
theorem alignAFE_correct (b : Bench) (s : DeviceState) :
    ((alignAFE b.env s).1.1 = true ↔
      b.env.Clean s (alignAFE b.env s).2 ∧ ReadySeen b s (alignAFE b.env s).2 ∧
        ∀ afe < 5, Accepted b afe (samples s afe)) ∧
    (b.env.Clean s (alignAFE b.env s).2 → ReadySeen b s (alignAFE b.env s).2 →
      -- the bitslip before the scan is the one that the reset wrote
      (∀ afe < 5, Programmed b afe (samples s afe) 0 (regs (alignAFE b.env s).2 afe)) ∧
        (alignAFE b.env s).2.driver = responseOf (alignAFE b.env s).2 5) := by
  have hwp := wp_tryAlign b s
  unfold wp at hwp
  unfold alignAFE
  split at hwp
  · rename_i answer t heq
    obtain ⟨hnone, hseen, hdone⟩ := hwp
    simp only [heq]
    exact ⟨⟨fun hok => ⟨hnone, hseen, hdone.accepted.mp hok⟩, fun h => hdone.accepted.mpr h.2.2⟩,
      fun _ _ => ⟨hdone.programmed, hdone.response⟩⟩
  · rename_i what t heq
    simp only [heq]
    exact ⟨⟨fun hok => absurd hok Bool.false_ne_true, fun h => absurd ⟨h.1, h.2.1⟩ hwp⟩,
      fun hnone hseen => absurd ⟨hnone, hseen⟩ hwp⟩

end AlignAFE
end DaphneZmq
