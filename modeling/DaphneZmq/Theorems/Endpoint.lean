import DaphneZmq.Endpoint

/-! # What a clock request does to the endpoint

The wait for the lock bits and the wait for the endpoint are each determined by the trace of their status register.
The endpoint is written after the first wait, however that ended. -/

namespace DaphneZmq
open Lib Lib.Device
namespace Endpoint

variable {D : Type} {b : ClockBench} {s : State Nat UInt32 D}

/-! ### Waits -/

/-- The state after `n` reads of a status register. -/
def afterReads (s : State Nat UInt32 D) (a n : Nat) : State Nat UInt32 D :=
  { s with reads := Function.update s.reads a (s.reads a + n), accesses := s.accesses + n }

theorem afterRead_eq (a : Nat) : s.afterRead a = afterReads s a 1 := rfl

theorem afterReads_afterReads (a m n : Nat) : afterReads (afterReads s a m) a n = afterReads s a (m + n) := by
  simp [afterReads, Nat.add_assoc]

variable {status : Nat} {awaited : UInt32 → Prop} [DecidablePred awaited] {values : Nat → UInt32}

theorem pollStatus_done (hdriven : b.env.driven status = some fun _ => values) {k : Nat} : ∀ {polls : Nat}
    {s : State Nat UInt32 D}, k ≤ polls → First (fun j => awaited (values (s.reads status + j))) k →
    pollStatus b.env status awaited polls s = .ok (true, values (s.reads status + k)) (afterReads s status (k + 1)) := by
  have hread (s : State Nat UInt32 D) := read_driven_eq (show ∀ n, b.env.faults n = none from fun _ => rfl) hdriven s
  induction k with
  | zero =>
    intro polls s _ hfirst
    have hdone : awaited (values (s.reads status)) := hfirst.holds
    cases polls with
    | zero =>
      rw [pollStatus, Reg.readRegister, bind_ok (hread s), decide_eq_true hdone]
      rfl
    | succ polls =>
      rw [pollStatus, Reg.readRegister, bind_ok (hread s), if_pos hdone]
      rfl
  | succ k ih =>
    intro polls s hle hfirst
    cases polls with
    | zero => omega
    | succ polls =>
      have hnot : ¬awaited (values (s.reads status)) := hfirst.not_before 0 (Nat.succ_pos k)
      have htail : First (fun j => awaited (values ((afterReads s status 1).reads status + j))) k := by
        simpa [afterReads, Nat.add_assoc, Nat.add_comm 1] using hfirst.tail
      rw [pollStatus, Reg.readRegister, bind_ok (hread s), if_neg hnot, afterRead_eq, ih (Nat.le_of_succ_le_succ hle) htail,
        afterReads_afterReads]
      simp [afterReads, Nat.add_assoc, Nat.add_comm 1]

theorem pollStatus_timeout (hdriven : b.env.driven status = some fun _ => values) : ∀ {polls : Nat}
    {s : State Nat UInt32 D}, (∀ j ≤ polls, ¬awaited (values (s.reads status + j))) →
    pollStatus b.env status awaited polls s = .ok (false, values (s.reads status + polls)) (afterReads s status (polls + 1)) := by
  have hread (s : State Nat UInt32 D) := read_driven_eq (show ∀ n, b.env.faults n = none from fun _ => rfl) hdriven s
  intro polls
  induction polls with
  | zero =>
    intro s hnot
    have hfirst : ¬awaited (values (s.reads status)) := hnot 0 (Nat.le_refl 0)
    rw [pollStatus, Reg.readRegister, bind_ok (hread s), decide_eq_false hfirst]
    rfl
  | succ polls ih =>
    intro s hnot
    have hfirst : ¬awaited (values (s.reads status)) := hnot 0 (Nat.zero_le _)
    have htail : ∀ j ≤ polls, ¬awaited (values ((afterReads s status 1).reads status + j)) := fun j hj => by
      simpa [afterReads, Nat.add_assoc, Nat.add_comm 1] using hnot (j + 1) (Nat.succ_le_succ hj)
    rw [pollStatus, Reg.readRegister, bind_ok (hread s), if_neg hfirst, afterRead_eq, ih htail, afterReads_afterReads]
    simp [afterReads, Nat.add_assoc, Nat.add_comm 1]

theorem waitStatus_done (hdriven : b.env.driven status = some fun _ => values) {k : Nat} (hk : k ≤ b.polls s.accesses)
    (hfirst : First (fun j => awaited (values (s.reads status + j))) k) :
    waitStatus b.env status awaited s = .ok (true, values (s.reads status + k)) (afterReads s status (k + 1)) :=
  pollStatus_done hdriven hk hfirst

theorem waitStatus_timeout (hdriven : b.env.driven status = some fun _ => values)
    (hnot : ∀ j ≤ b.polls s.accesses, ¬awaited (values (s.reads status + j))) :
    waitStatus b.env status awaited s =
      .ok (false, values (s.reads status + b.polls s.accesses)) (afterReads s status (b.polls s.accesses + 1)) :=
  pollStatus_timeout hdriven hnot

/-! ### The two steps -/

/-- The state after a field is written and a bit is pulsed. -/
def afterControl (s : State Nat UInt32 D) (f : BitField) (data : UInt32) (asked : Bool) (g : BitField) : State Nat UInt32 D :=
  if asked then Reg.afterWriteBits (Reg.afterWriteBits (Reg.afterWriteBits s f data) g 1) g 0 else Reg.afterWriteBits s f data

/-- What the writes of a step are: they are all at one address, and no status is read in between. -/
structure Controlled (f : BitField) (asked : Bool) (s t : State Nat UInt32 D) : Prop where
  reads : t.reads = s.reads
  accesses : t.accesses = s.accesses + if asked then 12 else 4
  writes : ∃ w ws, t.writes = s.writes ++ w :: ws ∧ ∀ x ∈ w :: ws, x.address = f.addr ∧ x.reads = s.reads

theorem controlled_afterControl {f g : BitField} (haddr : g.addr = f.addr) (data : UInt32) (asked : Bool) :
    Controlled f asked s (afterControl s f data asked g) := by
  cases asked with
  | false =>
    refine ⟨rfl, rfl, _, [], rfl, ?_⟩
    simp
  | true =>
    refine ⟨rfl, rfl, _, [_, _], (List.append_assoc _ _ _).trans (List.append_assoc _ _ _), ?_⟩
    simp [haddr, Reg.afterWriteBits]

theorem driven_control {a : Nat} (hclock : a ≠ endpointClockStatus) (hstatus : a ≠ endpointStatus) : b.env.driven a = none := by
  simp [ClockBench.env, hclock, hstatus]

theorem control_then {α : Type} {f g : BitField} (hf : b.env.driven f.addr = none) (hg : b.env.driven g.addr = none)
    (data : UInt32) (asked : Bool) (rest : Prog Nat UInt32 D α) :
    (Reg.writeBits b.env f data >>= fun _ => pulse b.env asked g >>= fun _ => rest) s = rest (afterControl s f data asked g) := by
  have hfaults : ∀ n, b.env.faults n = none := fun _ => rfl
  rw [bind_ok (Reg.writeBits_eq hfaults hf data s)]
  cases asked with
  | false => rfl
  | true =>
    have hpulse (t : State Nat UInt32 D) :
        pulse b.env true g t = .ok () (Reg.afterWriteBits (Reg.afterWriteBits t g 1) g 0) := by
      rw [pulse, if_pos rfl, bind_ok (Reg.writeBits_eq hfaults hg 1 t), bind_ok (Reg.writeBits_eq hfaults hg 0 _)]
      rfl
    rw [bind_ok (hpulse _)]
    rfl

variable {req : ConfigureCLKsRequest}

/-- A clock-status read of the wait shows both lock bits: the first one, or one of its polls. -/
def LocksInTime (b : ClockBench) (req : ConfigureCLKsRequest) (s : State Nat UInt32 D) : Prop :=
  ∃ k ≤ b.polls (s.accesses + if req.reset_MMCM1 then 12 else 4), Locked (b.clockStatus (s.reads endpointClockStatus + k))

/-- The accesses of the wait for the lock bits: up to the first read that shows them, or all polls and one more. -/
def lockAccesses (b : ClockBench) (req : ConfigureCLKsRequest) (s : State Nat UInt32 D) : Nat :=
  let polls := b.polls (s.accesses + if req.reset_MMCM1 then 12 else 4)
  match (List.range (polls + 1)).find? fun k => Locked (b.clockStatus (s.reads endpointClockStatus + k)) with
  | some k => k + 1
  | none => polls + 2

/-- What the first step leaves. -/
structure ClockSet (b : ClockBench) (req : ConfigureCLKsRequest) (s : State Nat UInt32 D) (r : Bool × InfoLine)
    (t : State Nat UInt32 D) : Prop where
  ok : r.1 = true ↔ LocksInTime b req s
  line : ∀ status, r.2 ≠ .endpointReady status
  accesses : t.accesses = s.accesses + (if req.reset_MMCM1 then 12 else 4) + lockAccesses b req s
  statusReads : t.reads endpointStatus = s.reads endpointStatus
  clockReads : s.reads endpointClockStatus ≤ t.reads endpointClockStatus
  locked : LocksInTime b req s → ∃ n, s.reads endpointClockStatus ≤ n ∧ n < t.reads endpointClockStatus ∧ Locked (b.clockStatus n)
  writes : ∃ ws, t.writes = s.writes ++ ws ∧ ∀ w ∈ ws, w.address ≠ endpointAddress.addr

theorem clockSet (b : ClockBench) (req : ConfigureCLKsRequest) (s : State Nat UInt32 D) :
    ∃ r t, setClockSourceAndMmcmReset b.env req.ctrl_ep_clk req.reset_MMCM1 s = .ok r t ∧ ClockSet b req s r t := by
  have hcell : b.env.driven clockSource.addr = none := driven_control (by decide) (by decide)
  have hdriven : b.env.driven endpointClockStatus = some fun _ => b.clockStatus := rfl
  obtain ⟨hreads, haccesses, w, ws, hwrites, hws⟩ := controlled_afterControl (s := s) (f := clockSource) (g := mmcmReset) rfl
    (if req.ctrl_ep_clk then 1 else 0) req.reset_MMCM1
  have haddr : ∀ x ∈ w :: ws, x.address ≠ endpointAddress.addr := fun x hx => by
    rw [(hws x hx).1]
    decide
  rw [setClockSourceAndMmcmReset, control_then hcell (g := mmcmReset) hcell]
  generalize afterControl s clockSource (if req.ctrl_ep_clk then 1 else 0) req.reset_MMCM1 mmcmReset = u at hreads haccesses hwrites
  have hstatus : endpointStatus ≠ endpointClockStatus := by decide
  rcases First.exists_or (fun j => Locked (b.clockStatus (u.reads endpointClockStatus + j))) (b.polls u.accesses) with
    ⟨k, hk, hfirst⟩ | hnot
  · have hlocks : LocksInTime b req s := ⟨k, by rwa [← haccesses], by rw [← hreads]; exact hfirst.holds⟩
    rw [bind_ok (waitStatus_done hdriven hk hfirst)]
    refine ⟨_, _, rfl, iff_of_true rfl hlocks, fun _ => InfoLine.noConfusion, ?_, ?_, ?_, fun _ => ?_, w :: ws, hwrites, haddr⟩
    · have hfind : (List.range (b.polls u.accesses + 1)).find?
          (fun k => decide (Locked (b.clockStatus (u.reads endpointClockStatus + k)))) = some k := by
        rw [List.find?_range_eq_some]
        exact ⟨decide_eq_true hfirst.holds, by simpa using Nat.lt_succ_of_le hk, fun j hj => by simp [hfirst.not_before j hj]⟩
      rw [haccesses, hreads] at hfind
      simp [afterReads, lockAccesses, haccesses, hfind, Nat.add_assoc]
    · simp [afterReads, hreads, hstatus]
    · simp [afterReads, hreads]
    · exact ⟨u.reads endpointClockStatus + k, by simp [hreads], by simp [afterReads], hfirst.holds⟩
  · have hlocks : ¬LocksInTime b req s := fun ⟨k, hk, hlocked⟩ =>
      hnot k (by rwa [haccesses]) (by rwa [hreads])
    rw [bind_ok (waitStatus_timeout hdriven hnot)]
    dsimp only
    rw [if_neg Bool.false_ne_true, Reg.readRegister, bind_ok (read_driven_eq (fun _ => rfl) hdriven _)]
    refine ⟨_, _, rfl, iff_of_false Bool.false_ne_true hlocks, fun _ => InfoLine.noConfusion, ?_, ?_, ?_, fun h => absurd h hlocks,
      w :: ws, hwrites, haddr⟩
    · have hfind : (List.range (b.polls u.accesses + 1)).find?
          (fun k => decide (Locked (b.clockStatus (u.reads endpointClockStatus + k)))) = none := by
        rw [List.find?_eq_none]
        exact fun j hj => by simpa using hnot j (Nat.le_of_lt_succ (List.mem_range.mp hj))
      rw [haccesses, hreads] at hfind
      simp [afterReads, State.afterRead, lockAccesses, haccesses, hfind, Nat.add_assoc]
    · simp [afterReads, hreads, hstatus]
    · simp [afterReads, hreads, Nat.add_assoc]

/-- An endpoint-status read of the wait after `t` shows the endpoint ready. -/
def ReadyInTime (b : ClockBench) (req : ConfigureCLKsRequest) (t : State Nat UInt32 D) : Prop :=
  ∃ k ≤ b.polls (t.accesses + if req.reset_endpoint then 12 else 4), Ready (b.status (t.reads endpointStatus + k))

/-- What the second step leaves. -/
structure EndpointSet (b : ClockBench) (req : ConfigureCLKsRequest) (s : State Nat UInt32 D) (r : Bool × InfoLine)
    (t : State Nat UInt32 D) : Prop where
  ok : r.1 = true ↔ ReadyInTime b req s
  line : (∃ status, r.2 = .endpointReady status) ↔ ReadyInTime b req s
  clockReads : t.reads endpointClockStatus = s.reads endpointClockStatus
  ready : ReadyInTime b req s → ∃ n, s.reads endpointStatus ≤ n ∧ n < t.reads endpointStatus ∧ Ready (b.status n)
  writes : ∃ w ws, t.writes = s.writes ++ w :: ws ∧ ∀ x ∈ w :: ws, x.address = endpointAddress.addr ∧ x.reads = s.reads

theorem endpointSet (b : ClockBench) (req : ConfigureCLKsRequest) (s : State Nat UInt32 D) :
    ∃ r t, setEndpointAddrAndReset b.env req.id.toUInt16 req.reset_endpoint s = .ok r t ∧ EndpointSet b req s r t := by
  have hcell : b.env.driven endpointAddress.addr = none := driven_control (by decide) (by decide)
  have hdriven : b.env.driven endpointStatus = some fun _ => b.status := rfl
  obtain ⟨hreads, haccesses, hwrites⟩ := controlled_afterControl (s := s) (f := endpointAddress) (g := endpointReset) rfl
    req.id.toUInt16.toUInt32 req.reset_endpoint
  rw [setEndpointAddrAndReset, control_then hcell (g := endpointReset) hcell]
  generalize afterControl s endpointAddress req.id.toUInt16.toUInt32 req.reset_endpoint endpointReset = u at hreads haccesses hwrites
  have hstatus : endpointClockStatus ≠ endpointStatus := by decide
  rcases First.exists_or (fun j => Ready (b.status (u.reads endpointStatus + j))) (b.polls u.accesses) with ⟨k, hk, hfirst⟩ | hnot
  · have hready : ReadyInTime b req s := ⟨k, by rwa [← haccesses], by rw [← hreads]; exact hfirst.holds⟩
    rw [bind_ok (waitStatus_done hdriven hk hfirst)]
    refine ⟨_, _, rfl, iff_of_true rfl hready, iff_of_true ⟨_, rfl⟩ hready, ?_, fun _ => ?_, hwrites⟩
    · simp [afterReads, hreads, hstatus]
    · exact ⟨u.reads endpointStatus + k, by simp [hreads], by simp [afterReads], hfirst.holds⟩
  · have hready : ¬ReadyInTime b req s := fun ⟨k, hk, hready⟩ => hnot k (by rwa [haccesses]) (by rwa [hreads])
    rw [bind_ok (waitStatus_timeout hdriven hnot)]
    refine ⟨_, _, rfl, iff_of_false Bool.false_ne_true hready, iff_of_false (fun ⟨_, h⟩ => InfoLine.noConfusion h) hready, ?_,
      fun h => absurd h hready, hwrites⟩
    simp [afterReads, hreads, hstatus]

/-! ### A request -/

/-- An endpoint-status read of the request shows the endpoint ready: the first one of the wait, or one of its polls. -/
def EndpointReady (b : ClockBench) (req : ConfigureCLKsRequest) (s : State Nat UInt32 D) : Prop :=
  ∃ k ≤ b.polls (s.accesses + (if req.reset_MMCM1 then 12 else 4) + lockAccesses b req s + if req.reset_endpoint then 12 else 4),
    Ready (b.status (s.reads endpointStatus + k))

theorem ClockSet.readyInTime_iff {r : Bool × InfoLine} {t : State Nat UInt32 D} (h : ClockSet b req s r t) :
    ReadyInTime b req t ↔ EndpointReady b req s := by
  rw [ReadyInTime, EndpointReady, h.accesses, h.statusReads]

/-- The writes since `s`. -/
def newWrites (s t : State Nat UInt32 D) : List (Write Nat UInt32) := t.writes.drop s.writes.length

/-- The endpoint is written only after a clock-status read of the request has shown both lock bits; if the clocks do
    not lock in time the endpoint is not written and the request fails. -/
structure WaitsForLock (b : ClockBench) (req : ConfigureCLKsRequest) (s : State Nat UInt32 D) (resp : ConfigureCLKsResponse)
    (t : State Nat UInt32 D) : Prop where
  afterLock : ∀ w ∈ newWrites s t, w.address = endpointAddress.addr →
    ∃ n, s.reads endpointClockStatus ≤ n ∧ n < w.reads endpointClockStatus ∧ Locked (b.clockStatus n)
  notLocked : ¬LocksInTime b req s → (∀ w ∈ newWrites s t, w.address ≠ endpointAddress.addr) ∧ resp.success = false

/-- A success needs the endpoint clock, a clock-status read that shows both lock bits and an endpoint-status read that
    shows the endpoint ready; with the local clock the endpoint is not reported as ready. -/
structure ReportsReadiness (b : ClockBench) (req : ConfigureCLKsRequest) (s : State Nat UInt32 D) (resp : ConfigureCLKsResponse)
    (t : State Nat UInt32 D) : Prop where
  success : resp.success = true → req.ctrl_ep_clk = true ∧
    (∃ n, s.reads endpointClockStatus ≤ n ∧ n < t.reads endpointClockStatus ∧ Locked (b.clockStatus n)) ∧
    ∃ n, s.reads endpointStatus ≤ n ∧ n < t.reads endpointStatus ∧ Ready (b.status n)
  localClock : req.ctrl_ep_clk = false → ∀ status, InfoLine.endpointReady status ∉ resp.info

theorem configureClks_steps (b : ClockBench) (req : ConfigureCLKsRequest) (s : State Nat UInt32 D) :
    ∃ clk u ep t, configureClks b.env (some req) s = .ok { success := clk.1 && ep.1, info := [clk.2, ep.2] } t ∧
      ClockSet b req s clk u ∧ EndpointSet b req u ep t := by
  obtain ⟨⟨okClk, clk⟩, u, hclk, hset⟩ := clockSet b req s
  obtain ⟨⟨okEp, ep⟩, t, hep, hset'⟩ := endpointSet b req u
  refine ⟨(okClk, clk), u, (okEp, ep), t, ?_, hset, hset'⟩
  rw [configureClks, bind_ok hclk]
  dsimp only
  rw [bind_ok hep]
  rfl

section
variable {clk ep : Bool × InfoLine} {u t : State Nat UInt32 D} (hclk : ClockSet b req s clk u) (hep : EndpointSet b req u ep t)
include hclk hep

theorem waitsForLock_iff :
    WaitsForLock b req s { success := clk.1 && ep.1, info := [clk.2, ep.2] } t ↔ LocksInTime b req s := by
  obtain ⟨ws, hws, hother⟩ := hclk.writes
  obtain ⟨w, ws', hws', hendpoint⟩ := hep.writes
  have hnew : newWrites s t = ws ++ w :: ws' := by
    rw [newWrites, hws', hws, List.append_assoc, List.drop_left]
  constructor
  · intro h
    by_contra hnot
    exact (h.notLocked hnot).1 w (by simp [hnew]) (hendpoint w List.mem_cons_self).1
  · intro hlocks
    refine ⟨fun x hx haddr => ?_, fun hnot => absurd hlocks hnot⟩
    rw [hnew, List.mem_append] at hx
    rcases hx with hx | hx
    · exact absurd haddr (hother x hx)
    · rw [(hendpoint x hx).2]
      exact hclk.locked hlocks

theorem reportsReadiness_iff :
    ReportsReadiness b req s { success := clk.1 && ep.1, info := [clk.2, ep.2] } t ↔
      req.ctrl_ep_clk = true ∨ ¬EndpointReady b req s := by
  have hreported : (∃ status, InfoLine.endpointReady status ∈ [clk.2, ep.2]) ↔ EndpointReady b req s := by
    rw [← hclk.readyInTime_iff, ← hep.line]
    refine exists_congr fun status => ?_
    simp [(hclk.line status).symm, eq_comm]
  constructor
  · intro h
    by_cases hclock : req.ctrl_ep_clk = true
    · exact Or.inl hclock
    · refine Or.inr fun hready => ?_
      obtain ⟨status, hmem⟩ := hreported.mpr hready
      exact h.localClock (Bool.not_eq_true _ ▸ hclock) status hmem
  · intro h
    refine ⟨fun hsuccess => ?_, fun hlocal status hmem => ?_⟩
    · obtain ⟨hok, hok'⟩ := Bool.and_eq_true_iff.mp hsuccess
      have hready := hep.ok.mp hok'
      obtain ⟨n, hn, hn', hlocked⟩ := hclk.locked (hclk.ok.mp hok)
      obtain ⟨m, hm, hm', hstatus⟩ := hep.ready hready
      rw [hclk.statusReads] at hm
      refine ⟨h.resolve_right fun hnot => hnot (hclk.readyInTime_iff.mp hready), ⟨n, hn, ?_, hlocked⟩, m, hm, hm', hstatus⟩
      rwa [hep.clockReads]
    · rcases h with h | h
      · rw [hlocal] at h
        exact Bool.false_ne_true h
      · exact h (hreported.mp ⟨status, hmem⟩)

end

/-- The endpoint waits for the clocks exactly if they lock in time. -/
theorem configureClks_waitsForLock (b : ClockBench) (req : ConfigureCLKsRequest) (s : State Nat UInt32 D) :
    ∃ resp t, configureClks b.env (some req) s = .ok resp t ∧ (WaitsForLock b req s resp t ↔ LocksInTime b req s) := by
  obtain ⟨clk, u, ep, t, hrun, hclk, hep⟩ := configureClks_steps b req s
  exact ⟨_, t, hrun, waitsForLock_iff hclk hep⟩

/-- The clocks never lock, and neither does the endpoint get ready. -/
def unlockedBench : ClockBench := ⟨fun _ => 0, fun _ => 0, fun _ => 0⟩

def startState : State Nat UInt32 Unit := ⟨fun _ => 0, fun _ => 0, 0, [], ()⟩

/-- The address of the endpoint is written without a lock. -/
theorem unlocked_not_waitsForLock : ¬∃ resp t, configureClks unlockedBench.env (some ⟨1, true, false, false⟩) startState = .ok resp t ∧
    WaitsForLock unlockedBench ⟨1, true, false, false⟩ startState resp t := by
  rintro ⟨resp, t, hrun, hwaits⟩
  obtain ⟨clk, u, ep, t', hrun', hclk, hep⟩ := configureClks_steps unlockedBench ⟨1, true, false, false⟩ startState
  rw [hrun'] at hrun
  obtain ⟨rfl, rfl⟩ := EStateM.Result.ok.inj hrun
  obtain ⟨k, -, hlocked⟩ := (waitsForLock_iff hclk hep).mp hwaits
  exact absurd hlocked (by simp [unlockedBench, Locked])

/-- The answer is right about the endpoint exactly if the endpoint clock is selected or the endpoint does not show
    ready. -/
theorem configureClks_reportsReadiness (b : ClockBench) (req : ConfigureCLKsRequest) (s : State Nat UInt32 D) :
    ∃ resp t, configureClks b.env (some req) s = .ok resp t ∧
      (ReportsReadiness b req s resp t ↔ req.ctrl_ep_clk = true ∨ ¬EndpointReady b req s) := by
  obtain ⟨clk, u, ep, t, hrun, hclk, hep⟩ := configureClks_steps b req s
  exact ⟨_, t, hrun, reportsReadiness_iff hclk hep⟩

/-- The clocks are locked and the endpoint's status bits show ready. -/
def readyBench : ClockBench := ⟨fun _ => 3, fun _ => 0x18, fun _ => 0⟩

/-- A request for the local clock is answered as a success, with the endpoint ready. -/
theorem localClock_not_reportsReadiness : ¬∃ resp t,
    configureClks readyBench.env (some ⟨0, false, false, false⟩) startState = .ok resp t ∧
      ReportsReadiness readyBench ⟨0, false, false, false⟩ startState resp t := by
  rintro ⟨resp, t, hrun, hreports⟩
  obtain ⟨clk, u, ep, t', hrun', hclk, hep⟩ := configureClks_steps readyBench ⟨0, false, false, false⟩ startState
  rw [hrun'] at hrun
  obtain ⟨rfl, rfl⟩ := EStateM.Result.ok.inj hrun
  rcases (reportsReadiness_iff hclk hep).mp hreports with h | h
  · cases h
  · exact h ⟨0, Nat.zero_le _, by decide⟩

end Endpoint
end DaphneZmq
