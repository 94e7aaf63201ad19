import DaphneZmq.ScanRuntime

/-! The commands of the LED scans, by what they do to the bench: the LED programs move the LED, a configure request the front end,
an acquisition its directory and a metadata file its status. The others do nothing that a scan depends on. -/

namespace DaphneZmq.ScanRuntime
open Lib.Commands

/-! ### Paths and values -/

theorem append_injective (suffix : String) : Function.Injective fun path : String => path ++ suffix := by
  intro path path' h
  have htext := congrArg String.toList h
  simp only [String.toList_append] at htext
  exact String.toList_injective (List.append_cancel_right htext)

theorem prepend_injective (start : String) : Function.Injective fun path : String => start ++ path := by
  intro path path' h
  have htext := congrArg String.toList h
  simp only [String.toList_append] at htext
  exact String.toList_injective (List.append_cancel_left htext)

/-- The values go up, to the stop. -/
theorem inclusiveRange_sorted {start stop step : Int} {values : List Int} (h : inclusiveRange start stop step = .ok values) :
    values.Pairwise (· < ·) := by
  unfold inclusiveRange at h
  split at h
  · cases h
  next hpositive =>
  have hstep : 0 < step := Int.not_le.mp hpositive
  have hrange : ((List.range ((stop - start) / step + 1).toNat).map fun i : Nat => start + step * (i : Int)).Pairwise (· < ·) := by
    refine List.pairwise_map.mpr (List.pairwise_lt_range.imp fun {i j} hij => ?_)
    exact Int.add_lt_add_left (Int.mul_lt_mul_of_pos_left (Int.ofNat_lt.mpr hij) hstep) start
  simp only [pure, Except.pure, Except.ok.injEq] at h
  split at h
  · exact h ▸ hrange
  next hlast =>
  refine h ▸ List.pairwise_append.mpr ⟨hrange, List.pairwise_singleton .., fun value hvalue last hmem => ?_⟩
  rw [List.mem_singleton.mp hmem]
  obtain ⟨i, hi, rfl⟩ := List.mem_map.mp hvalue
  have hlt := List.mem_range.mp hi
  have hle {j : Nat} (hj : j < ((stop - start) / step + 1).toNat) : start + step * (j : Int) ≤ stop := by
    have hj : (j : Int) ≤ (stop - start) / step := by omega
    have hmul : step * (j : Int) ≤ stop - start :=
      Int.le_trans (Int.mul_le_mul_of_nonneg_left hj (Int.le_of_lt hstep)) (Int.mul_ediv_self_le (Int.ne_of_gt hstep))
    omega
  refine Int.lt_iff_le_and_ne.mpr ⟨hle hlt, fun heq => hlast ?_⟩
  -- The value that comes to the stop is the last one.
  have hi : ((stop - start) / step + 1).toNat = i + 1 := by
    by_contra hne
    have hnext := hle (show i + 1 < ((stop - start) / step + 1).toNat by omega)
    rw [Int.natCast_add, Int.mul_add] at hnext
    omega
  rw [hi, List.range_succ, List.map_append, List.getLast?_append]
  exact congrArg some heq

/-! ### Commands -/

variable {env : ScanEnv} {dry_run : Bool} {P E : Bench → Prop}

theorem leads_writeText {path : String} (hE : ∀ b, P b → E b) : Leads Bench.step P (writeText env path) (fun _ => P) E :=
  leads_issue (fun _ _ hb => hb) fun _ b hb => hE b hb

theorem leads_mkdir {path : String} (hE : ∀ b, P b → E b) : Leads Bench.step P (mkdir env path) (fun _ => P) E :=
  leads_issue (fun _ _ hb => hb) fun _ b hb => hE b hb

/-- A program that changes the bench with its answer; a dry run changes nothing. -/
theorem leads_runCmd {program : Subprocess} {log_path : String} {Q : Int → Bench → Prop}
    (hok : dry_run = false → ∀ returncode b, P b → Q returncode (b.step ⟨.run program, .ok returncode⟩))
    (herror : dry_run = false → ∀ e b, P b → E (b.step ⟨.run program, .error e⟩))
    (hdry : dry_run = true → ∀ b, P b → Q 0 b ∧ E b) (hE : dry_run = false → ∀ returncode b, Q returncode b → E b) :
    Leads Bench.step P (runCmd env dry_run program log_path) Q E := by
  cases dry_run with
  | true =>
    refine (leads_writeText fun b hb => (hdry rfl b hb).2).bind fun _ => ?_
    exact leads_pure fun b hb => (hdry rfl b hb).1
  | false =>
    refine (leads_issue (hok rfl) (herror rfl)).bind fun returncode => ?_
    refine (leads_writeText (hE rfl returncode)).bind fun _ => ?_
    exact leads_pure fun _ => id

theorem leads_runFeStateReadback {log_path : String} (hE : ∀ b, P b → E b) :
    Leads Bench.step P (runFeStateReadback env dry_run log_path) (fun _ => P) E :=
  leads_runCmd (fun _ _ _ hb => hb) (fun _ _ b hb => hE b hb) (fun _ b hb => ⟨hb, hE b hb⟩) fun _ _ => hE

theorem leads_runBiasMonitors {dir : String} {afes : List Int} (hE : ∀ b, P b → E b) :
    Leads Bench.step P (runBiasMonitors env dry_run dir afes) (fun _ => P) E := by
  refine leads_forM (fun afe => ?_) afes
  refine Leads.bind (R := fun _ => P) ?_ fun _ => leads_pure fun _ => id
  exact leads_runCmd (fun _ _ _ hb => hb) (fun _ _ b hb => hE b hb) (fun _ b hb => ⟨hb, hE b hb⟩) fun _ _ => hE

/-- The bench after a metadata file has been written, or not. -/
def Bench.withStatus (b : Bench) (path : String) (status : Option String) : Bench :=
  { b with status := Function.update b.status path status }

theorem Bench.withStatus_self (b : Bench) (path : String) (status : Option String) : (b.withStatus path status).status path = status :=
  Function.update_self ..

theorem Bench.withStatus_of_ne (b : Bench) {path path' : String} (h : path' ≠ path) (status : Option String) :
    (b.withStatus path status).status path' = b.status path' := Function.update_of_ne h ..

theorem leads_writeMetadata {point_dir status : String} {Q : Bench → Prop}
    (hok : ∀ b, P b → Q (b.withStatus (point_dir ++ "/metadata.json") (some status)))
    (herror : ∀ b, P b → E (b.withStatus (point_dir ++ "/metadata.json") none)) :
    Leads Bench.step P (writeMetadata env point_dir status) (fun _ => Q) E :=
  leads_issue (fun _ => hok) fun _ => herror

/-- The bench after an acquisition. -/
def Bench.withTaken (b : Bench) (raw_dir : String) (taken : Option Conditions) : Bench :=
  { b with taken := Function.update b.taken raw_dir taken }

theorem Bench.withTaken_self (b : Bench) (raw_dir : String) (taken : Option Conditions) : (b.withTaken raw_dir taken).taken raw_dir = taken :=
  Function.update_self ..

theorem Bench.withTaken_of_ne (b : Bench) {raw_dir raw_dir' : String} (h : raw_dir' ≠ raw_dir) (taken : Option Conditions) :
    (b.withTaken raw_dir taken).taken raw_dir' = b.taken raw_dir' := Function.update_of_ne h ..

theorem leads_runAcquire {raw_dir log_path : String} {channels : List Int} {waveforms : Int} {Q : Int → Bench → Prop}
    (hok : dry_run = false → ∀ b, P b → Q 0 (b.withTaken raw_dir (some b.toConditions)))
    (hfailed : dry_run = false → ∀ returncode b, returncode ≠ 0 → P b → Q returncode (b.withTaken raw_dir none))
    (herror : dry_run = false → ∀ b, P b → E (b.withTaken raw_dir none)) (hdry : dry_run = true → ∀ b, P b → Q 0 b ∧ E b)
    (hE : dry_run = false → ∀ returncode b, Q returncode b → E b) :
    Leads Bench.step P (runAcquire env dry_run raw_dir channels waveforms log_path) Q E := by
  refine leads_runCmd (fun hreal returncode b hb => ?_) (fun hreal _ => herror hreal) hdry hE
  by_cases hcode : returncode = 0
  · subst hcode
    exact hok hreal b hb
  · have hstep : b.step ⟨.run (.acquire raw_dir channels waveforms), .ok returncode⟩ = b.withTaken raw_dir none := by
      simp only [Bench.step, succeeded, hcode, decide_false, Bool.false_eq_true, if_false, Bench.withTaken]
    rw [hstep]
    exact hfailed hreal returncode b hcode hb

end DaphneZmq.ScanRuntime
