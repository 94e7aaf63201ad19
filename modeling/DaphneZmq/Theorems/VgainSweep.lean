import DaphneZmq.Theorems.MergeLedIntensityRuns
import DaphneZmq.Theorems.ScanRuntime
import DaphneZmq.VgainSweep

/-! # What a gain sweep leaves behind

Whatever the programs and requests of a sweep answer or raise, the data of every point that its metadata call captured have been
taken with the front end configured for the point and the LED started, and the LED is not left on. -/

namespace DaphneZmq.VgainSweep
open Lib.Commands ScanRuntime
open MergeLedIntensityRuns (zeroPadded_injective)

/-! ### Paths -/

theorem pointDir_injective (args : Args) : Function.Injective args.pointDir :=
  (prepend_injective (args.output_dir ++ "/points/")).comp ((prepend_injective "vgain_").comp (zeroPadded_injective 4))

theorem rawDir_injective (args : Args) : Function.Injective args.rawDir := (append_injective "/raw").comp (pointDir_injective args)

theorem metadata_injective (args : Args) : Function.Injective fun vgain => args.pointDir vgain ++ "/metadata.json" :=
  (append_injective "/metadata.json").comp (pointDir_injective args)

/-! ### A point -/

variable {env : ScanEnv} {args : Args} {rows : List AnchorRow} {led : Led} {summary : List SummaryRow} {vgain : Int} {b : ScanRuntime.Bench}

/-- What is left when a point raises. -/
structure Left (args : Args) (rows : List AnchorRow) (led : Led) (b : ScanRuntime.Bench) : Prop where
  faithful : Faithful args rows led b
  led : b.led = led

/-- What holds between the points: the files say what the rows so far say. -/
structure Between (args : Args) (rows : List AnchorRow) (led : Led) (summary : List SummaryRow) (b : ScanRuntime.Bench) : Prop
    extends Left args rows led b where
  files : ∀ row ∈ summary, row.output_dir = args.pointDir row.vgain ∧ b.status (row.output_dir ++ "/metadata.json") = some row.status

/-- A point has begun. -/
structure Begun (args : Args) (rows : List AnchorRow) (led : Led) (summary : List SummaryRow) (vgain : Int) (b : ScanRuntime.Bench) : Prop
    extends Between args rows led summary b where
  status : b.status (args.pointDir vgain ++ "/metadata.json") ≠ some "captured"

theorem Between.withStatus (h : Between args rows led summary b) (hnew : vgain ∉ summary.map SummaryRow.vgain) (status : Option String)
    (hcaptured : status = some "captured" →
      ∃ cfg, Requests args rows vgain cfg ∧ b.taken (args.rawDir vgain) = some ⟨led, some cfg⟩) :
    Between args rows led summary (b.withStatus (args.pointDir vgain ++ "/metadata.json") status) where
  faithful v hv := by
    by_cases heq : v = vgain
    · subst heq
      exact hcaptured ((b.withStatus_self ..).symm.trans hv)
    · have hne := (metadata_injective args).ne heq
      exact h.faithful v ((b.withStatus_of_ne hne status).symm.trans hv)
  led := h.led
  files row hrow := by
    obtain ⟨hdir, hstatus⟩ := h.files row hrow
    have hne : row.vgain ≠ vgain := fun heq => hnew (heq ▸ List.mem_map_of_mem hrow)
    refine ⟨hdir, (b.withStatus_of_ne ?_ status).trans hstatus⟩
    rw [hdir]
    exact (metadata_injective args).ne hne

theorem Begun.withTaken (h : Begun args rows led summary vgain b) (taken : Option Conditions) :
    Begun args rows led summary vgain (b.withTaken (args.rawDir vgain) taken) where
  faithful v hv := by
    have hne : v ≠ vgain := fun heq => h.status (heq ▸ hv)
    obtain ⟨cfg, hrequests, htaken⟩ := h.faithful v hv
    exact ⟨cfg, hrequests, (b.withTaken_of_ne ((rawDir_injective args).ne hne) taken).trans htaken⟩
  led := h.led
  files := h.files
  status := h.status

/-- A request moves the front end only. -/
theorem Begun.withFrontEnd (h : Begun args rows led summary vgain b) (frontEnd : Option PdsConfigureUtils.ConfigureRequest) :
    Begun args rows led summary vgain { b with frontEnd } := ⟨⟨⟨h.faithful, h.led⟩, h.files⟩, h.status⟩

theorem Between.add (h : Between args rows led summary b) (hnew : vgain ∉ summary.map SummaryRow.vgain) {row : SummaryRow}
    (hvgain : row.vgain = vgain) (hdir : row.output_dir = args.pointDir vgain) (hcaptured : row.status = "captured" →
      ∃ cfg, Requests args rows vgain cfg ∧ b.taken (args.rawDir vgain) = some ⟨led, some cfg⟩) :
    Between args rows led (summary ++ [row]) (b.withStatus (args.pointDir vgain ++ "/metadata.json") (some row.status)) := by
  have hwith := h.withStatus hnew (some row.status) fun hstatus => hcaptured (Option.some.inj hstatus)
  refine ⟨hwith.toLeft, fun row' hrow' => ?_⟩
  rcases List.mem_append.mp hrow' with hmem | hmem
  · exact hwith.files row' hmem
  · cases List.mem_singleton.mp hmem
    rw [hvgain, hdir]
    exact ⟨rfl, b.withStatus_self ..⟩

theorem leads_sendConfig {cfg : PdsConfigureUtils.ConfigureRequest} :
    Leads ScanRuntime.Bench.step (Begun args rows led summary vgain) (sendConfig env args cfg)
      (fun ok b => Begun args rows led summary vgain b ∧ (ok = true → args.dry_run = false → b.frontEnd = some cfg)) (Left args rows led) := by
  unfold sendConfig
  split
  next hdry => exact leads_pure fun b hb => ⟨hb, fun _ hreal => absurd hdry (by rw [hreal]; decide)⟩
  refine Leads.bind (R := fun summary' b => Begun args rows led summary vgain b ∧ (Summary.ok summary' = true → b.frontEnd = some cfg))
    (leads_issue (fun summary' b hb => ?_) fun e b hb => (hb.withFrontEnd none).toLeft) fun summary' => ?_
  · refine ⟨hb.withFrontEnd _, fun hok => ?_⟩
    show (if Summary.ok summary' then some cfg else none) = some cfg
    rw [hok, if_pos rfl]
  · exact leads_pure fun b hb => ⟨hb.1, fun hok _ => hb.2 hok⟩

theorem leads_readFeState {P E : ScanRuntime.Bench → Prop} {point_dir : String} (hE : ∀ b, P b → E b) :
    Leads ScanRuntime.Bench.step P (readFeState env args point_dir) (fun _ => P) E := by
  unfold readFeState
  split
  · exact leads_pure fun _ => id
  · exact (leads_runFeStateReadback hE).bind fun _ => leads_pure fun _ => id

/-- The data of a point, if there is an acquisition that has returned 0. -/
theorem leads_acquire {cfg : PdsConfigureUtils.ConfigureRequest} {dry_run : Bool} {waveforms : Int} {log_path : String} :
    Leads ScanRuntime.Bench.step (fun b => Begun args rows led summary vgain b ∧ (dry_run = false → b.frontEnd = some cfg))
      (runAcquire env dry_run (args.rawDir vgain) CHANNEL_ORDER waveforms log_path)
      (fun returncode b => Begun args rows led summary vgain b ∧
        (returncode = 0 → dry_run = false → b.taken (args.rawDir vgain) = some ⟨led, some cfg⟩)) (Left args rows led) := by
  refine leads_runAcquire (fun hreal b hb => ⟨hb.1.withTaken _, fun _ _ => ?_⟩) (fun _ _ b hfailed hb => ⟨hb.1.withTaken none, fun hok => ?_⟩)
    (fun _ b hb => (hb.1.withTaken none).toLeft) (fun hdry b hb => ⟨⟨hb.1, fun _ hreal => ?_⟩, hb.1.toLeft⟩) fun _ _ b hb => hb.1.toLeft
  · rw [b.withTaken_self, ← hb.1.led, ← hb.2 hreal]
  · exact absurd hok hfailed
  · exact absurd hdry (by rw [hreal]; decide)

/-- The end of a round: the row goes to the metadata too. -/
theorem leads_finish {P : ScanRuntime.Bench → Prop} (row : SummaryRow) (hnew : row.vgain ∉ summary.map SummaryRow.vgain)
    (hdir : row.output_dir = args.pointDir row.vgain) (hP : ∀ b, P b → Between args rows led summary b ∧ (row.status = "captured" →
      ∃ cfg, Requests args rows row.vgain cfg ∧ b.taken (args.rawDir row.vgain) = some ⟨led, some cfg⟩)) :
    Leads ScanRuntime.Bench.step P (writeMetadata env (args.pointDir row.vgain) row.status >>= fun _ => return row)
      (fun row' b => row'.vgain = row.vgain ∧ Between args rows led (summary ++ [row']) b) (Left args rows led) := by
  refine Leads.bind (R := fun _ => Between args rows led (summary ++ [row])) (leads_writeMetadata (fun b hb => ?_) fun b hb => ?_)
    fun _ => leads_pure fun b hb => ⟨rfl, hb⟩
  · exact (hP b hb).1.add hnew rfl hdir (hP b hb).2
  · exact ((hP b hb).1.withStatus hnew none nofun).toLeft

theorem leads_sweepPoint {anchor_offsets : Anchors} (hanchors : loadAnchorOffsets args.anchor_csv rows = .ok anchor_offsets)
    (hnew : vgain ∉ summary.map SummaryRow.vgain) :
    Leads ScanRuntime.Bench.step (Between args rows led summary) (sweepPoint env args anchor_offsets vgain)
      (fun row b => row.vgain = vgain ∧ Between args rows led (summary ++ [row]) b) (Left args rows led) := by
  have hleft (b : ScanRuntime.Bench) (hb : Between args rows led summary b) : Left args rows led b := hb.toLeft
  have hleft' (b : ScanRuntime.Bench) (hb : Begun args rows led summary vgain b) : Left args rows led b := hb.toLeft
  unfold sweepPoint
  refine leads_ofExcept_bind (fun offsets hoffsets => ?_) hleft
  refine (leads_mkdir hleft).bind fun _ => (leads_mkdir hleft).bind fun _ => (leads_writeText hleft).bind fun _ => ?_
  refine Leads.bind (R := fun _ => Begun args rows led summary vgain) (leads_writeMetadata (fun b hb => ?_) fun b hb => ?_) fun _ => ?_
  · refine ⟨hb.withStatus hnew _ fun hstarted => absurd hstarted (by decide), ?_⟩
    rw [b.withStatus_self]
    decide
  · exact (hb.withStatus hnew none nofun).toLeft
  refine leads_ofExcept_bind (fun cfg hcfg => ?_) hleft'
  have hrequests : Requests args rows vgain cfg := ⟨anchor_offsets, offsets, hanchors, hoffsets, hcfg⟩
  refine leads_sendConfig.bind fun configure_ok => ?_
  refine (leads_writeText fun b hb => hleft' b hb.1).bind fun _ => ?_
  split
  · exact leads_finish ⟨vgain, "configure_failed", args.pointDir vgain, none, none⟩ hnew rfl fun b hb =>
      ⟨hb.1.toBetween, fun hcaptured => absurd (show "configure_failed" = "captured" from hcaptured) (by decide)⟩
  next hok =>
  have hleft'' (b : ScanRuntime.Bench) (hb : Begun args rows led summary vgain b ∧ (args.dry_run = false → b.frontEnd = some cfg)) :
      Left args rows led b := hb.1.toLeft
  refine Leads.bind (R := fun _ b => Begun args rows led summary vgain b ∧ (args.dry_run = false → b.frontEnd = some cfg))
    ((leads_readFeState hleft'').mono (fun b hb => ⟨hb.1, hb.2 (Bool.eq_true_of_not_eq_false hok)⟩) (fun _ _ => id) fun _ => id) fun _ => ?_
  refine (leads_runBiasMonitors hleft'').bind fun _ => leads_acquire.bind fun returncode => ?_
  refine leads_finish ⟨vgain, if args.dry_run then "dry_run" else if returncode = 0 then "captured" else "acquire_failed",
    args.pointDir vgain, offsets.min?, offsets.max?⟩ hnew rfl fun b hb => ⟨hb.1.toBetween, fun hcaptured => ⟨cfg, hrequests, ?_⟩⟩
  dsimp only at hcaptured
  split at hcaptured
  · exact absurd hcaptured (by decide)
  next hreal =>
  split at hcaptured
  next hcode => exact hb.2 hcode (Bool.eq_false_of_not_eq_true hreal)
  next => exact absurd hcaptured (by decide)

/-! ### The sweep -/

theorem leads_loop {anchor_offsets : Anchors} (hanchors : loadAnchorOffsets args.anchor_csv rows = .ok anchor_offsets) {values : List Int}
    (hvalues : values.Nodup) : Leads ScanRuntime.Bench.step (Left args rows led) (values.mapM (sweepPoint env args anchor_offsets))
      (fun summary b => summary.map SummaryRow.vgain = values ∧ Between args rows led summary b) (Left args rows led) := by
  refine (leads_mapM (fun done summary b => summary.map SummaryRow.vgain = done ∧ Between args rows led summary b)
    (List.nil_append values).symm (fun done summary vgain rest hsplit => ?_) []).mono (fun b hb => ⟨rfl, hb, nofun⟩) (fun _ _ => id)
    fun _ => id
  intro start l hb
  obtain ⟨rfl, hbetween⟩ := hb
  have hnew : vgain ∉ summary.map SummaryRow.vgain := by
    rw [hsplit] at hvalues
    exact fun hmem => (List.nodup_append.mp hvalues).2.2 vgain hmem vgain (List.mem_cons_self ..) rfl
  refine Lib.Device.wp_mono (leads_sweepPoint hanchors hnew start l hbetween) ?_ fun _ _ => id
  rintro row l' ⟨hvgain, hbetween'⟩
  rw [List.map_append, List.map_singleton, hvgain]
  exact ⟨rfl, hbetween'⟩

/-- The LED is not known to be lit. -/
def Unlit (b : ScanRuntime.Bench) : Prop := ∀ biases, b.led ≠ .lit biases

/-- A program for the LED that fails leaves it unsure. -/
theorem unlit_of_unsure : Unlit { b with led := .unsure } := fun _ => nofun

/-- How a sweep ends. Its LED is left lit only when something raises before the first point. -/
structure Ended (args : Args) (rows : List AnchorRow) (b₀ b : ScanRuntime.Bench) : Prop where
  faithful : Faithful args rows (args.ledDuring b₀.led) b
  notStarted : (args.no_led_start || args.dry_run) = true → b.led = b₀.led
  started : (args.no_led_start || args.dry_run) = false → Unlit b ∨ b = { b₀ with led := b.led }

variable {b₀ : ScanRuntime.Bench}

theorem ledDuring_of_true (h : (args.no_led_start || args.dry_run) = true) : args.ledDuring led = led := if_pos h

theorem ledDuring_of_false (h : (args.no_led_start || args.dry_run) = false) : args.ledDuring led = .lit args.led_biases :=
  if_neg (Bool.eq_false_iff.mp h)

theorem Left.ended (h : Left args rows (args.ledDuring b₀.led) b) (hoff : (args.no_led_start || args.dry_run) = false → Unlit b) :
    Ended args rows b₀ b where
  faithful := h.faithful
  notStarted hnot := h.led.trans (ledDuring_of_true hnot)
  started hstarted := Or.inl (hoff hstarted)

/-- Before the first point. -/
theorem Ended.of_led {led' : Led} (h : Faithful args rows (args.ledDuring b₀.led) b₀)
    (hkept : (args.no_led_start || args.dry_run) = true → led' = b₀.led) : Ended args rows b₀ { b₀ with led := led' } where
  faithful := h
  notStarted := hkept
  started _ := Or.inr rfl

theorem leads_startLed : Leads ScanRuntime.Bench.step (fun b => b = b₀ ∧ Faithful args rows (args.ledDuring b₀.led) b) (startLed env args)
    (fun started b => Left args rows (args.ledDuring b₀.led) b ∧ started = !args.no_led_start) (Ended args rows b₀) := by
  unfold startLed
  split
  next hno =>
    have hnot : (args.no_led_start || args.dry_run) = true := by rw [hno, Bool.true_or]
    refine leads_pure fun b hb => ⟨⟨hb.2, ?_⟩, by rw [hno]; rfl⟩
    rw [hb.1, ledDuring_of_true hnot]
  next hstart =>
  have hno : args.no_led_start = false := Bool.eq_false_of_not_eq_true hstart
  have hdry : (args.no_led_start || args.dry_run) = args.dry_run := by rw [hno, Bool.false_or]
  refine Leads.bind (R := fun returncode b => Ended args rows b₀ b ∧ (returncode = 0 → Left args rows (args.ledDuring b₀.led) b))
    (leads_runCmd (fun hreal returncode b hb => ?_) (fun hreal e b hb => ?_) (fun hdone b hb => ?_) fun _ _ _ hb => hb.1) fun returncode => ?_
  · obtain ⟨rfl, hfaithful⟩ := hb
    refine ⟨.of_led hfaithful fun hnot => absurd (hdry.symm.trans hnot) (by rw [hreal]; decide), ?_⟩
    rintro rfl
    exact ⟨hfaithful, (ledDuring_of_false (hdry.trans hreal)).symm⟩
  · obtain ⟨rfl, hfaithful⟩ := hb
    exact .of_led hfaithful fun hnot => absurd (hdry.symm.trans hnot) (by rw [hreal]; decide)
  · obtain ⟨rfl, hfaithful⟩ := hb
    have hended : Ended args rows b b := .of_led hfaithful fun _ => rfl
    exact ⟨⟨hended, fun _ => ⟨hfaithful, (ledDuring_of_true (hdry.trans hdone)).symm⟩⟩, hended⟩
  refine (leads_writeText fun b hb => hb.1).bind fun _ => ?_
  split
  · exact leads_throw fun b hb => hb.1
  next hcode => exact leads_pure fun b hb => ⟨hb.2 (not_not.mp hcode), by rw [hno]; rfl⟩

/-- Whatever does not depend on the LED stays as it is. -/
theorem leads_stopLed {K : ScanRuntime.Bench → Prop} {started : Bool} (hstarted : started = !args.no_led_start)
    (hK : ∀ b led', K b → K { b with led := led' }) : Leads ScanRuntime.Bench.step (fun b => K b ∧ Left args rows (args.ledDuring b₀.led) b)
      (stopLed env args started) (fun _ b => K b ∧ Ended args rows b₀ b ∧ ((args.no_led_start || args.dry_run) = false → Unlit b))
      (Ended args rows b₀) := by
  subst hstarted
  unfold stopLed
  split
  next hstart =>
    have hno : args.no_led_start = false := by simpa using hstart
    have hdry : (args.no_led_start || args.dry_run) = args.dry_run := by rw [hno, Bool.false_or]
    have hstopped {b : ScanRuntime.Bench} (hfaithful : Faithful args rows (args.ledDuring b₀.led) b) (hreal : args.dry_run = false)
        (hunlit : Unlit b) : Ended args rows b₀ b := by
      refine ⟨hfaithful, fun hnot => ?_, fun _ => Or.inl hunlit⟩
      rw [hdry, hreal] at hnot
      cases hnot
    refine Leads.bind (R := fun _ b => K b ∧ Ended args rows b₀ b ∧ ((args.no_led_start || args.dry_run) = false → Unlit b))
      (leads_runCmd (fun hreal returncode b hb => ?_) (fun hreal e b hb => ?_) (fun hdone b hb => ?_) fun _ _ _ hb => hb.2.1)
      fun _ => leads_writeText fun _ hb => hb.2.1
    · have hunlit : Unlit (b.step ⟨.run .ledStop, .ok returncode⟩) := by
        intro biases
        show (if succeeded (.ok returncode) then Led.dark else Led.unsure) ≠ _
        split <;> exact nofun
      exact ⟨hK b _ hb.1, hstopped hb.2.faithful hreal hunlit, fun _ => hunlit⟩
    · exact hstopped hb.2.faithful hreal unlit_of_unsure
    · have hoff : (args.no_led_start || args.dry_run) = false → Unlit b := fun hstarted => by
        rw [hdry, hdone] at hstarted
        cases hstarted
      exact ⟨⟨hb.1, hb.2.ended hoff, hoff⟩, hb.2.ended hoff⟩
  next hstart =>
    have hno : args.no_led_start = true := by simpa using hstart
    refine leads_pure fun b hb => ⟨hb.1, ?_⟩
    have hoff : (args.no_led_start || args.dry_run) = false → Unlit b := fun hstarted => by
      rw [hno, Bool.true_or] at hstarted
      cases hstarted
    exact ⟨hb.2.ended hoff, hoff⟩

/-- A sweep, from any bench whose metadata are right. -/
theorem main_spec (env : ScanEnv) (args : Args) (rows : List AnchorRow) (b₀ : ScanRuntime.Bench) : Leads ScanRuntime.Bench.step
    (fun b => b = b₀ ∧ Faithful args rows (args.ledDuring b₀.led) b) (main env args rows)
    (fun summary b => Ended args rows b₀ b ∧ ((args.no_led_start || args.dry_run) = false → Unlit b) ∧
      inclusiveRange args.vgain_start args.vgain_stop args.vgain_step = .ok (summary.map SummaryRow.vgain) ∧
      ∀ row ∈ summary, row.output_dir = args.pointDir row.vgain ∧ b.status (row.output_dir ++ "/metadata.json") = some row.status)
    (Ended args rows b₀) := by
  have hended (b : ScanRuntime.Bench) (hb : b = b₀ ∧ Faithful args rows (args.ledDuring b₀.led) b) : Ended args rows b₀ b := by
    obtain ⟨rfl, hfaithful⟩ := hb
    exact .of_led hfaithful fun _ => rfl
  unfold main
  refine (leads_mkdir hended).bind fun _ => (leads_mkdir hended).bind fun _ => leads_ofExcept_bind (fun anchor_offsets hanchors => ?_) hended
  refine leads_ofExcept_bind (fun values hvalues => ?_) hended
  refine (leads_writeText hended).bind fun _ => leads_startLed.bind fun started => leads_of_and fun hstarted => ?_
  have hnodup : values.Nodup := (inclusiveRange_sorted hvalues).imp Int.ne_of_lt
  refine Leads.bind (R := fun summary b => (summary.map SummaryRow.vgain = values ∧ ∀ row ∈ summary, row.output_dir = args.pointDir row.vgain ∧
      b.status (row.output_dir ++ "/metadata.json") = some row.status) ∧ Ended args rows b₀ b ∧
      ((args.no_led_start || args.dry_run) = false → Unlit b))
    (leads_tryFinally (leads_loop hanchors hnodup) (fun summary => ?_) ?_) fun summary => ?_
  · exact (leads_stopLed hstarted fun _ _ => id).mono (fun b hb => ⟨⟨hb.1, hb.2.files⟩, hb.2.toLeft⟩) (fun _ _ => id) fun _ => id
  · exact (leads_stopLed (K := fun _ => True) hstarted fun _ _ => id).mono (fun b hb => ⟨trivial, hb⟩) (fun _ b hb => hb.2.1) fun _ => id
  · refine (leads_writeText fun b hb => hb.2.1).bind fun _ => leads_pure fun b hb => ?_
    obtain ⟨⟨rfl, hfiles⟩, hend, hunlit⟩ := hb
    exact ⟨hend, hunlit, hvalues, hfiles⟩

/-- Every channel has the offsets 2000 and 2100, at the gains 1500 and 1700. -/
def twoAnchors : List AnchorRow :=
  CHANNEL_ORDER.flatMap fun channel => [{ vgain := 1500, channel, closest_offset_to_2000 := 2000 },
    { vgain := 1700, channel, closest_offset_to_2000 := 2100 }]

def oneGain : Args where
  anchor_csv := "anchors.csv"
  output_dir := "out"
  host := "127.0.0.1"
  vgain_start := 1600
  vgain_stop := 1600
  vgain_step := 100
  offset_subtract := 5
  offset_min := 0
  offset_max := 4095
  waveforms := 1
  timeout_ms := 500
  bias_monitor_afes := []
  no_led_start := false
  led_biases := { pulse_bias_percent_270nm := 4094, pulse_bias_percent_367nm := 0 }
  skip_fe_readback := true
  dry_run := false

/-- Every command does what it is for. -/
def fine : ScanEnv := fun _ command => .ok <| match command with
  | .run _ => (0 : Int)
  | .configure _ => { success := some true, configure_response := none : Summary }
  | .mkdir _ => ()
  | .writeText _ _ => ()

def darkBench : ScanRuntime.Bench where
  led := .dark
  frontEnd := none
  taken _ := none
  status _ := none

theorem main_spec_dark : Lib.Device.wp (main fine oneGain twoAnchors)
    (fun summary l => (Ended oneGain twoAnchors darkBench (l.foldl ScanRuntime.Bench.step darkBench) ∧
      ((oneGain.no_led_start || oneGain.dry_run) = false → Unlit (l.foldl ScanRuntime.Bench.step darkBench)) ∧
      inclusiveRange oneGain.vgain_start oneGain.vgain_stop oneGain.vgain_step = .ok (summary.map SummaryRow.vgain) ∧
      ∀ row ∈ summary, row.output_dir = oneGain.pointDir row.vgain ∧
        (l.foldl ScanRuntime.Bench.step darkBench).status (row.output_dir ++ "/metadata.json") = some row.status))
    (fun _ l => Ended oneGain twoAnchors darkBench (l.foldl ScanRuntime.Bench.step darkBench)) [] :=
  main_spec fine oneGain twoAnchors darkBench darkBench [] ⟨rfl, nofun⟩

end DaphneZmq.VgainSweep
