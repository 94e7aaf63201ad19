import DaphneZmq.MergeLedIntensityRuns
import DaphneZmq.ScanRuntime
import Mathlib.Data.Rat.Floor

/-! # The gain sweep (client/dynamic_range_led/scan_led_vgain_sweep.py)

For one gain after another the sweep configures the front end, with an offset for each channel between those of the anchors, and
takes waveforms under the LED. Offsets are rationals until they are rounded. -/

namespace DaphneZmq.VgainSweep
open Lib.Commands ScanRuntime PdsConfigureUtils
open MergeLedIntensityRuns (Dict sortedItems zeroPadded)

def CHANNEL_ORDER : List Int := [4, 5, 6, 7, 12, 13, 14, 15, 18, 19, 21]
def AFE_IDS : List Int := [0, 1, 2, 3, 4]
def AFE_BIAS_DAC : List Int := [1195, 916, 0, 0, 0]
def ADC_RESOLUTION : Int := 0
def ADC_OUTPUT_FORMAT : Int := 1
def ADC_SB_FIRST : Int := 0
def LPF_CUTOFF_CODE : Int := 4
def PGA_GAIN_CODE : Int := 0
def LNA_GAIN_CODE : Int := 2
def LNA_CLAMP_CODE : Int := 0

/-! ### Offsets -/

structure AnchorRow where
  vgain : Int
  channel : Int
  closest_offset_to_2000 : Int

/-- The offsets of the channels, by the gain. -/
abbrev Anchors := Dict (Dict Int)

def addAnchor (anchors : Anchors) (row : AnchorRow) : Anchors :=
  anchors.insert row.channel (((anchors.lookup row.channel).getD ∅).insert row.vgain row.closest_offset_to_2000)

def loadAnchorOffsets (csv_path : String) (rows : List AnchorRow) : Except String Anchors :=
  let anchors := rows.foldl addAnchor ∅
  let missing := CHANNEL_ORDER.filter fun channel => (anchors.lookup channel).isNone
  if missing ≠ [] then throw s!"Missing anchor channels in {csv_path}: {missing}" else return anchors

/-- `round(q)`: a half goes to the even neighbour. -/
def round (q : ℚ) : Int :=
  if q - ⌊q⌋ < 1 / 2 then ⌊q⌋
  else if 1 / 2 < q - ⌊q⌋ then ⌊q⌋ + 1
  else if ⌊q⌋ % 2 = 0 then ⌊q⌋
  else ⌊q⌋ + 1

/-- The loop over the segments. -/
def onSegment (vgain : Int) : List (Int × Int) → Option ℚ
  | (left_vgain, left_offset) :: (right_vgain, right_offset) :: points =>
    if left_vgain ≤ vgain ∧ vgain ≤ right_vgain then
      let span := right_vgain - left_vgain
      let frac : ℚ := if span ≠ 0 then (vgain - left_vgain : ℚ) / span else 0
      some (left_offset + frac * (right_offset - left_offset))
    else onSegment vgain ((right_vgain, right_offset) :: points)
  | _ => none

/-- `value` -/
def interpolate (points : List (Int × Int)) (vgain : Int) : Except String ℚ :=
  match points.head?, points.getLast? with
  | some first, some last =>
    if vgain ≤ first.1 then return first.2
    else if last.1 ≤ vgain then return last.2
    else return (onSegment vgain points).getD first.2
  | _, _ => throw "list index out of range"

def interpolateChannelOffset (anchor_offsets : Anchors) (offset_subtract offset_min offset_max channel vgain : Int) : Except String Int := do
  match anchor_offsets.lookup channel with
  | none => throw (toString channel)
  | some offsets =>
    let value ← interpolate (sortedItems offsets) vgain
    let adjusted := round value - offset_subtract
    return max offset_min (min offset_max adjusted)

/-! ### Requests -/

def buildSeedConfig (vgain : Int) (offsets_by_channel : List Int) : Seed Empty where
  bias_ctrl := some (.int 1300)
  channel_analog_conf := .value {
    ids := ints CHANNEL_ORDER
    gains := each CHANNEL_ORDER.length 1
    offsets := ints offsets_by_channel
    trims := each CHANNEL_ORDER.length 0 }
  afes := .value {
    ids := ints AFE_IDS
    attenuators := each AFE_IDS.length vgain
    v_biases := ints AFE_BIAS_DAC
    adcs := .value {
      resolution := each AFE_IDS.length ADC_RESOLUTION
      output_format := each AFE_IDS.length ADC_OUTPUT_FORMAT
      SB_first := each AFE_IDS.length ADC_SB_FIRST }
    pgas := .value {
      lpf_cut_frequency := each AFE_IDS.length LPF_CUTOFF_CODE
      integrator_disable := each AFE_IDS.length 1
      gain := each AFE_IDS.length PGA_GAIN_CODE }
    lnas := .value {
      clamp := each AFE_IDS.length LNA_CLAMP_CODE
      integrator_disable := each AFE_IDS.length 1
      gain := each AFE_IDS.length LNA_GAIN_CODE } }

/-- The arguments that the sweep gives for the default request; its seeds have no slot. -/
def defaults (host : String) (timeout_ms : UInt32) : Defaults where
  ip := host
  slot := 1
  timeout_ms
  per_ch_offset := 2275
  vgain := 1600
  lpf_cutoff := 4
  pga_gain := false
  lna_gain := 2
  lna_clamp := 0

def makeConfigRequest (host : String) (timeout_ms : Int) (seed_cfg : Seed Empty) : Except Raised PdsConfigureUtils.ConfigureRequest := do
  let timeout_ms ← inRange 32 timeout_ms
  let cfg ← buildRequestFromSeed numbers seed_cfg (makeDefaultConfig (defaults host (UInt32.ofBitVec timeout_ms))) true
  return { cfg with daphne_address := host, timeout_ms := UInt32.ofBitVec timeout_ms }

def raisedText : Raised → String
  | .attributeError => "AttributeError"
  | .typeError => "TypeError"
  | .valueError => "ValueError"

/-! ### The sweep -/

structure Args where
  anchor_csv : String
  output_dir : String
  host : String
  vgain_start : Int
  vgain_stop : Int
  vgain_step : Int
  offset_subtract : Int
  offset_min : Int
  offset_max : Int
  waveforms : Int
  timeout_ms : Int
  bias_monitor_afes : List Int
  no_led_start : Bool
  led_biases : LedBiases
  skip_fe_readback : Bool
  dry_run : Bool

structure SummaryRow where
  vgain : Int
  status : String
  output_dir : String
  min_offset : Option Int
  max_offset : Option Int

section
variable (env : ScanEnv) (args : Args)

def Args.pointDir (vgain : Int) : String := args.output_dir ++ "/points/" ++ ("vgain_" ++ zeroPadded 4 vgain)

def Args.rawDir (vgain : Int) : String := args.pointDir vgain ++ "/raw"

def offsetsByChannel (anchor_offsets : Anchors) (vgain : Int) : Except String (List Int) :=
  CHANNEL_ORDER.mapM fun channel =>
    interpolateChannelOffset anchor_offsets args.offset_subtract args.offset_min args.offset_max channel vgain

/-- `configure_ok` -/
def sendConfig (cfg : PdsConfigureUtils.ConfigureRequest) : ScanProg Bool :=
  if args.dry_run then return true
  else do
    let summary ← configure env cfg
    return Summary.ok summary

def readFeState (point_dir : String) : ScanProg Unit :=
  if args.skip_fe_readback then return ()
  else do
    let _ ← runFeStateReadback env args.dry_run (point_dir ++ "/fe_state_readback.log")

/-- A round of the loop over the gains: the row of the summary. -/
def sweepPoint (anchor_offsets : Anchors) (vgain : Int) : ScanProg SummaryRow := do
  let offsets_by_channel ← ofExcept id (offsetsByChannel args anchor_offsets vgain)
  let point_dir := args.pointDir vgain
  let raw_dir := args.rawDir vgain
  mkdir env point_dir
  mkdir env raw_dir
  let seed_cfg := buildSeedConfig vgain offsets_by_channel
  writeText env (point_dir ++ "/config_applied.json")
  writeMetadata env point_dir "started"
  let cfg ← ofExcept raisedText (makeConfigRequest args.host args.timeout_ms seed_cfg)
  let configure_ok ← sendConfig env args cfg
  writeText env (point_dir ++ "/configure.json")
  if configure_ok = false then do
    writeMetadata env point_dir "configure_failed"
    return { vgain, status := "configure_failed", output_dir := point_dir, min_offset := none, max_offset := none }
  else do
    readFeState env args point_dir
    runBiasMonitors env args.dry_run point_dir args.bias_monitor_afes
    let acquire_rc ← runAcquire env args.dry_run raw_dir CHANNEL_ORDER args.waveforms (point_dir ++ "/acquire.log")
    let status := if args.dry_run then "dry_run" else if acquire_rc = 0 then "captured" else "acquire_failed"
    writeMetadata env point_dir status
    return { vgain, status, output_dir := point_dir, min_offset := offsets_by_channel.min?, max_offset := offsets_by_channel.max? }

/-- The start of the LED: `led_started`, which is not set when this raises. -/
def startLed : ScanProg Bool :=
  if args.no_led_start then return false
  else do
    let returncode ← runLed env args.dry_run args.led_biases (args.output_dir ++ "/led_start.log")
    writeText env (args.output_dir ++ "/scan_manifest.json")
    if returncode ≠ 0 then throw s!"Failed to start SSP LED: {returncode}"
    return true

/-- The `finally` clause, which does nothing unless the LED has been started. -/
def stopLed (led_started : Bool) : ScanProg Unit :=
  if led_started then do
    let _ ← runLedStop env args.dry_run (args.output_dir ++ "/led_stop.log")
    writeText env (args.output_dir ++ "/scan_manifest.json")
  else return ()

/-- `main`: the rows of the summary. -/
def main (rows : List AnchorRow) : ScanProg (List SummaryRow) := do
  mkdir env args.output_dir
  mkdir env (args.output_dir ++ "/points")
  let anchor_offsets ← ofExcept id (loadAnchorOffsets args.anchor_csv rows)
  let vgain_values ← ofExcept id (inclusiveRange args.vgain_start args.vgain_stop args.vgain_step)
  writeText env (args.output_dir ++ "/scan_manifest.json")
  let led_started ← startLed env args
  let summary_rows ← tryFinally (vgain_values.mapM (sweepPoint env args anchor_offsets)) (stopLed env args led_started)
  writeText env (args.output_dir ++ "/scan_summary.csv")
  return summary_rows

end

/-! ### What it is for -/

section
variable (args : Args) (rows : List AnchorRow)

/-- The offset of the last row for a channel and a gain. -/
def anchorOf (channel vgain : Int) : Option Int :=
  (rows.reverse.find? fun row => row.channel = channel ∧ row.vgain = vgain).map AnchorRow.closest_offset_to_2000

/-- An anchor of the channel with no other between it and the gain. -/
def Neighbour (channel vgain v : Int) : Prop :=
  anchorOf rows channel v ≠ none ∧ ∀ w, anchorOf rows channel w ≠ none → ¬(v < w ∧ w ≤ vgain) ∧ ¬(vgain ≤ w ∧ w < v)

/-- An offset as the sweep sets it. -/
def settle (offset_subtract offset_min offset_max offset : Int) : Int := max offset_min (min offset_max (offset - offset_subtract))

/-- The request of a point. -/
def Requests (vgain : Int) (cfg : PdsConfigureUtils.ConfigureRequest) : Prop :=
  ∃ anchor_offsets offsets, loadAnchorOffsets args.anchor_csv rows = .ok anchor_offsets ∧
    offsetsByChannel args anchor_offsets vgain = .ok offsets ∧
    makeConfigRequest args.host args.timeout_ms (buildSeedConfig vgain offsets) = .ok cfg

/-- The LED in the course of a sweep, if it is `led` before it. -/
def Args.ledDuring (led : Led) : Led := if args.no_led_start || args.dry_run then led else .lit args.led_biases

/-- The data of every point that says that it is captured have been taken under the LED, with the front end configured for the
    point. -/
def Faithful (led : Led) (b : ScanRuntime.Bench) : Prop :=
  ∀ vgain, b.status (args.pointDir vgain ++ "/metadata.json") = some "captured" →
    ∃ cfg, Requests args rows vgain cfg ∧ b.taken (args.rawDir vgain) = some ⟨led, some cfg⟩

end

end DaphneZmq.VgainSweep
