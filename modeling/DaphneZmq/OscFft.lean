import DaphneZmq.Lib.MovingSum
import Mathlib.Algebra.Field.Basic

/-! # Averaged spectra of the oscilloscope (client/osc.py, AcquisitionWorker)

The worker keeps the powers of the last frames in a ring and their sum beside it. Frames, channel switches and resets are
the events that reach it; `K` has the exact numbers in the place of floating-point ones. -/

namespace DaphneZmq.OscFft

/-- `fft_config`, after the conversions to numbers. -/
structure FftConfig (K : Type) where
  enabled : Bool
  emit_every : Int
  channel_index : Int
  remove_dc : Bool
  adc_full_scale : K
  avg_waves : Int
  window : Option (List K)

/-- The functions of numpy that a spectrum of `n` samples uses; a complex number is its real and its imaginary part. -/
structure Numpy (K : Type) (n : Nat) where
  rfft : (Fin n → K) → Fin (n / 2 + 1) → K × K
  log10 : K → K

/-- What does not change after `__init__`; `n` is `numberOfSamples` of the request. -/
structure AcquisitionWorker (K : Type) (n : Nat) where
  numpy : Numpy K n
  channelList : List UInt32
  fft_config : FftConfig K

/-- The rows of an acquired frame, one for each channel, with as many samples as the request asks for. -/
abbrev Frame (n : Nat) := List (Fin n → Int)

inductive Output (K : Type) (n : Nat) where
  | fft_update (y_dbfs : Fin (n / 2 + 1) → K) (navg : Nat)
  | status (text : String)

variable {K : Type} {n : Nat}

section
variable (w : AcquisitionWorker K n)

/-- `_fft_enabled`, after `_setup_fft`. -/
def AcquisitionWorker.enabled : Bool :=
  w.fft_config.enabled && decide (0 < n) && match w.fft_config.window with
    | none => false
    | some window => decide (window.length = n)

def AcquisitionWorker.emitEvery : Nat := (max 1 w.fft_config.emit_every).toNat

def AcquisitionWorker.avgCount : Nat := (max 1 w.fft_config.avg_waves).toNat

theorem AcquisitionWorker.avgCount_pos : 0 < w.avgCount := by
  rw [avgCount]
  omega

variable [Field K] [LinearOrder K]

def AcquisitionWorker.window (i : Fin n) : K := (w.fft_config.window.getD []).getD i 0

def AcquisitionWorker.windowPower : K := max 1 ((List.finRange n).map fun i => w.window i * w.window i).sum

def AcquisitionWorker.adcFullScale : K := max 1 w.fft_config.adc_full_scale

/-- The power spectrum of a row. -/
def AcquisitionWorker.power (row : Fin n → Int) : Fin (n / 2 + 1) → K :=
  let y (i : Fin n) : K := row i
  let mean : K := ((List.finRange n).map y).sum / n
  let y (i : Fin n) : K := if w.fft_config.remove_dc then y i - mean else y i
  let y_fft := w.numpy.rfft fun i => y i * w.window i
  fun b => ((y_fft b).1 * (y_fft b).1 + (y_fft b).2 * (y_fft b).2) / w.windowPower

/-- What is emitted of a mean power. -/
def AcquisitionWorker.dbfs (mean_power : Fin (n / 2 + 1) → K) : Fin (n / 2 + 1) → K := fun b =>
  10 * w.numpy.log10 (mean_power b / (w.adcFullScale * w.adcFullScale) + ((10 : K) ^ 24)⁻¹)

end

/-- The fields that the events change. -/
structure State (w : AcquisitionWorker K n) where
  channelIndex : Int
  ring : Fin w.avgCount → Fin (n / 2 + 1) → K
  sum : Fin (n / 2 + 1) → K
  frames : Nat

variable [Field K] [LinearOrder K] (w : AcquisitionWorker K n)

/-- `__init__`. -/
def init : State w where
  channelIndex := w.fft_config.channel_index
  ring := 0
  sum := 0
  frames := 0

variable {w}

/-- A channel index that `set_fft_channel_index` takes. -/
def valid (w : AcquisitionWorker K n) (channel_index : Int) : Prop := 0 ≤ channel_index ∧ channel_index < w.channelList.length

instance (w : AcquisitionWorker K n) (channel_index : Int) : Decidable (valid w channel_index) :=
  inferInstanceAs (Decidable (_ ∧ _))

def setFftChannelIndex (s : State w) (channel_index : Int) : State w × List (Output K n) :=
  if ¬w.enabled then (s, [])
  else if ¬valid w channel_index then (s, [.status s!"[fft] invalid channel index {channel_index}"])
  else if channel_index = s.channelIndex then (s, [])
  else
    ({ channelIndex := channel_index, ring := 0, sum := 0, frames := 0 },
      [.status s!"[fft] source channel set to {w.channelList.getD channel_index.toNat 0}"])

def resetFftAverage (s : State w) : State w × List (Output K n) :=
  if ¬w.enabled then (s, []) else ({ s with ring := 0, sum := 0, frames := 0 }, [.status "[fft] average reset"])

/-- The row of a frame that the spectrum is taken of. -/
def selectedRow (channel_index : Int) (yk : Frame n) : Option (Fin n → Int) :=
  if channel_index < 0 then none else yk[channel_index.toNat]?

/-- The ring, the sum and the count with a new power. -/
def addPower (s : State w) (power : Fin (n / 2 + 1) → K) : State w :=
  let slot : Fin w.avgCount := ⟨s.frames % w.avgCount, Nat.mod_lt _ w.avgCount_pos⟩
  let sum := if w.avgCount ≤ s.frames then s.sum - s.ring slot else s.sum
  { s with ring := Function.update s.ring slot power, sum := sum + power, frames := s.frames + 1 }

def updateFft (s : State w) (yk : Frame n) : State w × List (Output K n) :=
  if ¬w.enabled then (s, [])
  else match selectedRow s.channelIndex yk with
    | none => (s, [])
    | some row =>
      let s := addPower s (w.power row)
      if s.frames % w.emitEvery ≠ 0 then (s, [])
      else
        let navg := if w.avgCount ≤ s.frames then w.avgCount else s.frames
        if navg = 0 then (s, [])
        else (s, [.fft_update (w.dbfs fun b => s.sum b / navg) navg])

/-- What reaches the worker. -/
inductive Event (n : Nat) where
  | frame (yk : Frame n)
  | setChannel (channel_index : Int)
  | reset

def step (s : State w) : Event n → State w × List (Output K n)
  | .frame yk => updateFft s yk
  | .setChannel channel_index => setFftChannelIndex s channel_index
  | .reset => resetFftAverage s

def run (w : AcquisitionWorker K n) (es : List (Event n)) : State w := es.foldl (fun s e => (step s e).1) (init w)

end DaphneZmq.OscFft
