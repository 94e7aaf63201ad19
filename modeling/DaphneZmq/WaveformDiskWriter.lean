import Mathlib.Data.List.Basic
import Mathlib.Logic.Function.Basic
import Mathlib.Tactic.Ring

/-! # The disk writer of the oscilloscope (client/osc.py, WaveformDiskWriter)

A thread takes the frames from a queue and appends the row of each channel to the channel's file, one file after the
other. Any of the writes may raise, after some of its bytes. -/

namespace DaphneZmq.WaveformDiskWriter

/-- An array of samples; the rows are those of an array with two axes. -/
structure Frame where
  shape : List Nat
  rows : List (List Int)
  rows_fit : ∀ {r c}, shape = [r, c] → rows.length = r ∧ ∀ row ∈ rows, row.length = c

/-- What the queue has: the frames that `_push_save_frame` has put there, and the sentinel of `stop`. -/
inductive Item where
  | sentinel
  | frame (yk : Frame)

structure Writer where
  channels : List UInt32
  append_data : Bool
  flush_every : Int
  /-- The bytes of a word, in the order of the machine. -/
  toBytes : UInt16 → UInt8 × UInt8

/-- What goes wrong, with the text of the exception. -/
structure Disk where
  what : String
  /-- How many files have been opened when `open` raises. -/
  initFails : Option Nat
  /-- How many bytes a write has stored when it raises, by the number of the frame and the index of the channel. -/
  writeFails : Nat → Nat → Option Nat
  /-- Whether `flush` raises, by the number of frames written. -/
  flushFails : Nat → Bool

abbrev Files := UInt32 → List UInt8

structure State where
  files : Files
  written_frames : Nat := 0
  bytes_written : Nat := 0
  error : String := ""

variable (w : Writer) (disk : Disk)

/-- `max(1, int(flush_every))`. -/
def flushEvery : Nat := (max 1 w.flush_every).toNat

/-- `open` in mode `ab` or `wb`. -/
def openFile (bytes : List UInt8) : List UInt8 := if w.append_data then bytes else []

/-- The bytes of `yk[idx, :].astype(np.uint16)`. -/
def rowBytes (idx : Nat) (yk : Frame) : List UInt8 :=
  (yk.rows.getD idx []).flatMap fun x => [(w.toBytes (UInt16.ofInt x)).1, (w.toBytes (UInt16.ofInt x)).2]

/-- `yk.ndim == 2 and yk.shape[0] == len(self.channels)`. -/
def fits (yk : Frame) : Bool := decide (yk.shape.length = 2 ∧ yk.shape.head? = some w.channels.length)

/-- The text of a shape. -/
def shapeText : List Nat → String
  | [n] => s!"({n},)"
  | shape => "(" ++ ", ".intercalate (shape.map toString) ++ ")"

/-- The writes of frame number `n`, and whether one of them raises. -/
def writeFrame (n : Nat) (yk : Frame) : List (UInt32 × Nat) → Files → Files × Bool
  | [], files => (files, false)
  | (ch, idx) :: channels, files =>
    match disk.writeFails n idx with
    | some k => (Function.update files ch (files ch ++ (rowBytes w idx yk).take k), true)
    | none => writeFrame n yk channels (Function.update files ch (files ch ++ rowBytes w idx yk))

/-- The loop over the queue; it waits at the end of the items. -/
def loop : List Item → State → State
  | [], s => s
  | .sentinel :: _, s => s
  | .frame yk :: items, s =>
    if fits w yk then
      match writeFrame w disk s.written_frames yk w.channels.zipIdx s.files with
      | (files, true) => { s with files, error := "writer runtime failed: " ++ disk.what }
      | (files, false) =>
        let s := { s with
          files
          written_frames := s.written_frames + 1
          bytes_written := s.bytes_written + (w.channels.zipIdx.map fun c => (rowBytes w c.2 yk).length).sum }
        if s.written_frames % flushEvery w = 0 ∧ disk.flushFails s.written_frames then
          { s with error := "writer runtime failed: " ++ disk.what }
        else loop items s
    else { s with error :=
      s!"writer runtime failed: Invalid frame shape {shapeText yk.shape}, expected ({w.channels.length}, N)" }

def openFiles (channels : List UInt32) (files : Files) : Files :=
  channels.foldl (fun files ch => Function.update files ch (openFile w (files ch))) files

/-- `run`, on what the files hold before it. -/
def run (files : Files) (items : List Item) : State :=
  match disk.initFails with
  | some k => { files := openFiles w (w.channels.take k) files, error := "writer init failed: " ++ disk.what }
  | none => loop w disk items { files := openFiles w w.channels files }

end DaphneZmq.WaveformDiskWriter
