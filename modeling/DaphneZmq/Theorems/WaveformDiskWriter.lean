import DaphneZmq.WaveformDiskWriter
import Mathlib.Data.Nat.Find

/-! # What the channel files hold when the writer stops

Between two frames all files hold the frames that are counted (`Even`). A write that raises leaves the files of the
channels before it with one frame more, so that the files only agree if it is a write of the first channel, or if the
rows are empty. -/

namespace DaphneZmq.WaveformDiskWriter

variable {w : Writer} {disk : Disk}

/-! ### The property -/

/-- The frames among the items, in order. -/
def frames : List Item → List Frame
  | [] => []
  | .sentinel :: items => frames items
  | .frame yk :: items => yk :: frames items

/-- The rows of a channel in frames one after the other. -/
def rows (w : Writer) (idx : Nat) (yks : List Frame) : List UInt8 := yks.flatMap (rowBytes w idx)

/-- The bytes are those of the first `n` frames and, at most, of a part of the next one. -/
def Holds (w : Writer) (yks : List Frame) (idx n : Nat) (bytes : List UInt8) : Prop :=
  n ≤ yks.length ∧ ∃ tail, bytes = rows w idx (yks.take n) ++ tail ∧
    (tail = [] ∨ ∃ yk, yks[n]? = some yk ∧ tail <+: rowBytes w idx yk ∧ tail.length < (rowBytes w idx yk).length)

/-- All files hold as many whole frames as are reported, the first ones in the queue. -/
def Aligned (w : Writer) (yks : List Frame) (s : State) : Prop :=
  ∀ idx ch, w.channels[idx]? = some ch → Holds w yks idx s.written_frames (s.files ch)

/-! ### The condition -/

/-- The number of samples in a row. -/
def width (yk : Frame) : Nat := yk.shape.getD 1 0

variable {n : Nat} {yk : Frame} {channels : List UInt32} {files : Files} {ch : UInt32} {m : Nat}

/-- All files hold the frames that have been written. -/
structure Even (w : Writer) (done : List Frame) (s : State) : Prop where
  written : s.written_frames = done.length
  files : ∀ idx ch, w.channels[idx]? = some ch → s.files ch = rows w idx done

variable {done rest : List Frame} {s : State}

theorem Even.aligned (h : Even w done s) : Aligned w (done ++ rest) s := by
  intro idx ch hch
  refine ⟨?_, [], ?_, .inl rfl⟩
  · rw [h.written, List.length_append]
    exact Nat.le_add_right _ _
  · rw [h.files idx ch hch, h.written, List.take_left, List.append_nil]

/-- The first channel of a frame of which the write raises. -/
structure RaisesAt (w : Writer) (disk : Disk) (n c k : Nat) : Prop where
  lt : c < w.channels.length
  before : ∀ c' < c, disk.writeFails n c' = none
  raises : disk.writeFails n c = some k

theorem RaisesAt.unique {c c' k k' : Nat} (h : RaisesAt w disk n c k) (h' : RaisesAt w disk n c' k') : c = c' ∧ k = k' := by
  have hc : c = c' := by
    rcases Nat.lt_trichotomy c c' with hlt | heq | hgt
    · have hnone := h'.before c hlt
      rw [h.raises] at hnone
      cases hnone
    · exact heq
    · have hnone := h.before c' hgt
      rw [h'.raises] at hnone
      cases hnone
  subst hc
  exact ⟨rfl, Option.some.inj (h.raises.symm.trans h'.raises)⟩

/-- One sample of each channel. -/
def oneFrame : Frame where
  shape := [2, 1]
  rows := [[5], [6]]
  rows_fit h := by
    cases h
    decide

end DaphneZmq.WaveformDiskWriter
