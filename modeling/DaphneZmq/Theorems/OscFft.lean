import DaphneZmq.OscFft
import Mathlib.Algebra.Group.Pi.Lemmas
import Mathlib.Data.List.Induction

/-! # What the averaged spectra are means of

The ring and the sum hold the powers of the last frames that have been used since the average was last started, by a reset
or by a switch to another channel (`Averages`). Every event keeps this. -/

namespace DaphneZmq.OscFft
open Lib.MovingSum

variable {K : Type} {n : Nat} {w : AcquisitionWorker K n}

/-! ### What the events ask for -/

/-- The selected channel, and the events since the average was last started. -/
structure History (n : Nat) where
  channelIndex : Int
  since : List (Event n)

/-- A reset, or a switch to another channel. -/
def Starts (w : AcquisitionWorker K n) (h : History n) : Event n → Prop
  | .frame _ => False
  | .setChannel channel_index => w.enabled ∧ valid w channel_index ∧ channel_index ≠ h.channelIndex
  | .reset => w.enabled

instance (w : AcquisitionWorker K n) (h : History n) : (e : Event n) → Decidable (Starts w h e)
  | .frame _ => inferInstanceAs (Decidable False)
  | .setChannel _ => inferInstanceAs (Decidable (_ ∧ _ ∧ _))
  | .reset => inferInstanceAs (Decidable (_ = true))

/-- The channel that is selected when an event starts the average. -/
def selects (channel_index : Int) : Event n → Int
  | .setChannel channel_index => channel_index
  | _ => channel_index

def History.next (w : AcquisitionWorker K n) (h : History n) (e : Event n) : History n :=
  if Starts w h e then { channelIndex := selects h.channelIndex e, since := [] } else { h with since := h.since ++ [e] }

def history (w : AcquisitionWorker K n) (es : List (Event n)) : History n :=
  es.foldl (History.next w) { channelIndex := w.fft_config.channel_index, since := [] }

theorem history_append (es : List (Event n)) (e : Event n) : history w (es ++ [e]) = (history w es).next w e := by
  rw [history, List.foldl_append, List.foldl_cons, List.foldl_nil, ← history]

theorem channelIndex_append {es : List (Event n)} {e : Event n} (h : ¬Starts w (history w es) e) :
    (history w (es ++ [e])).channelIndex = (history w es).channelIndex := by
  rw [history_append, History.next, if_neg h]

section
variable [Field K]

/-- The arithmetic mean of powers. -/
def mean (ps : List (Fin (n / 2 + 1) → K)) : Fin (n / 2 + 1) → K := fun b => (ps.map fun p => p b).sum / ps.length

/-- The sum over the recent powers, divided by their number, is their mean. -/
theorem mean_recent (avg : Nat) (ps : List (Fin (n / 2 + 1) → K)) :
    (fun b => (recent avg ps).sum b / ((min ps.length avg : Nat) : K)) = mean (recent avg ps) := by
  funext b
  have hsum : (recent avg ps).sum b = ((recent avg ps).map fun p => p b).sum :=
    map_list_sum (Pi.evalAddMonoidHom (fun _ => K) b) (recent avg ps)
  rw [mean, hsum, length_recent]

theorem addPower_frames (s : State w) (power : Fin (n / 2 + 1) → K) : (addPower s power).frames = s.frames + 1 := rfl

variable [LinearOrder K]

/-- The power of the selected channel in an event, none if it is no frame or a frame that is not used. -/
def powerOf (w : AcquisitionWorker K n) (channel_index : Int) : Event n → Option (Fin (n / 2 + 1) → K)
  | .frame yk => if w.enabled then (selectedRow channel_index yk).map w.power else none
  | _ => none

/-- The powers of the frames that are used since the last start, in order. -/
def used (w : AcquisitionWorker K n) (es : List (Event n)) : List (Fin (n / 2 + 1) → K) :=
  (history w es).since.filterMap (powerOf w (history w es).channelIndex)

theorem used_of_starts {es : List (Event n)} {e : Event n} (h : Starts w (history w es) e) : used w (es ++ [e]) = [] := by
  rw [used, history_append, History.next, if_pos h, List.filterMap_nil]

theorem used_append {es : List (Event n)} {e : Event n} (h : ¬Starts w (history w es) e) :
    used w (es ++ [e]) = used w es ++ (powerOf w (history w es).channelIndex e).toList := by
  rw [used, history_append, History.next, if_neg h, List.filterMap_append, ← used]
  congr 1

/-! ### The invariant -/

/-- The worker's state after the events `es`. -/
structure Averages (w : AcquisitionWorker K n) (es : List (Event n)) (s : State w) : Prop where
  channelIndex : s.channelIndex = (history w es).channelIndex
  frames : s.frames = (used w es).length
  tracks : Tracks w.avgCount_pos s.ring s.sum (used w es)

theorem Averages.init : Averages w [] (init w) := ⟨rfl, rfl, .empty⟩

/-- An event that leaves the state and brings no power. -/
theorem Averages.idle {es : List (Event n)} {s : State w} (h : Averages w es s) {e : Event n}
    (hstarts : ¬Starts w (history w es) e) (hnone : powerOf w (history w es).channelIndex e = none) :
    Averages w (es ++ [e]) s := by
  have hused : used w (es ++ [e]) = used w es := by rw [used_append hstarts, hnone, Option.toList_none, List.append_nil]
  refine ⟨?_, ?_, ?_⟩
  · rw [channelIndex_append hstarts, h.channelIndex]
  · rw [hused, h.frames]
  · rw [hused]
    exact h.tracks

/-- An event that starts the average anew. -/
theorem Averages.start {es : List (Event n)} {e : Event n} (hstarts : Starts w (history w es) e) {channel_index : Int}
    (hchannel : channel_index = (history w (es ++ [e])).channelIndex) :
    Averages w (es ++ [e]) { channelIndex := channel_index, ring := 0, sum := 0, frames := 0 } := by
  have hused := used_of_starts hstarts
  refine ⟨hchannel, ?_, ?_⟩
  · rw [hused]
    rfl
  · rw [hused]
    exact .empty

/-- A frame that is used. -/
theorem Averages.frame {es : List (Event n)} {s : State w} (h : Averages w es s) {yk : Frame n} {row : Fin n → Int}
    (henabled : w.enabled) (hrow : selectedRow s.channelIndex yk = some row) :
    used w (es ++ [.frame yk]) = used w es ++ [w.power row] ∧ Averages w (es ++ [.frame yk]) (addPower s (w.power row)) := by
  have hstarts : ¬Starts w (history w es) (.frame yk) := id
  have hused : used w (es ++ [.frame yk]) = used w es ++ [w.power row] := by
    rw [used_append hstarts, powerOf, if_pos henabled, ← h.channelIndex, hrow]
    rfl
  refine ⟨hused, ?_, ?_, ?_⟩
  · rw [channelIndex_append hstarts, ← h.channelIndex]
    rfl
  · rw [hused, List.length_append, ← h.frames]
    rfl
  · have hpush := h.tracks.push (w.power row)
    rw [← h.frames] at hpush
    rw [hused]
    exact hpush

theorem Averages.setFftChannelIndex {es : List (Event n)} {s : State w} (h : Averages w es s) (channel_index : Int) :
    Averages w (es ++ [.setChannel channel_index]) (setFftChannelIndex s channel_index).1 := by
  unfold OscFft.setFftChannelIndex
  split
  · next hoff => exact h.idle (fun hstarts => hoff hstarts.1) rfl
  split
  · next hinvalid => exact h.idle (fun hstarts => hinvalid hstarts.2.1) rfl
  split
  · next hsame => exact h.idle (fun hstarts => hstarts.2.2 (hsame.trans h.channelIndex)) rfl
  · next hoff hinvalid hother =>
    have hstarts : Starts w (history w es) (.setChannel channel_index) :=
      ⟨not_not.mp hoff, not_not.mp hinvalid, fun hsame => hother (hsame.trans h.channelIndex.symm)⟩
    refine .start hstarts ?_
    rw [history_append, History.next, if_pos hstarts, selects]

theorem Averages.resetFftAverage {es : List (Event n)} {s : State w} (h : Averages w es s) :
    Averages w (es ++ [.reset]) (resetFftAverage s).1 := by
  unfold OscFft.resetFftAverage
  split
  · next hoff => exact h.idle hoff rfl
  · next hon =>
    have hstarts : Starts w (history w es) .reset := not_not.mp hon
    refine .start hstarts ?_
    rw [history_append, History.next, if_pos hstarts]
    exact h.channelIndex

/-- What a frame does to the state, and what it emits. -/
theorem updateFft_cases (s : State w) (yk : Frame n) :
    (updateFft s yk = (s, []) ∧ (¬w.enabled ∨ selectedRow s.channelIndex yk = none)) ∨
      ∃ row, w.enabled ∧ selectedRow s.channelIndex yk = some row ∧ (updateFft s yk).1 = addPower s (w.power row) ∧
        ∀ o ∈ (updateFft s yk).2, o = .fft_update
          (w.dbfs fun b => (addPower s (w.power row)).sum b / (min (s.frames + 1) w.avgCount : Nat))
          (min (s.frames + 1) w.avgCount) := by
  unfold updateFft
  split
  · next hoff => exact .inl ⟨rfl, .inl hoff⟩
  · next hon =>
    split
    · next hnone => exact .inl ⟨rfl, .inr hnone⟩
    · next row hrow =>
      refine .inr ⟨row, not_not.mp hon, hrow, ?_⟩
      have hnavg : (if w.avgCount ≤ (addPower s (w.power row)).frames then w.avgCount else (addPower s (w.power row)).frames) =
          min (s.frames + 1) w.avgCount := by
        rw [addPower_frames]
        split <;> omega
      simp only [hnavg]
      split
      · exact ⟨rfl, fun o ho => nomatch ho⟩
      split
      · exact ⟨rfl, fun o ho => nomatch ho⟩
      · exact ⟨rfl, fun o ho => List.mem_singleton.mp ho⟩

theorem Averages.updateFft {es : List (Event n)} {s : State w} (h : Averages w es s) (yk : Frame n) :
    Averages w (es ++ [.frame yk]) (updateFft s yk).1 := by
  rcases updateFft_cases s yk with ⟨hstate, hunused⟩ | ⟨row, henabled, hrow, hstate, -⟩
  · rw [hstate]
    refine h.idle id ?_
    rw [powerOf, ← h.channelIndex]
    rcases hunused with hoff | hnone
    · exact if_neg hoff
    · rw [hnone, Option.map_none, ite_self]
  · rw [hstate]
    exact (h.frame henabled hrow).2

/-- Every event keeps the invariant. -/
theorem Averages.step {es : List (Event n)} {s : State w} (h : Averages w es s) (e : Event n) :
    Averages w (es ++ [e]) (step s e).1 := by
  cases e with
  | frame yk => exact h.updateFft yk
  | setChannel channel_index => exact h.setFftChannelIndex channel_index
  | reset => exact h.resetFftAverage

theorem averages (es : List (Event n)) : Averages w es (run w es) := by
  induction es using List.reverseRecOn with
  | nil => exact .init
  | append_singleton es e ih =>
    have hrun : run w (es ++ [e]) = (step (run w es) e).1 := by
      rw [run, List.foldl_append, List.foldl_cons, List.foldl_nil, ← run]
    rw [hrun]
    exact ih.step e

/-- A spectrum that is emitted is that of the mean of the last powers that have been used since the average was last
    started, as many as the average takes. -/
theorem fft_update_mean (w : AcquisitionWorker K n) (es : List (Event n)) (e : Event n) (y_dbfs : Fin (n / 2 + 1) → K)
    (navg : Nat) (h : .fft_update y_dbfs navg ∈ (step (run w es) e).2) :
    navg = min (used w (es ++ [e])).length w.avgCount ∧ y_dbfs = w.dbfs (mean (recent w.avgCount (used w (es ++ [e])))) := by
  have hrun : Averages w es (run w es) := averages es
  cases e with
  | frame yk =>
    rcases updateFft_cases (run w es) yk with ⟨hstate, -⟩ | ⟨row, henabled, hrow, -, hemits⟩
    · rw [step, hstate] at h
      cases h
    · obtain ⟨hused, hadded⟩ := hrun.frame henabled hrow
      have hlen : (used w (es ++ [.frame yk])).length = (run w es).frames + 1 := hadded.frames.symm
      obtain ⟨rfl, rfl⟩ := Output.fft_update.inj (hemits _ h)
      rw [hlen]
      refine ⟨rfl, congrArg w.dbfs ?_⟩
      rw [← mean_recent, ← hadded.tracks.sum, hlen]
  | setChannel channel_index =>
    rw [step, setFftChannelIndex] at h
    split at h
    · cases h
    split at h
    · cases List.mem_singleton.mp h
    split at h
    · cases h
    · cases List.mem_singleton.mp h
  | reset =>
    rw [step, resetFftAverage] at h
    split at h
    · cases h
    · cases List.mem_singleton.mp h

end

/-- A worker for records of one sample, whose transform is the sample. -/
def oneSample : AcquisitionWorker ℚ 1 where
  numpy := { rfft := fun y _ => (y 0, 0), log10 := fun x => if x = (10 ^ 24)⁻¹ then -24 else 0 }
  channelList := [7]
  fft_config := { enabled := true, emit_every := 1, channel_index := 0, remove_dc := true, adc_full_scale := 1, avg_waves := 2,
                  window := some [1] }

theorem oneSample_mean : ∃ y_dbfs navg,
    .fft_update y_dbfs navg ∈ (step (run oneSample [.frame [fun _ => 3], .reset]) (.frame [fun _ => 5])).2 ∧
    navg = min (used oneSample ([.frame [fun _ => 3], .reset] ++ [.frame [fun _ => 5]])).length 2 ∧
    y_dbfs = oneSample.dbfs (mean (recent 2 (used oneSample ([.frame [fun _ => 3], .reset] ++ [.frame [fun _ => 5]])))) :=
  ⟨_, _, List.Mem.head _, fft_update_mean oneSample [.frame [fun _ => 3], .reset] (.frame [fun _ => 5]) _ _ (List.Mem.head _)⟩

end DaphneZmq.OscFft
