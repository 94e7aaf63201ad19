import DaphneZmq.Theorems.TrimOffset

/-! The requests that set the trims or the offsets of all channels, against those that set them channel by channel and AFE
by AFE. Each of the three sets the channels in one order, so that the halves that go out beside them are the same. -/

namespace DaphneZmq
open Lib Lib.Device

namespace Request

/-- The request for a channel, which has a kind of its own for trims and for offsets. -/
def writeSingleChannel (kind : Dac.Kind) (ch value : UInt32) (gain : Bool) : Request :=
  match kind with
  | .trim => writeTrimSingleChannel ch value gain
  | .offset => writeOffsetSingleChannel ch value gain

def writeAllChannels (kind : Dac.Kind) (value : UInt32) (gain : Bool) : Request :=
  match kind with
  | .trim => writeTrimAllChannels value gain
  | .offset => writeOffsetAllChannels value gain

def writeAllAFE (kind : Dac.Kind) (afe value : UInt32) (gain : Bool) : Request :=
  match kind with
  | .trim => writeTrimAllAFE afe value gain
  | .offset => writeOffsetAllAFE afe value gain

def channelByChannel (kind : Dac.Kind) (value : UInt32) (gain : Bool) : List Request :=
  (List.range 40).map fun ch => writeSingleChannel kind (UInt32.ofNat ch) value gain

def afeByAfe (kind : Dac.Kind) (value : UInt32) (gain : Bool) : List Request :=
  (List.range 5).map fun afe => writeAllAFE kind (UInt32.ofNat afe) value gain

/-- The state after a sequence of requests. -/
def steps (b : Board) (rs : List Request) (s : ServerState) : ServerState := rs.foldl (step b) s

/-- No request of the sequence waits for the SPI in vain. -/
def NoTimeout (b : Board) : List Request → ServerState → Prop
  | [], _ => True
  | r :: rs, s => ¬r.Throws b Spi.timeout s ∧ NoTimeout b rs (r.step b s)

/-- The request sets trims or offsets and names a value, a channel or an AFE that is not there. -/
def OutOfRange : Request → Prop
  | writeTrimSingleChannel ch value _ | writeOffsetSingleChannel ch value _ => value > 4095 ∨ ch > 39
  | writeTrimAllChannels value _ | writeOffsetAllChannels value _ => value > 4095
  | writeTrimAllAFE afe value _ | writeOffsetAllAFE afe value _ => value > 4095 ∨ afe > 4
  | _ => False

end Request

namespace AllChannels
open Handlers Request
variable {b : Board} {kind : Dac.Kind} {value : UInt32} {gain : Bool} {s t : ServerState}

/-! ### Requests and programs -/

/-- The program throws nothing but timeouts. -/
def OnlyTimeout (m : Prog Nat UInt32 Daphne Unit) : Prop := ∀ s, wp m (fun _ _ => True) (fun e _ => e = Spi.timeout) s

/-- The handler of the request does what the program does. -/
def Carries (b : Board) (r : Request) (m : Prog Nat UInt32 Daphne Unit) : Prop := ∀ s,
  wp m (fun _ t => ∃ a, r.prog b s = .ok a t) (fun e t => r.prog b s = .error e t) s

theorem onlyTimeout_forM {ι : Type} {f : ι → Prog Nat UInt32 Daphne Unit} : ∀ {xs : List ι},
    (∀ x ∈ xs, OnlyTimeout (f x)) → OnlyTimeout (xs.forM f)
  | [], _ => fun _ => trivial
  | x :: xs, h => fun s => by
    show wp (f x >>= fun _ => xs.forM f) _ _ s
    refine wp_bind.mpr (wp_mono (h x (List.mem_cons_self ..) s) (fun _ t _ => ?_) fun _ _ he => he)
    exact onlyTimeout_forM (fun y hy => h y (List.mem_cons_of_mem _ hy)) t

theorem Carries.step_ok {r : Request} {m : Prog Nat UInt32 Daphne Unit} (h : Carries b r m) (hm : m s = .ok () t) :
    r.step b s = t ∧ ¬r.Throws b Spi.timeout s := by
  obtain ⟨a, ha⟩ := wp_ok (h s) hm
  refine ⟨by rw [step, handle, rethrow, ha], ?_⟩
  rintro ⟨u, hu⟩
  rw [ha] at hu
  cases hu

theorem Carries.throws {r : Request} {m : Prog Nat UInt32 Daphne Unit} (h : Carries b r m) {e : String}
    (hm : m s = .error e t) : r.Throws b e s := by
  have hthrows := wp_error (h s) hm
  exact ⟨t, hthrows⟩

/-- Requests one after the other do what their programs do, and the programs return if no request times out. -/
theorem steps_iff {ι : Type} {f : ι → Request} {g : ι → Prog Nat UInt32 Daphne Unit} : ∀ {xs : List ι} {s : ServerState},
    (∀ x ∈ xs, Carries b (f x) (g x) ∧ OnlyTimeout (g x)) →
      (xs.forM g s = .ok () t ↔ NoTimeout b (xs.map f) s ∧ steps b (xs.map f) s = t)
  | [], s, _ => by
    constructor
    · rintro ⟨⟩
      exact ⟨trivial, rfl⟩
    · rintro ⟨-, rfl⟩
      rfl
  | x :: xs, s, h => by
    obtain ⟨hcarries, htimeout⟩ := h x (List.mem_cons_self ..)
    show (g x >>= fun _ => xs.forM g) s = .ok () t ↔ _
    rw [List.map_cons]
    cases hg : g x s with
    | ok a u =>
      obtain ⟨hstep, hquiet⟩ := hcarries.step_ok hg
      rw [bind_ok hg, steps_iff fun y hy => h y (List.mem_cons_of_mem _ hy)]
      simp only [NoTimeout, steps, List.foldl_cons, hstep, hquiet, not_false_eq_true, true_and]
    | error e u =>
      rw [bind_error hg]
      have htext := wp_error (htimeout s) hg
      constructor
      · intro h
        cases h
      · intro hquiet
        exact absurd (htext ▸ hcarries.throws hg) hquiet.1.1

/-! ### Channels -/

/-- A channel is set on the AFE that it belongs to. -/
def setOne (b : Board) (kind : Dac.Kind) (value : UInt32) (gain : Bool) (ch : Nat) : Prog Nat UInt32 Daphne Unit := do
  let afe ← afePL (ch / 8)
  setChannel b kind afe (ch % 8) ch value gain

theorem setOne_eq {ch afe : Nat} (hmap : Chunker.afeBoard2PLMap (ch / 8) = some afe) :
    setOne b kind value gain ch = setChannel b kind afe (ch % 8) ch value gain := by
  rw [setOne, afePL, hmap]
  rfl

theorem exists_afe {board : Nat} (h : board < 5) : ∃ afe, Chunker.afeBoard2PLMap board = some afe := by
  have hall : ∀ n < 5, (Chunker.afeBoard2PLMap n).isSome = true := by decide
  exact Option.isSome_iff_exists.mp (hall board h)

theorem board_lt {board afe : Nat} (hmap : Chunker.afeBoard2PLMap board = some afe) : board < 5 := by
  by_contra hboard
  have hnone : Chunker.afeBoard2PLMap board = none := by
    match board with
    | n + 5 => rfl
  rw [hnone] at hmap
  cases hmap

theorem onlyTimeout_setOne {ch : Nat} (hch : ch < 40) : OnlyTimeout (setOne b kind value gain ch) := by
  intro s
  obtain ⟨afe, hmap⟩ : ∃ afe, Chunker.afeBoard2PLMap (ch / 8) = some afe := exists_afe (by omega)
  rw [setOne_eq hmap]
  exact wp_mono (TrimOffset.wp_setChannel kind hch hmap value gain s) (fun _ _ _ => trivial) fun _ _ he => he

theorem toNat_small {n : Nat} (h : n < 40) : (UInt32.ofNat n).toNat = n := by
  rw [UInt32.toNat_ofNat', Nat.mod_eq_of_lt (by omega)]

/-- A handler that goes on with an answer after what the program does. -/
theorem carries_of_eq {r : Request} {m : Prog Nat UInt32 Daphne Unit} {f : Prog Nat UInt32 Daphne Response}
    (hprog : r.prog b = m >>= fun _ => f) (hf : ∀ s, ∃ a, f s = .ok a s) : Carries b r m := by
  intro s
  rw [hprog, wp]
  cases hm : m s with
  | ok _ t =>
    obtain ⟨a, ha⟩ := hf t
    exact ⟨a, by rw [bind_ok hm, ha]⟩
  | error e t => exact bind_error hm

theorem carries_single (hvalue : ¬value > 4095) {ch : Nat} (hch : ch < 40) :
    Carries b (writeSingleChannel kind (UInt32.ofNat ch) value gain) (setOne b kind value gain ch) := by
  have hchannel : ¬UInt32.ofNat ch > 39 := by
    rw [gt_iff_lt, UInt32.lt_iff_toNat_lt, toNat_small hch]
    exact Nat.not_lt.mpr (Nat.le_of_lt_succ hch)
  have hwrite (valueText channelText : String) : writeChannel b kind valueText channelText (UInt32.ofNat ch) value gain =
      setOne b kind value gain ch >>= fun _ => getChDictValue kind ch := by
    rw [writeChannel, if_neg hvalue, if_neg hchannel, toNat_small hch]
    simp only [setOne, bind_assoc]
  have hget (t : ServerState) : ∃ v, getChDictValue kind ch t = .ok v t := by
    have hchecked (key : StateKey) : ∃ v, Daphne.checkChannel ch (Daphne.getState key) t = .ok v t := by
      rw [Daphne.checkChannel, if_neg (by omega)]
      exact ⟨_, rfl⟩
    cases kind <;> exact hchecked _
  have hanswer (t : ServerState) : ∃ a, (getChDictValue kind ch >>= fun v => pure ⟨true, [v]⟩ : Prog _ _ Daphne Response) t = .ok a t := by
    obtain ⟨v, hv⟩ := hget t
    exact ⟨_, bind_ok hv⟩
  cases kind with
  | trim =>
    refine carries_of_eq ?_ hanswer
    show (writeChannel b .trim _ _ _ value gain >>= _) = _
    rw [hwrite, bind_assoc]
  | offset =>
    refine carries_of_eq ?_ hanswer
    show (writeChannel b .offset _ _ _ value gain >>= _) = _
    rw [hwrite, bind_assoc]

/-- The requests for more than one channel answer with the value that they were given. -/
theorem carries_of_forM {r : Request} {m : Prog Nat UInt32 Daphne Unit}
    (hprog : r.prog b = m >>= fun _ => pure ⟨true, [value]⟩) : Carries b r m :=
  carries_of_eq hprog fun _ => ⟨_, rfl⟩

theorem carries_allChannels (hvalue : ¬value > 4095) :
    Carries b (Request.writeAllChannels kind value gain) ((List.range 40).forM (setOne b kind value gain)) := by
  have hwrite (valueText : String) : Handlers.writeAllChannels b kind valueText value gain =
      (List.range 40).forM (setOne b kind value gain) := by
    rw [Handlers.writeAllChannels, if_neg hvalue]
    rfl
  cases kind <;> exact carries_of_forM (congrArg (· >>= fun _ => pure _) (hwrite _))

/-- The channels of an AFE. -/
def setAfe (b : Board) (kind : Dac.Kind) (value : UInt32) (gain : Bool) (afe : Nat) : Prog Nat UInt32 Daphne Unit :=
  ((List.range 8).map (afe * 8 + ·)).forM (setOne b kind value gain)

theorem carries_allAFE (hvalue : ¬value > 4095) {board : Nat} (hboard : board < 5) :
    Carries b (Request.writeAllAFE kind (UInt32.ofNat board) value gain) (setAfe b kind value gain board) := by
  have hblock : ¬UInt32.ofNat board > 4 := by
    rw [gt_iff_lt, UInt32.lt_iff_toNat_lt, toNat_small (by omega)]
    exact Nat.not_lt.mpr (Nat.le_of_lt_succ hboard)
  obtain ⟨afe, hmap⟩ := exists_afe hboard
  have hwrite (valueText : String) : Handlers.writeAllAFE b kind valueText (UInt32.ofNat board) value gain =
      setAfe b kind value gain board := by
    rw [Handlers.writeAllAFE, if_neg hvalue, if_neg hblock, toNat_small (by omega), setAfe, forM_map, afePL, hmap]
    refine forM_congr fun idx hidx => ?_
    have hlt := List.mem_range.mp hidx
    have hmap' : Chunker.afeBoard2PLMap ((board * 8 + idx) / 8) = some afe := by
      rwa [show (board * 8 + idx) / 8 = board by omega]
    rw [setOne_eq hmap', show (board * 8 + idx) % 8 = idx by omega]
  cases kind <;> exact carries_of_forM (congrArg (· >>= fun _ => pure _) (hwrite _))

/-- The AFEs in order are the channels in order. -/
theorem forM_setAfe : (List.range 5).forM (setAfe b kind value gain) = (List.range 40).forM (setOne b kind value gain) := by
  calc (List.range 5).forM (setAfe b kind value gain)
      = ((List.range 5).map fun afe => (List.range 8).map (afe * 8 + ·)).forM fun xs => xs.forM (setOne b kind value gain) :=
        (forM_map _ _ _).symm
    _ = (List.range 40).forM (setOne b kind value gain) := forM_flatten _ _

/-- If one of the three sequences goes without a timeout, they all end in the state of the loop over the channels. -/
theorem loop_of_noTimeout (hvalue : ¬value > 4095) : ∀ rs ∈ [[Request.writeAllChannels kind value gain],
    channelByChannel kind value gain, afeByAfe kind value gain], ∀ t,
    (List.range 40).forM (setOne b kind value gain) s = .ok () t ↔ NoTimeout b rs s ∧ steps b rs s = t := by
  have hloop : OnlyTimeout ((List.range 40).forM (setOne b kind value gain)) :=
    onlyTimeout_forM fun ch hch => onlyTimeout_setOne (List.mem_range.mp hch)
  simp only [List.mem_cons, List.not_mem_nil, or_false]
  rintro rs (rfl | rfl | rfl) t
  · have hone : ([()] : List Unit).forM (fun _ => (List.range 40).forM (setOne b kind value gain)) s = .ok () t ↔
        NoTimeout b [Request.writeAllChannels kind value gain] s ∧ steps b [Request.writeAllChannels kind value gain] s = t :=
      steps_iff (f := fun _ => Request.writeAllChannels kind value gain) fun _ _ => ⟨carries_allChannels hvalue, hloop⟩
    rwa [show ([()] : List Unit).forM (fun _ => (List.range 40).forM (setOne b kind value gain)) = _ from bind_pure_unit] at hone
  · exact steps_iff fun ch hch => ⟨carries_single hvalue (List.mem_range.mp hch), onlyTimeout_setOne (List.mem_range.mp hch)⟩
  · rw [← forM_setAfe]
    refine steps_iff fun afe hafe => ⟨carries_allAFE hvalue (List.mem_range.mp hafe), onlyTimeout_forM fun ch hch => ?_⟩
    obtain ⟨idx, hidx, rfl⟩ := List.mem_map.mp hch
    have hafe := List.mem_range.mp hafe
    have hidx := List.mem_range.mp hidx
    exact onlyTimeout_setOne (by omega)

/-! ### Refusals -/

/-- The request fails and changes nothing. -/
structure Refused (b : Board) (r : Request) (s : ServerState) : Prop where
  fails : r.answers b s = false
  unchanged : r.step b s = s

theorem refused_of_throw {α : Type} {r : Request} {m : Prog Nat UInt32 Daphne α} {f : α → Prog Nat UInt32 Daphne Response}
    (hprog : r.prog b = m >>= f) (hthrow : ∃ e, m = throw e) (s : ServerState) : Refused b r s := by
  obtain ⟨e, rfl⟩ := hthrow
  refine ⟨?_, ?_⟩
  · rw [answers, hprog]
    rfl
  · rw [step, handle, rethrow, hprog]
    rfl

theorem writeChannel_throws {ch : UInt32} (h : value > 4095 ∨ ch > 39) (valueText channelText : String) :
    ∃ e, writeChannel b kind valueText channelText ch value gain = throw e := by
  unfold writeChannel
  split
  · exact ⟨_, rfl⟩
  · rename_i hvalue
    exact ⟨_, if_pos (h.resolve_left hvalue)⟩

theorem writeAllChannels_throws (h : value > 4095) (valueText : String) :
    ∃ e, Handlers.writeAllChannels b kind valueText value gain = throw e := ⟨_, if_pos h⟩

theorem writeAllAFE_throws {afe : UInt32} (h : value > 4095 ∨ afe > 4) (valueText : String) :
    ∃ e, Handlers.writeAllAFE b kind valueText afe value gain = throw e := by
  unfold Handlers.writeAllAFE
  split
  · exact ⟨_, rfl⟩
  · rename_i hvalue
    exact ⟨_, if_pos (h.resolve_left hvalue)⟩

theorem refused_of_outOfRange {r : Request} (h : r.OutOfRange) (s : ServerState) : Refused b r s :=
  match r, h with
  | .writeTrimSingleChannel .., h | .writeOffsetSingleChannel .., h => refused_of_throw rfl (writeChannel_throws h _ _) s
  | .writeTrimAllChannels .., h | .writeOffsetAllChannels .., h => refused_of_throw rfl (writeAllChannels_throws h _) s
  | .writeTrimAllAFE .., h | .writeOffsetAllAFE .., h => refused_of_throw rfl (writeAllAFE_throws h _) s

theorem steps_of_outOfRange : ∀ {rs : List Request}, (∀ r ∈ rs, r.OutOfRange) → ∀ s : ServerState, steps b rs s = s
  | [], _, _ => rfl
  | r :: rs, h, s => by
    show steps b rs (r.step b s) = s
    rw [(refused_of_outOfRange (h r (List.mem_cons_self ..)) s).unchanged,
      steps_of_outOfRange fun r' hr' => h r' (List.mem_cons_of_mem _ hr')]

/-- A value that is out of range makes each of the requests refuse. -/
theorem outOfRange_of_value (kind : Dac.Kind) (gain : Bool) (hvalue : value > 4095) : ∀ rs ∈ [[Request.writeAllChannels kind value gain],
    channelByChannel kind value gain, afeByAfe kind value gain], ∀ r ∈ rs, r.OutOfRange := by
  simp only [List.mem_cons, List.not_mem_nil, or_false]
  rintro rs (rfl | rfl | rfl) r hr
  · rw [List.mem_singleton.mp hr]
    cases kind <;> exact hvalue
  · obtain ⟨ch, -, rfl⟩ := List.mem_map.mp hr
    cases kind <;> exact Or.inl hvalue
  · obtain ⟨afe, -, rfl⟩ := List.mem_map.mp hr
    cases kind <;> exact Or.inl hvalue

/-- All channels, channel by channel or AFE by AFE: if one of the three goes without a timeout, they leave the same state,
that is the words with their log, the halves that are kept for the channels and the values that the server answers with. -/
theorem allChannels_spec (b : Board) (kind : Dac.Kind) (value : UInt32) (gain : Bool) (s : ServerState) :
    (∀ rs ∈ [[Request.writeAllChannels kind value gain], channelByChannel kind value gain, afeByAfe kind value gain],
      NoTimeout b rs s →
        steps b (channelByChannel kind value gain) s = (Request.writeAllChannels kind value gain).step b s ∧
        steps b (afeByAfe kind value gain) s = (Request.writeAllChannels kind value gain).step b s) ∧
    ∀ r : Request, r.OutOfRange → Refused b r s := by
  refine ⟨fun rs hrs hquiet => ?_, fun r h => refused_of_outOfRange h s⟩
  by_cases hvalue : value > 4095
  · have hstays := fun rs hrs => steps_of_outOfRange (b := b) (outOfRange_of_value kind gain hvalue rs hrs) s
    have hall : (Request.writeAllChannels kind value gain).step b s = s :=
      hstays [Request.writeAllChannels kind value gain] (by simp)
    exact ⟨(hstays _ (by simp)).trans hall.symm, (hstays _ (by simp)).trans hall.symm⟩
  · have hloop := (loop_of_noTimeout hvalue rs hrs _).mpr ⟨hquiet, rfl⟩
    have hsame := fun rs' hrs' => ((loop_of_noTimeout hvalue rs' hrs' _).mp hloop).2
    have hall : (Request.writeAllChannels kind value gain).step b s = steps b rs s :=
      hsame [Request.writeAllChannels kind value gain] (by simp)
    exact ⟨(hsame _ (by simp)).trans hall.symm, (hsame _ (by simp)).trans hall.symm⟩

theorem allChannels_spec_idle : steps .idle (channelByChannel .trim 100 true) .fresh =
      (Request.writeAllChannels .trim 100 true).step .idle .fresh ∧
    steps .idle (afeByAfe .trim 100 true) .fresh = (Request.writeAllChannels .trim 100 true).step .idle .fresh :=
  (allChannels_spec .idle .trim 100 true .fresh).1 [Request.writeAllChannels .trim 100 true] (by simp)
    ⟨not_throws (by decide +kernel) _, trivial⟩

end AllChannels
end DaphneZmq
