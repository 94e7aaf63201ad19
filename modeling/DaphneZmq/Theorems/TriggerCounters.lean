import DaphneZmq.TriggerCounters
import DaphneZmq.Theorems.DevMemObject

/-! # What a read of the trigger counters reads

The words of the listed channels are read one after the other, seven for each. Here is where they lie, against what is
mapped, and what the two halves of a counter say of it when it moves between them. -/

namespace DaphneZmq
namespace TriggerCounters

variable {host : Host} {word : Nat → UInt32 → UInt32} {mapBase : UInt64} {base ch b : UInt32} {chs : List UInt32}
  {past : List Rd32}

/-! ### The words of a channel -/

/-- The offsets of a channel's registers, in the order in which they are read. -/
def offsets : List UInt32 := [offThr, offRecLo, offRecHi, offBsyLo, offBsyHi, offFulLo, offFulHi]

def wordsAt (mapBase : UInt64) (b : UInt32) : List Rd32 :=
  offsets.map fun o => { phys := b + o, off := (b + o).toUInt64 - mapBase }

/-- The value of two words that are read at different times. -/
def join (lo hi : UInt32) : UInt64 := (hi.toUInt64 <<< 32) ||| lo.toUInt64

/-- The snapshot of a channel whose first word is read at time `t`. -/
def snapshotAt (word : Nat → UInt32 → UInt32) (t : Nat) (ch b : UInt32) : TriggerChannelSnapshot where
  channel := ch
  threshold := word t (b + offThr) &&& mask28Bit
  recordCount := join (word (t + 1) (b + offRecLo)) (word (t + 2) (b + offRecHi))
  busyCount := join (word (t + 3) (b + offBsyLo)) (word (t + 4) (b + offBsyHi))
  fullCount := join (word (t + 5) (b + offFulLo)) (word (t + 6) (b + offFulHi))

theorem pure_apply {α : Type} (a : α) : (pure a : StateM (List Rd32) α) past = (a, past) := rfl

theorem bind_apply {α β : Type} (m : StateM (List Rd32) α) (f : α → StateM (List Rd32) β) :
    (m >>= f) past = f (m past).1 (m past).2 := rfl

theorem readChannel_eq : readChannel word mapBase ch b past = (snapshotAt word past.length ch b, past ++ wordsAt mapBase b) := by
  simp only [readChannel, rd64, rd32, bind_apply, pure_apply, List.length_append, List.length_singleton, List.append_assoc]
  rfl

def valid (chs : List UInt32) : List UInt32 := chs.filter (· < numChannels)

/-- The snapshots of channels whose first word is read at time `t`. -/
def snapshotsFrom (word : Nat → UInt32 → UInt32) (base : UInt32) : Nat → List UInt32 → List TriggerChannelSnapshot
  | _, [] => []
  | t, ch :: chs => snapshotAt word t ch (base + ch * stride) :: snapshotsFrom word base (t + 7) chs

theorem readChannels_eq (chs : List UInt32) : ∀ past, readChannels word mapBase base chs past =
    (snapshotsFrom word base past.length (valid chs),
      past ++ (valid chs).flatMap fun ch => wordsAt mapBase (base + ch * stride)) := by
  induction chs with
  | nil => exact fun past => by simp [readChannels, valid, snapshotsFrom, pure_apply]
  | cons ch chs ih =>
    intro past
    unfold readChannels
    by_cases hch : ch ≥ numChannels
    · have hvalid : valid (ch :: chs) = valid chs := List.filter_cons_of_neg (by simpa using hch)
      rw [if_pos hch, hvalid, ih]
    · have hvalid : valid (ch :: chs) = ch :: valid chs := List.filter_cons_of_pos (by simpa using hch)
      have hlength : (past ++ wordsAt mapBase (base + ch * stride)).length = past.length + 7 := List.length_append
      rw [if_neg hch, hvalid, List.flatMap_cons, ← List.append_assoc, snapshotsFrom, ← hlength]
      simp only [bind_apply, readChannel_eq, ih, pure_apply]

theorem map_channel_snapshotsFrom (chs : List UInt32) : ∀ t, (snapshotsFrom word base t chs).map (·.channel) = chs := by
  induction chs with
  | nil => exact fun _ => rfl
  | cons ch chs ih => exact fun t => congrArg (ch :: ·) (ih (t + 7))

theorem snapshotsFrom_getElem? (chs : List UInt32) : ∀ t i, (snapshotsFrom word base t chs)[i]? =
    chs[i]?.map fun ch => snapshotAt word (t + 7 * i) ch (base + ch * stride) := by
  induction chs with
  | nil => simp [snapshotsFrom]
  | cons ch chs ih =>
    intro t i
    cases i with
    | zero => rfl
    | succ i =>
      have htime : t + 7 + 7 * i = t + 7 * (i + 1) := by omega
      rw [snapshotsFrom, List.getElem?_cons_succ, List.getElem?_cons_succ, ih, htime]

theorem snapshots_eq : (readMapped host word base chs).1 = snapshotsFrom word base 0 (valid chs) := by
  rw [readMapped, readChannels_eq]
  rfl

theorem reads_eq : (readMapped host word base chs).2 =
    (valid chs).flatMap fun ch => wordsAt (mapping host base chs).phys (base + ch * stride) := by
  rw [readMapped, readChannels_eq, List.nil_append]

/-! ### The mapping -/

def Mapped (r : Region) (rd : Rd32) : Prop := rd.off.toNat + 4 ≤ r.length.toNat

theorem valid_lt (h : ch ∈ valid chs) : ch.toNat < 40 := by
  have := (List.mem_filter.mp h).2
  rw [decide_eq_true_eq, UInt32.lt_iff_toNat_lt] at this
  exact this

/-- One round of the loop for `maxch`. -/
def larger (m c : UInt32) : UInt32 := if c < numChannels && c > m then c else m

theorem le_larger (m c : UInt32) : m.toNat ≤ (larger m c).toNat := by
  unfold larger
  split
  · rename_i h
    rw [Bool.and_eq_true, decide_eq_true_eq, decide_eq_true_eq] at h
    exact Nat.le_of_lt (UInt32.lt_iff_toNat_lt.mp h.2)
  · exact Nat.le_refl _

theorem le_foldl_larger (chs : List UInt32) : ∀ m, m.toNat ≤ (chs.foldl larger m).toNat := by
  induction chs with
  | nil => exact fun _ => Nat.le_refl _
  | cons c chs ih => exact fun m => Nat.le_trans (le_larger m c) (ih (larger m c))

theorem le_foldl_larger_of_mem (chs : List UInt32) : ∀ m, ∀ ch ∈ valid chs, ch.toNat ≤ (chs.foldl larger m).toNat := by
  induction chs with
  | nil => exact fun _ _ h => absurd h List.not_mem_nil
  | cons c chs ih =>
    intro m ch h
    obtain ⟨hmem, hlt⟩ := List.mem_filter.mp h
    rcases List.mem_cons.mp hmem with rfl | hmem
    · refine Nat.le_trans ?_ (le_foldl_larger chs (larger m ch))
      unfold larger
      split
      · exact Nat.le_refl _
      · rename_i hnot
        rw [hlt, Bool.true_and, decide_eq_true_eq, UInt32.not_lt, UInt32.le_iff_toNat_le] at hnot
        exact hnot
    · exact ih _ ch (List.mem_filter.mpr ⟨hmem, hlt⟩)

theorem foldl_larger_mem (chs : List UInt32) : ∀ m, chs.foldl larger m = m ∨ chs.foldl larger m ∈ valid chs := by
  induction chs with
  | nil => exact fun _ => Or.inl rfl
  | cons c chs ih =>
    intro m
    rcases ih (larger m c) with h | h
    · rw [List.foldl_cons, h]
      unfold larger
      split
      · rename_i hc
        rw [Bool.and_eq_true] at hc
        exact Or.inr (List.mem_filter.mpr ⟨List.mem_cons_self, hc.1⟩)
      · exact Or.inl rfl
    · obtain ⟨hmem, hlt⟩ := List.mem_filter.mp h
      exact Or.inr (List.mem_filter.mpr ⟨List.mem_cons_of_mem _ hmem, hlt⟩)

theorem le_maxCh (h : ch ∈ valid chs) : ch.toNat ≤ (maxCh chs).toNat := le_foldl_larger_of_mem chs 0 ch h

theorem maxCh_eq_zero_or_mem (chs : List UInt32) : maxCh chs = 0 ∨ maxCh chs ∈ valid chs := foldl_larger_mem chs 0

theorem maxCh_lt (chs : List UInt32) : (maxCh chs).toNat < 40 := by
  rcases maxCh_eq_zero_or_mem chs with h | h
  · rw [h]
    decide
  · exact valid_lt h

/-- The end of the registers from the base address on: what has to be mapped. -/
def extent (chs : List UInt32) : Nat := 32 * (maxCh chs).toNat + 0x1C

/-- The mapping starts at most a page in front of the base address, and ends at most a page behind the registers. -/
theorem mapping_bounds (host : Host) (base : UInt32) (chs : List UInt32) :
    (mapping host base chs).phys.toNat ≤ base.toNat ∧ base.toNat < (mapping host base chs).phys.toNat + 2 ^ host.pageBits ∧
    base.toNat + extent chs ≤ (mapping host base chs).phys.toNat + (mapping host base chs).length.toNat ∧
    (mapping host base chs).phys.toNat + (mapping host base chs).length.toNat < base.toNat + extent chs + 2 ^ host.pageBits := by
  have hpage : (2 : Nat) ^ host.pageBits ≤ 2 ^ 63 := Nat.pow_le_pow_right (by decide) (by have := host.lt; omega)
  have hpos : 0 < 2 ^ host.pageBits := Nat.two_pow_pos _
  have hbase := base.toNat_lt
  have hmax := maxCh_lt chs
  have hphys : (mapping host base chs).phys.toNat = base.toNat / 2 ^ host.pageBits * 2 ^ host.pageBits := by
    have h := DevMemObject.toNat_pageOf host base.toUInt64
    rwa [UInt32.toNat_toUInt64] at h
  have hle := Nat.div_mul_le_self base.toNat (2 ^ host.pageBits)
  have hlt := Nat.lt_div_mul_add (a := base.toNat) hpos
  have hspan : (maxCh chs * stride + offFulHi + 4).toNat = extent chs := by
    have hstride : stride.toNat = 32 := rfl
    have hfulHi : offFulHi.toNat = 0x18 := rfl
    have hfour : (4 : UInt32).toNat = 4 := rfl
    rw [UInt32.toNat_add, UInt32.toNat_add, UInt32.toNat_mul, hstride, hfulHi, hfour, extent]
    omega
  have hoff : (base.toUInt64 - (mapping host base chs).phys).toNat = base.toNat - (mapping host base chs).phys.toNat := by
    rw [UInt64.toNat_sub_of_le, UInt32.toNat_toUInt64]
    rw [UInt64.le_iff_toNat_le, UInt32.toNat_toUInt64, hphys]
    exact hle
  have htail : (base.toUInt64 - (mapping host base chs).phys + (maxCh chs * stride + offFulHi + 4).toUInt64 +
      (host.pageSize - 1)).toNat = base.toNat - (mapping host base chs).phys.toNat + extent chs + (2 ^ host.pageBits - 1) := by
    rw [UInt64.toNat_add, UInt64.toNat_add, hoff, UInt32.toNat_toUInt64, hspan, DevMemObject.toNat_pageSize_sub_one, extent]
    omega
  have hlength : (mapping host base chs).length.toNat = (base.toNat - (mapping host base chs).phys.toNat + extent chs +
      (2 ^ host.pageBits - 1)) / 2 ^ host.pageBits * 2 ^ host.pageBits := by
    rw [← htail]
    exact DevMemObject.toNat_pageOf host _
  have hle' := Nat.div_mul_le_self (base.toNat - (mapping host base chs).phys.toNat + extent chs + (2 ^ host.pageBits - 1))
    (2 ^ host.pageBits)
  have hlt' := Nat.lt_div_mul_add (a := base.toNat - (mapping host base chs).phys.toNat + extent chs + (2 ^ host.pageBits - 1)) hpos
  rw [← hlength] at hle' hlt'
  rw [← hphys] at hle hlt
  refine ⟨hle, hlt, ?_, ?_⟩ <;> omega

/-- The last register of the channel is still below 2^32. -/
def NoWrap (base ch : UInt32) : Prop := base.toNat + 32 * ch.toNat + 0x18 < 2 ^ 32

theorem offset_le {o : UInt32} (h : o ∈ offsets) : o.toNat ≤ 0x18 := by
  have hall : offsets.all (fun o => decide (o.toNat ≤ 0x18)) = true := rfl
  exact of_decide_eq_true (List.all_eq_true.mp hall o h)

theorem toNat_phys (base ch o : UInt32) : (base + ch * stride + o).toNat =
    (base.toNat + 32 * ch.toNat + o.toNat) % 2 ^ 32 := by
  have hstride : stride.toNat = 32 := rfl
  rw [UInt32.toNat_add, UInt32.toNat_add, UInt32.toNat_mul, hstride]
  omega

theorem toNat_off_of_le {phys : UInt32} {r : Region} (h : r.phys.toNat ≤ phys.toNat) :
    (phys.toUInt64 - r.phys).toNat = phys.toNat - r.phys.toNat := by
  rw [UInt64.toNat_sub_of_le, UInt32.toNat_toUInt64]
  rwa [UInt64.le_iff_toNat_le, UInt32.toNat_toUInt64]

theorem mapped_of_le {phys : UInt32} {r : Region} (hle : r.phys.toNat ≤ phys.toNat)
    (hend : phys.toNat + 4 ≤ r.phys.toNat + r.length.toNat) : Mapped r { phys, off := phys.toUInt64 - r.phys } := by
  show (phys.toUInt64 - r.phys).toNat + 4 ≤ r.length.toNat
  rw [toNat_off_of_le hle]
  omega

theorem not_mapped_of_lt {phys : UInt32} {r : Region} (h : phys.toNat < r.phys.toNat) (hphys : r.phys.toNat < 2 ^ 32)
    (hlength : r.length.toNat < 2 ^ 34) : ¬Mapped r { phys, off := phys.toUInt64 - r.phys } := by
  show ¬(phys.toUInt64 - r.phys).toNat + 4 ≤ r.length.toNat
  have := phys.toNat_lt
  rw [UInt64.toNat_sub, UInt32.toNat_toUInt64]
  omega

theorem mapped_of_noWrap (hch : ch ∈ valid chs) (hwrap : NoWrap base ch) :
    ∀ rd ∈ wordsAt (mapping host base chs).phys (base + ch * stride), Mapped (mapping host base chs) rd := by
  intro rd hrd
  obtain ⟨o, ho, rfl⟩ := List.mem_map.mp hrd
  obtain ⟨hphys, -, hend, -⟩ := mapping_bounds host base chs
  have hle := le_maxCh hch
  have ho := offset_le ho
  have hat : (base + ch * stride + o).toNat = base.toNat + 32 * ch.toNat + o.toNat := by
    rw [toNat_phys]
    have := valid_lt hch
    unfold NoWrap at hwrap
    omega
  unfold extent at hend
  refine mapped_of_le ?_ ?_ <;> omega

theorem mapped_of_largePage (hpage : 32 ≤ host.pageBits) (hch : ch ∈ valid chs) (hwrap : ¬NoWrap base ch) :
    ∀ rd ∈ (readMapped host word base chs).2, Mapped (mapping host base chs) rd := by
  intro rd hrd
  rw [reads_eq] at hrd
  obtain ⟨ch', -, hrd⟩ := List.mem_flatMap.mp hrd
  obtain ⟨o, -, rfl⟩ := List.mem_map.mp hrd
  obtain ⟨hphys, -, hend, -⟩ := mapping_bounds host base chs
  have hzero : (mapping host base chs).phys.toNat = 0 := by
    have h := DevMemObject.toNat_pageOf host base.toUInt64
    have hlt : base.toNat < 2 ^ host.pageBits := Nat.lt_of_lt_of_le base.toNat_lt (Nat.pow_le_pow_right (by decide) hpage)
    rw [UInt32.toNat_toUInt64, Nat.div_eq_of_lt hlt, Nat.zero_mul] at h
    exact h
  have hle := le_maxCh hch
  have := (base + ch' * stride + o).toNat_lt
  unfold extent at hend
  unfold NoWrap at hwrap
  refine mapped_of_le ?_ ?_ <;> omega

theorem not_mapped_of_wrap (hpage : host.pageBits < 32) (hch : ch ∈ valid chs) (hwrap : ¬NoWrap base ch) :
    ∃ rd ∈ wordsAt (mapping host base chs).phys (base + ch * stride), ¬Mapped (mapping host base chs) rd := by
  have hpow : (2 : Nat) ^ host.pageBits ≤ 2 ^ 31 := Nat.pow_le_pow_right (by decide) (by omega)
  obtain ⟨hphys, hbase, -, hend⟩ := mapping_bounds host base chs
  have hmax := maxCh_lt chs
  have hlt := valid_lt hch
  have hbase32 := base.toNat_lt
  have hfulHi : offFulHi.toNat = 0x18 := rfl
  have hat : (base + ch * stride + offFulHi).toNat = (base.toNat + 32 * ch.toNat + 0x18) % 2 ^ 32 := toNat_phys base ch offFulHi
  unfold extent at hend
  unfold NoWrap at hwrap
  refine ⟨_, List.mem_map.mpr ⟨offFulHi, by decide, rfl⟩, not_mapped_of_lt ?_ ?_ ?_⟩ <;> omega

/-! ### The request -/

/-- The words that are read are mapped, and there is one snapshot for each listed channel below 40, in order. -/
structure ReadsListed (host : Host) (word : Nat → UInt32 → UInt32) (req : ReadTriggerCountersRequest) : Prop where
  mapped : ∀ rd ∈ (readMapped host word req.base req.chs).2, Mapped (mapping host req.base req.chs) rd
  snapshots : (readTriggerCounters host true true word (some req)).snapshots.map (·.channel) = req.chs.filter (· < numChannels)

theorem mem_valid : ch ∈ valid chs ↔ ch ∈ chs ∧ ch < numChannels := by simp [valid]

/-- All the words that are read are mapped exactly when no listed channel has registers at or beyond 2^32 (or pages have 4 GiB). -/
theorem all_mapped_iff : (∀ rd ∈ (readMapped host word base chs).2, Mapped (mapping host base chs) rd) ↔
    32 ≤ host.pageBits ∨ ∀ ch ∈ chs, ch < numChannels → NoWrap base ch := by
  constructor
  · intro hmapped
    by_contra hno
    rw [not_or, Nat.not_le] at hno
    obtain ⟨hpage, hno⟩ := hno
    push Not at hno
    obtain ⟨ch, hch, hlt, hwrap⟩ := hno
    obtain ⟨rd, hrd, hnot⟩ := not_mapped_of_wrap hpage (mem_valid.mpr ⟨hch, hlt⟩) hwrap
    refine hnot (hmapped rd ?_)
    rw [reads_eq]
    exact List.mem_flatMap.mpr ⟨ch, mem_valid.mpr ⟨hch, hlt⟩, hrd⟩
  · intro h
    by_cases hall : ∀ ch ∈ chs, ch < numChannels → NoWrap base ch
    · intro rd hrd
      rw [reads_eq] at hrd
      obtain ⟨ch, hch, hrd⟩ := List.mem_flatMap.mp hrd
      exact mapped_of_noWrap hch (hall ch (mem_valid.mp hch).1 (mem_valid.mp hch).2) rd hrd
    · have hpage := h.resolve_right hall
      push Not at hall
      obtain ⟨ch, hch, hlt, hwrap⟩ := hall
      exact mapped_of_largePage hpage (mem_valid.mpr ⟨hch, hlt⟩) hwrap

/-- A request reads what it lists, inside the mapping, exactly when no listed channel has registers at or beyond 2^32 (or pages
have 4 GiB). -/
theorem readsListed_iff (host : Host) (word : Nat → UInt32 → UInt32) (req : ReadTriggerCountersRequest) :
    ReadsListed host word req ↔ 32 ≤ host.pageBits ∨ ∀ ch ∈ req.chs, ch < numChannels → NoWrap req.base ch := by
  refine ⟨fun h => all_mapped_iff.mp h.mapped, fun h => ⟨all_mapped_iff.mpr h, ?_⟩⟩
  show (readMapped host word req.base req.chs).1.map (·.channel) = valid req.chs
  rw [snapshots_eq, map_channel_snapshotsFrom]

/-- Channel 0, 16 bytes below 2^32: the last three of its words wrap and lie in front of the mapping. -/
theorem topAddress_not_readsListed : ¬∀ (word : Nat → UInt32 → UInt32) (req : ReadTriggerCountersRequest),
    ReadsListed DevMemObject.smallPages word req := by
  intro h
  have hreads := h (fun _ _ => 0) { channels := [0], baseAddr := 0xFFFFFFF0 }
  rcases all_mapped_iff.mp hreads.mapped with hpage | hwrap
  · exact absurd hpage (by decide)
  · exact absurd (hwrap 0 List.mem_cons_self (by decide)) (by unfold NoWrap; decide)

/-! ### A counter that moves -/

/-- A 64-bit counter, by what it has counted when the `n`-th word is read, its starting value included. -/
structure History where
  total : Nat → Nat
  mono : ∀ t, total t ≤ total (t + 1)

structure Exposes (word : Nat → UInt32 → UInt32) (lo hi : UInt32) (counter : History) : Prop where
  lo : ∀ t, (word t lo).toNat = counter.total t % 2 ^ 32
  hi : ∀ t, (word t hi).toNat = counter.total t / 2 ^ 32 % 2 ^ 32

/-- The counter has the value at some moment from time `t` to the next. -/
def Between (counter : History) (t : Nat) (value : UInt64) : Prop :=
  ∃ k, counter.total t ≤ k ∧ k ≤ counter.total (t + 1) ∧ value.toNat = k % 2 ^ 64

/-- From time `t` to the next the low word comes to no less than it was, or it has gone on until the high word is back. -/
def NoCarry (counter : History) (t : Nat) : Prop :=
  counter.total t % 2 ^ 32 + (counter.total (t + 1) - counter.total t) % 2 ^ 32 < 2 ^ 32 ∨
    2 ^ 64 ≤ counter.total t % 2 ^ 32 + (counter.total (t + 1) - counter.total t)

theorem toNat_join (lo hi : UInt32) : (join lo hi).toNat = 2 ^ 32 * hi.toNat + lo.toNat := by
  have hlo := lo.toNat_lt
  have hhi := hi.toNat_lt
  have hshift : (32 : UInt64).toNat % 64 = 32 := rfl
  rw [join, UInt64.toNat_or, UInt64.toNat_shiftLeft, hshift, UInt32.toNat_toUInt64, UInt32.toNat_toUInt64, Nat.shiftLeft_eq,
    Nat.mod_eq_of_lt (by omega), Nat.mul_comm, Nat.two_pow_add_eq_or_of_lt hlo]

/-- The value put together from the low word of `a` and the high word of `b`, from `a` to `b` counted up. -/
theorem between_iff {a b : Nat} (h : a ≤ b) :
    (∃ k, a ≤ k ∧ k ≤ b ∧ 2 ^ 32 * (b / 2 ^ 32 % 2 ^ 32) + a % 2 ^ 32 = k % 2 ^ 64) ↔
      a % 2 ^ 32 + (b - a) % 2 ^ 32 < 2 ^ 32 ∨ 2 ^ 64 ≤ a % 2 ^ 32 + (b - a) := by
  constructor
  · rintro ⟨k, hak, hkb, hk⟩
    omega
  · rintro (hlow | hround)
    · exact ⟨2 ^ 32 * (b / 2 ^ 32) + a % 2 ^ 32, by omega, by omega, by omega⟩
    · exact ⟨a + (2 ^ 32 * (b / 2 ^ 32 % 2 ^ 32) + a % 2 ^ 32 + 2 ^ 64 - a % 2 ^ 64) % 2 ^ 64, by omega, by omega, by omega⟩

inductive Counter
  | record | busy | full

namespace Counter

def lo : Counter → UInt32
  | record => offRecLo
  | busy => offBsyLo
  | full => offFulLo

def hi : Counter → UInt32
  | record => offRecHi
  | busy => offBsyHi
  | full => offFulHi

/-- How many words of the channel are read before the counter. -/
def position : Counter → Nat
  | record => 1
  | busy => 3
  | full => 5

def of (s : TriggerChannelSnapshot) : Counter → UInt64
  | record => s.recordCount
  | busy => s.busyCount
  | full => s.fullCount

theorem of_snapshotAt (kind : Counter) (t : Nat) : kind.of (snapshotAt word t ch b) =
    join (word (t + kind.position) (b + kind.lo)) (word (t + kind.position + 1) (b + kind.hi)) := by
  cases kind <;> rfl

end Counter

/-- However a counter of the `i`-th channel moves, what the snapshot says of it is a value that it had between the reads of its two
words exactly when its low word did not carry between them. -/
theorem reported_between_iff (host : Host) (word : Nat → UInt32 → UInt32) (base : UInt32) (chs : List UInt32) (kind : Counter)
    (counter : History) (i : Nat) (ch : UInt32) (hch : (chs.filter (· < numChannels))[i]? = some ch)
    (hword : Exposes word (base + ch * stride + kind.lo) (base + ch * stride + kind.hi) counter) :
    ∃ s, (readMapped host word base chs).1[i]? = some s ∧ s.channel = ch ∧
      (Between counter (7 * i + kind.position) (kind.of s) ↔ NoCarry counter (7 * i + kind.position)) := by
  refine ⟨snapshotAt word (0 + 7 * i) ch (base + ch * stride), ?_, rfl, ?_⟩
  · have hvalid : (valid chs)[i]? = some ch := hch
    rw [snapshots_eq, snapshotsFrom_getElem?, hvalid, Option.map_some]
  · unfold Between NoCarry
    rw [Nat.zero_add, Counter.of_snapshotAt, toNat_join, hword.lo, hword.hi]
    exact between_iff (counter.mono _)

def carryCounter : History where
  total t := if t ≤ 1 then 2 ^ 32 - 1 else 2 ^ 32
  mono t := by
    split
    · split <;> decide
    · rw [if_neg (by omega)]

/-- The registers of channel 0 with that counter. -/
def carryWord (t : Nat) (phys : UInt32) : UInt32 :=
  if phys = physBase + offRecLo then .ofNat (carryCounter.total t % 2 ^ 32)
  else if phys = physBase + offRecHi then .ofNat (carryCounter.total t / 2 ^ 32 % 2 ^ 32)
  else 0

theorem carryWord_exposes : Exposes carryWord (physBase + 0 * stride + offRecLo) (physBase + 0 * stride + offRecHi) carryCounter where
  lo t := by
    rw [carryWord, if_pos (by decide), UInt32.toNat_ofNat', Nat.mod_mod]
  hi t := by
    rw [carryWord, if_neg (by decide), if_pos (by decide), UInt32.toNat_ofNat', Nat.mod_mod]

/-- Between the two reads there is a carry, and what is reported is neither value of the counter. -/
theorem carry_not_between : ¬∀ (word : Nat → UInt32 → UInt32) (counter : History),
    Exposes word (physBase + 0 * stride + offRecLo) (physBase + 0 * stride + offRecHi) counter →
      ∀ s, (readMapped DevMemObject.smallPages word physBase [0]).1[0]? = some s → Between counter 1 s.recordCount := by
  intro h
  obtain ⟨k, hle, hge, hvalue⟩ := h carryWord carryCounter carryWord_exposes _ rfl
  have hreported : (0x1FFFFFFFF : UInt64).toNat = k % 2 ^ 64 := hvalue
  have hbefore : 2 ^ 32 - 1 ≤ k := hle
  have hafter : k ≤ 2 ^ 32 := hge
  have hvalue : (0x1FFFFFFFF : UInt64).toNat = 0x1FFFFFFFF := rfl
  omega

theorem carry_reported : ∃ s, (readMapped DevMemObject.smallPages carryWord physBase [0]).1[0]? = some s ∧ s.channel = 0 ∧
    (Between carryCounter 1 s.recordCount ↔ NoCarry carryCounter 1) :=
  reported_between_iff DevMemObject.smallPages carryWord physBase [0] .record carryCounter 0 0 rfl carryWord_exposes

end TriggerCounters
end DaphneZmq
