import DaphneZmq.DevMemObject
import Mathlib.Data.Nat.Bitwise

/-! # Accesses stay in the mapped region

`validateOffset` compares the end of an access with `length_`, in 64 bits and from the start of the request, while the words
are counted from the start of the mapping. Here is what that leaves: for every access, the exact condition under which
no word outside the region is touched. -/

namespace DaphneZmq
namespace DevMemObject

variable {host : Host} {o : DevMemObject} {past : List Touch} {start numWords : UInt64}

/-! ### What the calls keep -/

/-- The fields describe the region that `mem_` points to. -/
structure Describes (o : DevMemObject) : Prop where
  phys : ∀ r ∈ o.mem, r.phys = o.baseAddr
  length : ∀ r ∈ o.mem, r.length = o.length
  unmapped : o.mem = none → o.length = 0

theorem Describes.of_none (hmem : o.mem = none) (hlength : o.length = 0) : Describes o where
  phys r hr := by rw [hmem] at hr; cases hr
  length r hr := by rw [hmem] at hr; cases hr
  unmapped _ := hlength

def unmapped (o : DevMemObject) : DevMemObject := if o.mem.isSome then { o with mem := none, length := 0 } else o

theorem unmapped_eq (h : Describes o) : unmapped o = { o with mem := none, length := 0 } := by
  unfold unmapped
  cases hmem : o.mem with
  | some r => rfl
  | none =>
    have hlength := h.unmapped hmem
    obtain ⟨baseAddr, offset, length, mem⟩ := o
    subst hmem hlength
    rfl

theorem after_mapMemory (fails : Option String) (length : UInt64) : (Call.mapMemory fails length).after host o =
    if length = 0 then o
    else match fails with
      | some _ => unmapped o
      | none => { unmapped o with
          mem := some ⟨(unmapped o).baseAddr, alignToPage host (length + (unmapped o).offset)⟩
          length := alignToPage host (length + (unmapped o).offset) } := by
  unfold Call.after Call.run mapMemory
  by_cases hlength : length = 0
  · subst hlength
    rfl
  · simp only [if_neg hlength]
    cases fails <;> rfl

theorem after_changeBaseAddr (fails : Option String) (baseAddr length : UInt64) :
    (Call.changeBaseAddr fails baseAddr length).after host o =
      if length = 0 then o
      else (Call.mapMemory fails length).after host
        { unmapped o with baseAddr := pageOf host baseAddr, offset := baseAddr - pageOf host baseAddr } := by
  unfold Call.after Call.run changeBaseAddr
  by_cases hlength : length = 0
  · subst hlength
    rfl
  · simp only [if_neg hlength]
    rfl

theorem describes_mapMemory (h : Describes o) (fails : Option String) (length : UInt64) :
    Describes ((Call.mapMemory fails length).after host o) := by
  rw [after_mapMemory, unmapped_eq h]
  split
  · exact h
  · cases fails with
    | some error => exact .of_none rfl rfl
    | none => exact ⟨fun r hr => by rw [← Option.mem_some.mp hr], fun r hr => by rw [← Option.mem_some.mp hr], nofun⟩

theorem describes_after (h : Describes o) (call : Call) : Describes (call.after host o) := by
  cases call with
  | mapMemory fails length => exact describes_mapMemory h fails length
  | changeBaseAddr fails baseAddr length =>
    rw [after_changeBaseAddr, unmapped_eq h]
    split
    · exact h
    · exact describes_mapMemory (.of_none rfl rfl) fails length

/-- After any calls, also failed ones, the fields describe what is mapped. -/
theorem describes_afterCalls (host : Host) (baseAddr : UInt64) (calls : List Call) : Describes (after host baseAddr calls) := by
  have hcalls (calls : List Call) : ∀ o, Describes o → Describes (calls.foldl (Call.after host) o) := by
    induction calls with
    | nil => exact fun _ h => h
    | cons call calls ih => exact fun _ h => ih _ (describes_after h call)
  exact hcalls calls _ (.of_none rfl rfl)

/-! ### Pages -/

theorem toNat_pageSize (host : Host) : host.pageSize.toNat = 2 ^ host.pageBits := by
  rw [Host.pageSize, UInt64.toNat_ofNat', Nat.mod_eq_of_lt (Nat.pow_lt_pow_right (by decide) host.lt)]

theorem toNat_pageSize_sub_one (host : Host) : (host.pageSize - 1).toNat = 2 ^ host.pageBits - 1 := by
  have hone : 1 ≤ host.pageSize := by
    rw [UInt64.le_iff_toNat_le, toNat_pageSize]
    exact Nat.one_le_two_pow
  rw [UInt64.toNat_sub_of_le _ _ hone, toNat_pageSize]
  rfl

theorem toNat_pageOf (host : Host) (baseAddr : UInt64) :
    (pageOf host baseAddr).toNat = baseAddr.toNat / 2 ^ host.pageBits * 2 ^ host.pageBits := by
  have hbit (i : Nat) : (~~~(host.pageSize - 1)).toNat.testBit i = (decide (i < 64) && !decide (i < host.pageBits)) := by
    rw [← UInt64.toNat_toBitVec, UInt64.toBitVec_not, BitVec.testBit_toNat, BitVec.getLsbD_not, ← BitVec.testBit_toNat,
      UInt64.toNat_toBitVec, toNat_pageSize_sub_one, Nat.testBit_two_pow_sub_one]
  refine Nat.eq_of_testBit_eq fun i => ?_
  rw [pageOf, UInt64.toNat_and, Nat.testBit_and, hbit, ← Nat.shiftRight_eq_div_pow, ← Nat.shiftLeft_eq, Nat.testBit_shiftLeft,
    Nat.testBit_shiftRight]
  by_cases hi : host.pageBits ≤ i
  · rw [Nat.add_sub_cancel' hi]
    by_cases h64 : i < 64
    · simp [hi, h64, Nat.not_lt.mpr hi]
    · have : baseAddr.toNat.testBit i = false := by
        refine Nat.testBit_lt_two_pow (Nat.lt_of_lt_of_le baseAddr.toNat_lt (Nat.pow_le_pow_right (by decide) (by omega)))
      simp [this]
  · simp [hi, Nat.lt_of_not_le hi]

theorem toNat_create_offset (host : Host) (baseAddr : UInt64) :
    (create host baseAddr).offset.toNat = baseAddr.toNat % 2 ^ host.pageBits := by
  have hle : pageOf host baseAddr ≤ baseAddr := by
    rw [UInt64.le_iff_toNat_le, toNat_pageOf]
    exact Nat.div_mul_le_self _ _
  have hdiv := Nat.div_add_mod' baseAddr.toNat (2 ^ host.pageBits)
  rw [create, UInt64.toNat_sub_of_le _ _ hle, toNat_pageOf]
  omega
/-- Mapping keeps the offset of the request in its page. -/
theorem offset_mapMemory (fails : Option String) (length : UInt64) :
    ((Call.mapMemory fails length).after host o).offset = o.offset := by
  have hunmapped : (unmapped o).offset = o.offset := by
    unfold unmapped
    split <;> rfl
  rw [after_mapMemory]
  split
  · rfl
  · cases fails <;> exact hunmapped

/-! ### What the accesses touch -/

structure Passes (o : DevMemObject) (offset numWords : UInt64) : Prop where
  mapped : o.mem ≠ none
  aligned : offset % 4 = 0
  fits : offset + numWords * 4 ≤ o.length

theorem validateOffset_ok (h : Passes o start numWords) : o.validateOffset start numWords past = .ok () past := by
  unfold validateOffset requireMapped
  rw [if_neg h.mapped, if_neg (not_not_intro h.aligned), if_neg (UInt64.not_lt.mpr h.fits)]
  rfl

theorem validateOffset_error (h : ¬Passes o start numWords) : ∃ e, o.validateOffset start numWords past = .error e past := by
  unfold validateOffset requireMapped
  by_cases hmapped : o.mem = none
  · exact ⟨_, by rw [if_pos hmapped]; rfl⟩
  by_cases haligned : start % 4 ≠ 0
  · exact ⟨_, by rw [if_neg hmapped, if_pos haligned]; rfl⟩
  by_cases hfits : start + numWords * 4 > o.length
  · exact ⟨_, by rw [if_neg hmapped, if_neg haligned, if_pos hfits]; rfl⟩
  exact absurd ⟨hmapped, not_not.mp haligned, UInt64.not_lt.mp hfits⟩ h

/-- The checked accesses of an object. -/
inductive Access
  | read (offset numWords : UInt64)
  | readU32 (offset : UInt64)
  | write (offset : UInt64) (data : Words)
  | writeU32 (offset : UInt64) (value : UInt32)

namespace Access

def run (host : Host) (o : DevMemObject) : Access → EStateM String (List Touch) Unit
  | .read offset numWords => do let _ ← o.read host offset numWords
  | .readU32 offset => do let _ ← o.readU32 host offset
  | .write offset data => o.write offset data
  | .writeU32 offset value => o.writeU32 offset value

def offset : Access → UInt64
  | .read offset _ | .readU32 offset | .write offset _ | .writeU32 offset _ => offset

def count : Access → Nat
  | .read _ numWords => numWords.toNat
  | .write _ data => data.val.length
  | .readU32 _ | .writeU32 _ _ => 1

/-- The access gets to its words: the check passes and the vector for them, if there is one, can be made. -/
structure Admitted (host : Host) (o : DevMemObject) (a : Access) : Prop where
  passes : Passes o a.offset (.ofNat a.count)
  vector : ∀ offset numWords, a = .read offset numWords → host.vector numWords = none

end Access

theorem mapM_appends {α β : Type} {f : α → EStateM String (List Touch) β} (touch : α → Touch)
    (hf : ∀ a past, ∃ b, f a past = .ok b (past ++ [touch a])) (as : List α) :
    ∀ past, ∃ bs, as.mapM f past = .ok bs (past ++ as.map touch) := by
  induction as with
  | nil => exact fun past => ⟨[], by simp [pure, EStateM.pure]⟩
  | cons a as ih =>
    intro past
    obtain ⟨b, hb⟩ := hf a past
    obtain ⟨bs, hbs⟩ := ih (past ++ [touch a])
    refine ⟨b :: bs, ?_⟩
    simp only [List.mapM_cons, bind, EStateM.bind, hb, hbs, pure, EStateM.pure]
    simp

theorem forM_appends {α : Type} {f : α → EStateM String (List Touch) PUnit} (touch : α → Touch)
    (hf : ∀ a past, f a past = .ok () (past ++ [touch a])) (as : List α) :
    ∀ past, forM as f past = .ok () (past ++ as.map touch) := by
  induction as with
  | nil => exact fun past => by simp [pure, EStateM.pure]
  | cons a as ih =>
    intro past
    simp only [List.forM_cons, bind, EStateM.bind, hf, ih]
    simp

/-- The words that the access touches when it is admitted, by their index from `mem_`. -/
def Access.words (o : DevMemObject) (a : Access) : List Nat := (List.range a.count).map (o.wordIndex a.offset + ·)

/-- What is left of the access after the check. -/
def Access.body (host : Host) (o : DevMemObject) : Access → EStateM String (List Touch) Unit
  | .read offset numWords => do
    newVector host numWords
    let _ ← (List.range numWords.toNat).mapM fun i => o.loadWord host (o.wordIndex offset + i)
  | .readU32 offset => do let _ ← o.loadWord host (o.wordIndex offset)
  | .write offset data => forM data.val.zipIdx fun (value, i) => o.storeWord (o.wordIndex offset + i) value
  | .writeU32 offset value => o.storeWord (o.wordIndex offset) value

theorem Access.run_eq (a : Access) : a.run host o past =
    match o.validateOffset a.offset (.ofNat a.count) past with
    | .ok _ t => a.body host o t
    | .error e t => .error e t := by
  cases a with
  | read offset numWords =>
    have hcount : UInt64.ofNat numWords.toNat = numWords := UInt64.ofNat_toNat
    simp only [run, DevMemObject.read, body, Access.offset, count, hcount, bind, EStateM.bind]
    cases o.validateOffset offset numWords past with
    | error e t => rfl
    | ok _ t => cases hvector : newVector host numWords t <;> simp only [hvector]
  | readU32 offset =>
    have hcount : UInt64.ofNat 1 = 1 := rfl
    simp only [run, DevMemObject.readU32, body, Access.offset, count, hcount, bind, EStateM.bind]
    cases o.validateOffset offset 1 past <;> rfl
  | write offset data =>
    simp only [run, DevMemObject.write, body, Access.offset, count, bind, EStateM.bind]
    cases o.validateOffset offset (.ofNat data.val.length) past <;> rfl
  | writeU32 offset value =>
    have hcount : UInt64.ofNat 1 = 1 := rfl
    simp only [run, DevMemObject.writeU32, body, Access.offset, count, hcount, bind, EStateM.bind]
    cases o.validateOffset offset 1 past <;> rfl

theorem Access.run_error {a : Access} (h : ¬a.Admitted host o) (past : List Touch) : ∃ e, a.run host o past = .error e past := by
  by_cases hpasses : Passes o a.offset (.ofNat a.count)
  · cases a with
    | read offset numWords =>
      cases hvector : host.vector numWords with
      | none =>
        refine absurd ⟨hpasses, fun _ _ heq => ?_⟩ h
        cases heq
        exact hvector
      | some error =>
        refine ⟨error, ?_⟩
        rw [run_eq, validateOffset_ok hpasses]
        simp only [body, newVector, hvector]
        rfl
    | readU32 offset => exact absurd ⟨hpasses, nofun⟩ h
    | write offset data => exact absurd ⟨hpasses, nofun⟩ h
    | writeU32 offset value => exact absurd ⟨hpasses, nofun⟩ h
  · have hrefused : ∃ e, o.validateOffset a.offset (.ofNat a.count) past = .error e past := validateOffset_error hpasses
    obtain ⟨e, he⟩ := hrefused
    exact ⟨e, by rw [run_eq, he]⟩

theorem Access.run_ok {a : Access} (h : a.Admitted host o) (past : List Touch) :
    ∃ new, a.run host o past = .ok () (past ++ new) ∧ (new.map fun t => (t.mem, t.index)) = (a.words o).map (o.mem, ·) := by
  rw [run_eq, validateOffset_ok h.passes]
  cases a with
  | read offset numWords =>
    obtain ⟨words, hwords⟩ := mapM_appends (f := fun i => o.loadWord host (o.wordIndex offset + i))
      (fun i => { mem := o.mem, index := o.wordIndex offset + i }) (fun i past => ⟨_, rfl⟩)
      (List.range numWords.toNat) past
    have hbody : body host o (.read offset numWords) past = .ok () (past ++
        (List.range numWords.toNat).map fun i => { mem := o.mem, index := o.wordIndex offset + i }) := by
      simp only [body, newVector, h.vector offset numWords rfl, bind, EStateM.bind, pure, EStateM.pure]
      rw [hwords]
    exact ⟨_, hbody, by simp [Access.words, count, Access.offset]⟩
  | readU32 offset => exact ⟨[{ mem := o.mem, index := o.wordIndex offset }], rfl, rfl⟩
  | write offset data =>
    have hstores := forM_appends (f := fun (value, i) => o.storeWord (o.wordIndex offset + i) value)
      (fun (value, i) => { mem := o.mem, index := o.wordIndex offset + i, stored := some value })
      (fun _ _ => rfl) data.val.zipIdx past
    have hsnd : data.val.zipIdx.map Prod.snd = List.range data.val.length := by
      rw [List.zipIdx_map_snd, List.range_eq_range']
    refine ⟨_, hstores, ?_⟩
    rw [Access.words, count, ← hsnd, List.map_map, List.map_map, List.map_map]
    rfl
  | writeU32 offset value => exact ⟨[{ mem := o.mem, index := o.wordIndex offset, stored := some value }], rfl, rfl⟩

/-! ### Inside the region -/

/-- The word with this index from `mem` lies in the region that is mapped. -/
def Inside (o : DevMemObject) (mem : Option Region) (index : Nat) : Prop :=
  ∃ r, o.mem = some r ∧ mem = some r ∧ 4 * index + 4 ≤ r.length.toNat

/-- The access touches nothing outside the region that is mapped, and is refused if none is. -/
structure Contained (host : Host) (o : DevMemObject) (a : Access) : Prop where
  inside : ∀ past t, (a.run host o past = .ok () t ∨ ∃ e, a.run host o past = .error e t) →
    ∃ new, t = past ++ new ∧ ∀ touch ∈ new, o.Inside touch.mem touch.index
  refused : o.mem = none → ∀ past, ∃ e, a.run host o past = .error e past

/-- The access is not admitted, or has no words, or ends within `length_` when it is counted from the start of the mapping. -/
def Fits (host : Host) (o : DevMemObject) (a : Access) : Prop :=
  ¬a.Admitted host o ∨ a.count = 0 ∨ (o.offset + a.offset).toNat / 4 * 4 + 4 * a.count ≤ o.length.toNat

theorem inside_words_iff (h : Describes o) {a : Access} (hadmitted : a.Admitted host o) :
    (∀ index ∈ a.words o, o.Inside o.mem index) ↔
      a.count = 0 ∨ (o.offset + a.offset).toNat / 4 * 4 + 4 * a.count ≤ o.length.toNat := by
  obtain ⟨r, hr⟩ := Option.ne_none_iff_exists'.mp hadmitted.passes.mapped
  have hlength : r.length = o.length := h.length r hr
  have hindex : o.wordIndex a.offset = (o.offset + a.offset).toNat / 4 := by simp [wordIndex]
  constructor
  · intro hinside
    rcases Nat.eq_zero_or_pos a.count with hcount | hcount
    · exact Or.inl hcount
    have hlast := hinside (o.wordIndex a.offset + (a.count - 1)) (List.mem_map.mpr
      ⟨a.count - 1, List.mem_range.mpr (by omega), rfl⟩)
    obtain ⟨r', hr', -, hend⟩ := hlast
    rw [hr] at hr'
    cases hr'
    rw [hindex, hlength] at hend
    exact Or.inr (by omega)
  · rintro hfits index hindex'
    obtain ⟨i, hi, rfl⟩ := List.mem_map.mp hindex'
    rw [List.mem_range] at hi
    refine ⟨r, hr, hr, ?_⟩
    rw [hlength, hindex]
    omega

theorem contained_iff_fits (hdescribes : Describes o) (a : Access) : Contained host o a ↔ Fits host o a := by
  by_cases hadmitted : a.Admitted host o
  · have hinside {new : List Touch} (hnew : new.map (fun t => (t.mem, t.index)) = (a.words o).map (o.mem, ·)) :
        (∀ touch ∈ new, o.Inside touch.mem touch.index) ↔ ∀ index ∈ a.words o, o.Inside o.mem index := by
      have := congrArg (fun places => ∀ place ∈ places, o.Inside place.1 place.2) hnew
      simpa only [List.forall_mem_map, eq_iff_iff] using this
    have hwords := inside_words_iff hdescribes hadmitted
    constructor
    · intro h
      obtain ⟨new, hrun, hnew⟩ := Access.run_ok hadmitted []
      obtain ⟨new', heq, hall⟩ := h.inside [] _ (Or.inl hrun)
      obtain rfl : new = new' := by simpa using heq
      exact Or.inr (hwords.mp ((hinside hnew).mp hall))
    · intro h
      have hfits := h.resolve_left (not_not_intro hadmitted)
      refine ⟨fun past t hrun => ?_, fun hmem => absurd hmem hadmitted.passes.mapped⟩
      obtain ⟨new, hok, hnew⟩ := Access.run_ok hadmitted past
      rw [hok] at hrun
      rcases hrun with hrun | ⟨e, hrun⟩
      · cases hrun
        exact ⟨new, rfl, (hinside hnew).mpr (hwords.mpr hfits)⟩
      · cases hrun
  · refine iff_of_true ⟨fun past t hrun => ?_, fun _ past => Access.run_error hadmitted past⟩ (Or.inl hadmitted)
    obtain ⟨e, he⟩ := Access.run_error hadmitted past
    rw [he] at hrun
    rcases hrun with hrun | ⟨e', hrun⟩
    · cases hrun
    · cases hrun
      exact ⟨[], by simp, by simp⟩

/-- After any calls, an access touches nothing outside the mapped region exactly when it fits. -/
theorem contained_iff (host : Host) (baseAddr : UInt64) (calls : List Call) (a : Access) :
    Contained host (after host baseAddr calls) a ↔ Fits host (after host baseAddr calls) a :=
  contained_iff_fits (describes_afterCalls host baseAddr calls) a

/-- Where the request starts at a page and the end of the access does not wrap, the check is enough. -/
theorem fits_of_page {a : Access} (hoffset : o.offset = 0) (hend : a.offset.toNat + 4 * a.count < 2 ^ 64) : Fits host o a := by
  by_cases hadmitted : a.Admitted host o
  · have hfits := UInt64.le_iff_toNat_le.mp hadmitted.passes.fits
    have hfour : (4 : UInt64).toNat = 4 := rfl
    rw [UInt64.toNat_add, UInt64.toNat_mul, UInt64.toNat_ofNat', hfour] at hfits
    refine Or.inr (Or.inr ?_)
    rw [hoffset, UInt64.zero_add]
    omega
  · exact Or.inl hadmitted

/-! ### Beyond the region -/

def smallPages : Host where
  pageBits := 12
  two_le := by decide
  lt := by decide
  vector _ := none
  load _ _ _ := 0

/-- The last word of a window that does not start at a page lies behind the mapping; the last word of the address space lies
    before it. -/
theorem not_contained : ¬Contained smallPages (after smallPages 0x40000004 [.mapMemory none 0x1000]) (.readU32 0x1FFC) ∧
    ¬Contained smallPages (after smallPages 0x40000000 [.mapMemory none 0x1000]) (.readU32 0xFFFFFFFFFFFFFFFC) := by
  have hunaligned : after smallPages 0x40000004 [.mapMemory none 0x1000] =
      ⟨0x40000000, 4, 0x2000, some ⟨0x40000000, 0x2000⟩⟩ := by decide
  have haligned : after smallPages 0x40000000 [.mapMemory none 0x1000] =
      ⟨0x40000000, 0, 0x1000, some ⟨0x40000000, 0x1000⟩⟩ := by decide
  rw [contained_iff_fits (describes_afterCalls _ _ _), contained_iff_fits (describes_afterCalls _ _ _), hunaligned, haligned]
  constructor
  · rintro (h | h | h)
    · exact h ⟨⟨by decide, by decide, by decide⟩, nofun⟩
    · cases h
    · exact absurd h (by decide)
  · rintro (h | h | h)
    · exact h ⟨⟨by decide, by decide, by decide⟩, nofun⟩
    · cases h
    · exact absurd h (by decide)

end DevMemObject
end DaphneZmq
