import Mathlib.Tactic.Ring

/-! # The protobuf wire format

A message is a sequence of fields, each a tag (field number and wire type) and a value. Reading a message
does not need its schema: `readFields` gives the fields of the outermost level, and skips groups whole. What
`writeFields` writes, `readFields` reads back (`readFields_writeFields`). -/

namespace Lib.Wire

abbrev Bytes := List UInt8

/-! ### Varints -/

/-- The varint at the front, of at most `n` bytes, and what follows it. -/
def readVarint : Nat → Bytes → Option (Nat × Bytes)
  | 0, _ => none
  | _, [] => none
  | n + 1, b :: bs =>
    if b.toNat < 128 then some (b.toNat, bs)
    else (readVarint n bs).map fun r => (b.toNat - 128 + 128 * r.1, r.2)

/-- The shortest varint of `v`, which must fit in `n` bytes. -/
def writeVarint : Nat → Nat → Bytes
  | 0, _ => []
  | n + 1, v => if v < 128 then [.ofNat v] else .ofNat (v % 128 + 128) :: writeVarint n (v / 128)

theorem readVarint_writeVarint {n v : Nat} (hv : v < 128 ^ (n + 1)) (rest : Bytes) :
    readVarint (n + 1) (writeVarint (n + 1) v ++ rest) = some (v, rest) := by
  induction n generalizing v with
  | zero =>
    have hlt : v < 128 := by simpa using hv
    rw [writeVarint, if_pos hlt, List.singleton_append, readVarint, UInt8.toNat_ofNat', Nat.mod_eq_of_lt (by omega),
      if_pos hlt]
  | succ n ih =>
    unfold writeVarint
    split
    · rename_i hlt
      rw [List.singleton_append, readVarint, UInt8.toNat_ofNat', Nat.mod_eq_of_lt (by omega), if_pos hlt]
    · have hdiv : v / 128 < 128 ^ (n + 1) := by
        rw [Nat.div_lt_iff_lt_mul (by decide), ← Nat.pow_succ]
        exact hv
      rw [List.cons_append, readVarint, UInt8.toNat_ofNat', Nat.mod_eq_of_lt (by omega), if_neg (by omega), ih hdiv]
      simp only [Option.map_some, Option.some.injEq, Prod.mk.injEq, and_true]
      omega

theorem writeVarint_ne_nil {n v : Nat} (hn : 0 < n) : writeVarint n v ≠ [] := by
  cases n with
  | zero => omega
  | succ n =>
    unfold writeVarint
    split <;> simp

/-- Varints one after the other, as in a packed field; none if the last one is cut short. -/
def readPacked : Nat → Bytes → Option (List Nat)
  | _, [] => some []
  | 0, _ => none
  | fuel + 1, bs => (readVarint 10 bs).bind fun r => (readPacked fuel r.2).map (r.1 :: ·)

def writePacked (vs : List Nat) : Bytes := vs.flatMap (writeVarint 10)

/-! ### Fields -/

inductive Value where
  | varint (v : UInt64)
  | i64 (bs : Bytes)
  | len (bs : Bytes)
  | i32 (bs : Bytes)

structure Field where
  number : Nat
  value : Value

/-- What one tag introduces. -/
inductive Record where
  | field (f : Field)
  | startGroup (number : Nat)
  | endGroup (number : Nat)

/-- The bytes `bs` without the first `n`, and these; none if there are not as many. -/
def takeBytes (n : Nat) (bs : Bytes) : Option (Bytes × Bytes) :=
  if n ≤ bs.length then some (bs.take n, bs.drop n) else none

/-- The value that follows a tag with the wire type `wireType`. -/
def readValue (number wireType : Nat) (bs : Bytes) : Option (Record × Bytes) :=
  match wireType with
  | 0 => (readVarint 10 bs).map fun r => (.field ⟨number, .varint (.ofNat r.1)⟩, r.2)
  | 1 => (takeBytes 8 bs).map fun r => (.field ⟨number, .i64 r.1⟩, r.2)
  | 2 => (readVarint 5 bs).bind fun n => (takeBytes n.1 n.2).map fun r => (.field ⟨number, .len r.1⟩, r.2)
  | 3 => some (.startGroup number, bs)
  | 4 => some (.endGroup number, bs)
  | 5 => (takeBytes 4 bs).map fun r => (.field ⟨number, .i32 r.1⟩, r.2)
  | _ => none

/-- One record. A tag is a varint of at most five bytes, of which 32 bits count; field number zero is
    malformed. -/
def readRecord (bs : Bytes) : Option (Record × Bytes) :=
  (readVarint 5 bs).bind fun t =>
    let tag := t.1 % 2 ^ 32
    if tag / 8 = 0 then none else readValue (tag / 8) (tag % 8) t.2

/-- How deep groups may be nested. -/
def maxDepth : Nat := 100

/-- The fields of the outermost level; `groups` are the groups that are open, innermost first. -/
def readFields : Nat → List Nat → Bytes → Option (List Field)
  | _, groups, [] => if groups.isEmpty then some [] else none
  | 0, _, _ => none
  | fuel + 1, groups, bs =>
    (readRecord bs).bind fun r =>
      match r.1, groups with
      | .field f, [] => (readFields fuel [] r.2).map (f :: ·)
      | .field _, g :: gs => readFields fuel (g :: gs) r.2
      | .startGroup n, gs => if gs.length < maxDepth then readFields fuel (n :: gs) r.2 else none
      | .endGroup _, [] => none
      | .endGroup n, g :: gs => if n = g then readFields fuel gs r.2 else none

/-- The fields of a message, if it is well formed. -/
def parse (bs : Bytes) : Option (List Field) := readFields bs.length [] bs

def Value.wireType : Value → Nat
  | .varint _ => 0
  | .i64 _ => 1
  | .len _ => 2
  | .i32 _ => 5

def writeValue : Value → Bytes
  | .varint v => writeVarint 10 v.toNat
  | .i64 bs | .i32 bs => bs
  | .len bs => writeVarint 5 bs.length ++ bs

def writeField (f : Field) : Bytes := writeVarint 5 (f.number * 8 + f.value.wireType) ++ writeValue f.value

def writeFields (fs : List Field) : Bytes := fs.flatMap writeField

/-- What the format can hold. -/
def Value.Fits : Value → Prop
  | .varint _ => True
  | .i64 bs => bs.length = 8
  | .len bs => bs.length < 2 ^ 35
  | .i32 bs => bs.length = 4

structure Field.Fits (f : Field) : Prop where
  number_pos : 0 < f.number
  number_lt : f.number < 2 ^ 29
  value : f.value.Fits

theorem takeBytes_append (bs rest : Bytes) : takeBytes bs.length (bs ++ rest) = some (bs, rest) := by
  simp [takeBytes]

theorem readValue_writeValue {v : Value} (hv : v.Fits) (number : Nat) (rest : Bytes) :
    readValue number v.wireType (writeValue v ++ rest) = some (.field ⟨number, v⟩, rest) := by
  cases v with
  | varint v =>
    have : v.toNat < 128 ^ 10 := Nat.lt_trans v.toNat_lt (by decide)
    simp [readValue, Value.wireType, writeValue, readVarint_writeVarint this]
  | i64 bs =>
    have := takeBytes_append bs rest
    rw [show bs.length = 8 from hv] at this
    simp [readValue, Value.wireType, writeValue, this]
  | len bs =>
    have : bs.length < 128 ^ 5 := Nat.lt_of_lt_of_le (show bs.length < 2 ^ 35 from hv) (by decide)
    simp [readValue, Value.wireType, writeValue, readVarint_writeVarint this, takeBytes_append]
  | i32 bs =>
    have := takeBytes_append bs rest
    rw [show bs.length = 4 from hv] at this
    simp [readValue, Value.wireType, writeValue, this]

theorem wireType_lt (v : Value) : v.wireType < 8 := by
  cases v <;> simp [Value.wireType]

theorem readRecord_writeField {f : Field} (hf : f.Fits) (rest : Bytes) :
    readRecord (writeField f ++ rest) = some (.field f, rest) := by
  obtain ⟨hpos, hlt, hvalue⟩ := hf
  have hwire := wireType_lt f.value
  have htag : f.number * 8 + f.value.wireType < 2 ^ 32 := by omega
  have hdiv : (f.number * 8 + f.value.wireType) / 8 = f.number := by omega
  have hmod : (f.number * 8 + f.value.wireType) % 8 = f.value.wireType := by omega
  rw [readRecord, writeField, List.append_assoc, readVarint_writeVarint (Nat.lt_of_lt_of_le htag (by decide)), Option.bind_some]
  simp only
  rw [Nat.mod_eq_of_lt htag, hdiv, hmod, if_neg (by omega), readValue_writeValue hvalue]

theorem writeField_ne_nil (f : Field) : writeField f ≠ [] := by
  simp [writeField, writeVarint_ne_nil]

theorem readFields_cons {f : Field} (hf : f.Fits) (fuel : Nat) (rest : Bytes) :
    readFields (fuel + 1) [] (writeField f ++ rest) = (readFields fuel [] rest).map (f :: ·) := by
  have hne : writeField f ++ rest ≠ [] := by simp [writeField_ne_nil]
  rw [readFields.eq_3 _ _ _ (fun h => hne h), readRecord_writeField hf]
  rfl

/-- What is written is read back, with any sufficient amount of fuel. -/
theorem readFields_writeFields {fs : List Field} (hfs : ∀ f ∈ fs, f.Fits) :
    ∀ {fuel : Nat}, fs.length ≤ fuel → readFields fuel [] (writeFields fs) = some fs := by
  induction fs with
  | nil => intro fuel _; cases fuel <;> rfl
  | cons f fs ih =>
    intro fuel hfuel
    cases fuel with
    | zero => simp at hfuel
    | succ fuel =>
      rw [writeFields, List.flatMap_cons, readFields_cons (hfs f List.mem_cons_self),
        show fs.flatMap writeField = writeFields fs from rfl,
        ih (fun f hf => hfs f (List.mem_cons_of_mem _ hf)) (by simpa using hfuel), Option.map_some]

theorem length_le_writeFields (fs : List Field) : fs.length ≤ (writeFields fs).length := by
  induction fs with
  | nil => simp
  | cons f fs ih =>
    have := List.length_pos_iff.mpr (writeField_ne_nil f)
    rw [writeFields, List.flatMap_cons, List.length_append, show fs.flatMap writeField = writeFields fs from rfl,
      List.length_cons]
    omega

theorem parse_writeFields {fs : List Field} (hfs : ∀ f ∈ fs, f.Fits) : parse (writeFields fs) = some fs :=
  readFields_writeFields hfs (length_le_writeFields fs)

/-! ### Scalars

A scalar that has its default value is not written. -/

def varintField (number : Nat) (v : UInt64) : List Field := if v = 0 then [] else [⟨number, .varint v⟩]

def lenField (number : Nat) (bs : Bytes) : List Field := if bs = [] then [] else [⟨number, .len bs⟩]

/-- An enumerator is written as a 64-bit number with its sign. -/
def enumValue (e : Int32) : UInt64 := e.toInt64.toUInt64

/-- An enumerator is read from the low 32 bits; enumerations are open. -/
def readEnum (v : UInt64) : Int32 := v.toUInt32.toInt32

def utf8 (s : String) : Bytes := s.toUTF8.data.toList

/-- A string, if the bytes are well-formed UTF-8. -/
def readUtf8 (bs : Bytes) : Option String := String.fromUTF8? bs.toByteArray

theorem readEnum_enumValue (e : Int32) : readEnum (enumValue e) = e := by
  have hlow : (e.toBitVec.signExtend 64).setWidth 32 = e.toBitVec := by
    ext i hi
    rw [BitVec.getElem_setWidth, BitVec.getLsbD_signExtend, if_pos hi, BitVec.getLsbD_eq_getElem hi]
    simp [Nat.lt_trans hi]
  rw [← Int32.toBitVec_inj]
  simpa [readEnum, enumValue] using hlow

theorem enumValue_eq_zero {e : Int32} : enumValue e = 0 ↔ e = 0 := by
  constructor
  · intro h
    rw [← readEnum_enumValue e, h]
    rfl
  · rintro rfl
    rfl

theorem readUtf8_utf8 (s : String) : readUtf8 (utf8 s) = some s := by
  have hbytes : (utf8 s).toByteArray = s.toByteArray := by
    apply ByteArray.ext
    simp [utf8]
  rw [readUtf8, hbytes, String.fromUTF8?, dif_pos s.isValidUTF8]
  rfl

theorem utf8_eq_nil {s : String} : utf8 s = [] ↔ s = "" := by
  constructor
  · intro h
    have hs := readUtf8_utf8 s
    rw [h] at hs
    exact (Option.some.inj hs).symm
  · rintro rfl
    rfl

theorem varintField_fits {number : Nat} (hpos : 0 < number) (hlt : number < 2 ^ 29) (v : UInt64) :
    ∀ f ∈ varintField number v, f.Fits := by
  unfold varintField
  split
  · simp
  · rintro f hf
    rw [List.mem_singleton.mp hf]
    exact ⟨hpos, hlt, trivial⟩

theorem lenField_fits {number : Nat} (hpos : 0 < number) (hlt : number < 2 ^ 29) {bs : Bytes} (hbs : bs.length < 2 ^ 35) :
    ∀ f ∈ lenField number bs, f.Fits := by
  unfold lenField
  split
  · simp
  · rintro f hf
    rw [List.mem_singleton.mp hf]
    exact ⟨hpos, hlt, hbs⟩

theorem writeField_length_le {f : Field} {fs : List Field} (h : f ∈ fs) : (writeField f).length ≤ (writeFields fs).length := by
  obtain ⟨front, back, rfl⟩ := List.append_of_mem h
  simp only [writeFields, List.flatMap_append, List.flatMap_cons, List.length_append]
  omega

/-- A message is at least as long as each of its strings. -/
theorem length_le_of_lenField (number : Nat) {bs : Bytes} {fs : List Field} (h : ∀ f ∈ lenField number bs, f ∈ fs) :
    bs.length ≤ (writeFields fs).length := by
  by_cases hbs : bs = []
  · simp [hbs]
  · have hmem : (⟨number, .len bs⟩ : Field) ∈ fs := h _ (by simp [lenField, hbs])
    refine le_trans ?_ (writeField_length_le hmem)
    simp only [writeField, writeValue, List.length_append]
    omega

/-! ### Messages

A message type gives a function that takes one field, and parses the fields of the bytes from its default. -/

section Merge
variable {α : Type*} {merge : α → Field → Option α} {s t : α} {number : Nat}

/-- Leaving out a scalar with its default is right where taking it would change nothing. -/
theorem foldlM_varintField {v : UInt64} (h : merge s ⟨number, .varint v⟩ = some t) (h0 : v = 0 → t = s) :
    (varintField number v).foldlM merge s = some t := by
  unfold varintField
  split
  · rename_i hv
    rw [h0 hv]
    rfl
  · simp [h]

theorem foldlM_lenField {bs : Bytes} (h : merge s ⟨number, .len bs⟩ = some t) (h0 : bs = [] → t = s) :
    (lenField number bs).foldlM merge s = some t := by
  unfold lenField
  split
  · rename_i hbs
    rw [h0 hbs]
    rfl
  · simp [h]

end Merge

end Lib.Wire
