import DaphneZmq.Protobuf

/-! # Envelopes on the wire

An envelope is read back as it was written, and each schema reads the other one's envelopes too: the two share
the fields 1 and 2, so a legacy type is taken for a version and a version for a legacy type. -/

namespace DaphneZmq
open Lib.Wire

theorem serializeAsString_of_le {fs : List Field} (h : (writeFields fs).length ≤ intMax) :
    serializeAsString fs = writeFields fs := if_pos h

theorem parseFromArray_of_le {α : Type} {parseFromString : Bytes → Option α} {data : Bytes} (h : data.length ≤ intMax) :
    parseFromArray parseFromString data = parseFromString data := by
  have hmod : data.length % 2 ^ 32 = data.length := Nat.mod_eq_of_lt (Nat.lt_of_le_of_lt h (by decide))
  rw [parseFromArray]
  simp only [hmod, h, ↓reduceIte, List.take_length]

theorem toUInt64_eq_zero {v : UInt32} (h : v.toUInt64 = 0) : v = 0 := by
  rw [← UInt32.toUInt32_toUInt64 v, h]
  rfl

namespace ControlEnvelopeV2

theorem fields_fits {m : ControlEnvelopeV2} (hpayload : m.payload.length < 2 ^ 35) (hroute : (utf8 m.route).length < 2 ^ 35) :
    ∀ f ∈ m.fields, f.Fits := by
  intro f hf
  simp only [fields, List.mem_append] at hf
  rcases hf with (((((((hf | hf) | hf) | hf) | hf) | hf) | hf) | hf) | hf
  · exact varintField_fits (by decide) (by decide) _ f hf
  · exact varintField_fits (by decide) (by decide) _ f hf
  · exact varintField_fits (by decide) (by decide) _ f hf
  · exact lenField_fits (by decide) (by decide) hpayload f hf
  · exact varintField_fits (by decide) (by decide) _ f hf
  · exact varintField_fits (by decide) (by decide) _ f hf
  · exact varintField_fits (by decide) (by decide) _ f hf
  · exact lenField_fits (by decide) (by decide) hroute f hf
  · exact varintField_fits (by decide) (by decide) _ f hf

theorem fields_fits_of_le {m : ControlEnvelopeV2} (h : (writeFields m.fields).length ≤ intMax) : ∀ f ∈ m.fields, f.Fits := by
  have hpayload : m.payload.length ≤ (writeFields m.fields).length :=
    length_le_of_lenField 4 fun f hf => by simp [fields, hf]
  have hroute : (utf8 m.route).length ≤ (writeFields m.fields).length :=
    length_le_of_lenField 13 fun f hf => by simp [fields, hf]
  exact fields_fits (Nat.lt_of_le_of_lt (hpayload.trans h) (by decide)) (Nat.lt_of_le_of_lt (hroute.trans h) (by decide))

theorem foldlM_fields (m : ControlEnvelopeV2) : m.fields.foldlM merge {} = some m := by
  obtain ⟨version, dir, type, payload, taskId, msgId, correlId, route, timestampNs⟩ := m
  simp only [fields, List.foldlM_append, Option.bind_eq_bind]
  rw [foldlM_varintField (t := { version }) (by simp [merge]) (fun h => by rw [toUInt64_eq_zero h]), Option.bind_some,
    foldlM_varintField (t := { version, dir }) (by simp [merge, readEnum_enumValue])
      (fun h => by rw [enumValue_eq_zero.mp h]), Option.bind_some,
    foldlM_varintField (t := { version, dir, type }) (by simp [merge, readEnum_enumValue])
      (fun h => by rw [enumValue_eq_zero.mp h]), Option.bind_some,
    foldlM_lenField (t := { version, dir, type, payload }) (by simp [merge]) (fun h => by rw [h]), Option.bind_some,
    foldlM_varintField (t := { version, dir, type, payload, taskId }) (by simp [merge]) (fun h => by rw [h]),
    Option.bind_some,
    foldlM_varintField (t := { version, dir, type, payload, taskId, msgId }) (by simp [merge]) (fun h => by rw [h]),
    Option.bind_some,
    foldlM_varintField (t := { version, dir, type, payload, taskId, msgId, correlId }) (by simp [merge])
      (fun h => by rw [h]), Option.bind_some,
    foldlM_lenField (t := { version, dir, type, payload, taskId, msgId, correlId, route })
      (by simp [merge, readUtf8_utf8]) (fun h => by rw [utf8_eq_nil.mp h]), Option.bind_some,
    foldlM_varintField (t := { version, dir, type, payload, taskId, msgId, correlId, route, timestampNs })
      (by simp [merge]) (fun h => by rw [h])]

/-- An envelope is read back as it was written. -/
theorem parse_serialize {m : ControlEnvelopeV2} (h : (writeFields m.fields).length ≤ intMax) :
    parseFromArray parseFromString (serializeAsString m.fields) = some m := by
  rw [serializeAsString_of_le h, parseFromArray_of_le h, parseFromString, parse_writeFields (fields_fits_of_le h),
    Option.bind_some, foldlM_fields]

/-- A legacy envelope read as a new one: only the version is known. -/
theorem foldlM_legacy (e : ControlEnvelope) : e.fields.foldlM merge {} = some { version := (enumValue e.type).toUInt32 } := by
  simp only [ControlEnvelope.fields, List.foldlM_append, Option.bind_eq_bind]
  rw [foldlM_varintField (t := { version := (enumValue e.type).toUInt32 }) (by simp [merge]) (fun h => by rw [h]; rfl),
    Option.bind_some, foldlM_lenField (by simp [merge]) (fun _ => rfl)]

theorem version_legacy_eq_two {type : MessageType} : (enumValue type).toUInt32 = 2 ↔ type = MessageType.configureFe := by
  constructor
  · intro h
    rw [← readEnum_enumValue type, readEnum, h]
    rfl
  · rintro rfl
    rfl

end ControlEnvelopeV2

namespace ControlEnvelope

theorem fields_fits {e : ControlEnvelope} (h : e.payload.length < 2 ^ 35) : ∀ f ∈ e.fields, f.Fits := by
  intro f hf
  rcases List.mem_append.mp hf with hf | hf
  · exact varintField_fits (by decide) (by decide) _ f hf
  · exact lenField_fits (by decide) (by decide) h f hf

theorem payload_length_le (e : ControlEnvelope) : e.payload.length ≤ (writeFields e.fields).length :=
  length_le_of_lenField 2 fun _ hf => List.mem_append_right _ hf

theorem parse_as_v2 {e : ControlEnvelope} (h : (writeFields e.fields).length ≤ intMax) :
    parseFromArray ControlEnvelopeV2.parseFromString (serializeAsString e.fields) =
      some { version := (enumValue e.type).toUInt32 } := by
  have hpayload : e.payload.length < 2 ^ 35 := Nat.lt_of_le_of_lt (e.payload_length_le.trans h) (by decide)
  rw [serializeAsString_of_le h, parseFromArray_of_le h, ControlEnvelopeV2.parseFromString,
    parse_writeFields (fields_fits hpayload), Option.bind_some, ControlEnvelopeV2.foldlM_legacy]

/-- A new envelope read as a legacy one: only the type is known, and it is the version. -/
theorem foldlM_v2 (m : ControlEnvelopeV2) : m.fields.foldlM merge {} = some { type := readEnum m.version.toUInt64 } := by
  simp only [ControlEnvelopeV2.fields, List.foldlM_append, Option.bind_eq_bind]
  rw [foldlM_varintField (t := { type := readEnum m.version.toUInt64 }) (by simp [merge]) (fun h => by rw [h]; rfl),
    Option.bind_some]
  have ignored : ∀ (e : ControlEnvelope) (number : Nat) (v : UInt64), 1 < number →
      (varintField number v).foldlM merge e = some e := fun e number v h => by
    refine foldlM_varintField ?_ fun _ => rfl
    unfold merge
    split <;> simp_all
  have ignored' : ∀ (e : ControlEnvelope) (number : Nat) (bs : Bytes), 2 < number →
      (lenField number bs).foldlM merge e = some e := fun e number bs h => by
    refine foldlM_lenField ?_ fun _ => rfl
    unfold merge
    split <;> simp_all
  simp [ignored, ignored']

/-- What the legacy schema makes of a new envelope that has been sent; one that is too long was sent empty. -/
theorem parse_v2 (m : ControlEnvelopeV2) : parseFromString (serializeAsString m.fields) =
    some { type := if (writeFields m.fields).length ≤ intMax then readEnum m.version.toUInt64 else 0 } := by
  split
  · rename_i h
    rw [serializeAsString_of_le h, parseFromString, parse_writeFields (ControlEnvelopeV2.fields_fits_of_le h),
      Option.bind_some, foldlM_v2]
  · rename_i h
    rw [serializeAsString]
    simp only [h, ↓reduceIte]
    rfl

end ControlEnvelope
end DaphneZmq
