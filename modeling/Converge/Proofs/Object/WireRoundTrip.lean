import Converge.Proofs.Schema.Nesting

/-
  Objects and what they are written as.

  An object can be told from each of its wire forms: the
  untyped value, the members in their declared order, and the
  texts of both. So nothing of an object is lost on the wire,
  not the offset of a timestamp nor a status without content,
  and different objects are never written alike. The type of
  timestamps has those that RFC 3339 can write, and no others.

  Main declarations:
    * `Fields.decodeObject?_encode`: a record is read back in
      the order in which it is written
    * `Object.wire_roundtrip`
-/

namespace Converge

------------------------------------------------------------
-- Records in their Declared Order
------------------------------------------------------------

mutual

/- A field is read back from what it is written as. -/
theorem Shape.decode?_encode :
    ∀ (shape : Shape) (held : shape.Val),
      shape.isWellFormed = true →
        shape.decode? (shape.encode held) = some held
  | .leaf type, held, _ => type.decode?_encode held
  | .value need, held, _ => need.decode?_encode held
  | .block fields, (held : Option fields.Rec), hWell => by
      cases held with
      | none => rfl
      | some record =>
          change
            (fields.decodeObject? (fields.encode record)).map
                some =
              some (some record)
          rw [fields.decodeObject?_encode record hWell,
            Option.map_some]
  | .blocks fields, (items : List fields.Rec), hWell => by
      cases items with
      | nil => rfl
      | cons item rest =>
          exact Shape.mapM_decodeBlock? fields _
            fun record _ =>
              fields.decodeObject?_encode record hWell
  | .blockMap fields, (map : SortedMap fields.Rec), hWell => by
      by_cases hEmpty : map.isEmpty
      · rw [Leaf.eq_empty_of_isEmpty hEmpty]
        rfl
      · rw [Shape.encode_blockMap fields hEmpty]
        change Option.map SortedMap.ofList (List.mapM _ _) = _
        rw [Shape.mapM_decodeEntry? fields fields.encode
          fun entry _ =>
            fields.decodeObject?_encode entry.2 hWell,
          Option.map_some, Leaf.ofList_entries]
        rfl
  | .part fields, record, hWell =>
      fields.decodeObject?_encode record
        (Shape.isWellFormed_part_iff.1 hWell).1
  | .observed fields, (held : Option fields.Rec), hWell => by
      have hFields :=
        (Shape.isWellFormed_observed_iff.1 hWell).1
      cases held with
      | none => rfl
      | some record =>
          change
            (fields.decodeObject? (fields.encode record)).map
                some =
              some (some record)
          rw [fields.decodeObject?_encode record hFields,
            Option.map_some]

theorem Fields.decodes_encode :
    ∀ (fields : Fields) (record : fields.Rec),
      fields.isWellFormed = true →
        fields.Decodes record (fields.encode record)
  | .nil, _, _ => trivial
  | .field key wire shape rest, (first, others), hWell => by
      have hParts := Fields.isWellFormed_field_iff.1 hWell
      have hLookup := Fields.lookup_encode_field key
        hParts.2.1 first others
      constructor
      · rw [hLookup, if_pos rfl]
        exact shape.decode?_encode first hParts.2.2.1
      · refine (rest.decodes_encode others
          hParts.2.2.2).congr fun name hName => ?_
        have hNe : name ≠ wire := fun hEq =>
          hParts.2.1 (hEq ▸ hName)
        rw [hLookup, if_neg hNe]
  | .wireOnly wire type rest, (first, others), hWell => by
      have hParts := Fields.isWellFormed_wireOnly_iff.1 hWell
      have hLookup := Fields.lookup_encode_wireOnly
        hParts.1 first others
      constructor
      · rw [hLookup, if_pos rfl]
        exact type.decode?_encode first
      · refine (rest.decodes_encode others
          hParts.2.2).congr fun name hName => ?_
        have hNe : name ≠ wire := fun hEq =>
          hParts.1 (hEq ▸ hName)
        rw [hLookup, if_neg hNe]

/- A record is read back from what it is written as. -/
theorem Fields.decodeObject?_encode
    (fields : Fields)
    (record : fields.Rec)
    (hWell : fields.isWellFormed = true) :
    fields.decodeObject? (fields.encode record) =
      some record :=
  (Fields.decodeObject?_eq_some_iff_of_nodup
    (fields.nodup_encode record hWell) fields record).2
    (fields.decodes_encode record hWell)

end

------------------------------------------------------------
-- Objects
------------------------------------------------------------

namespace Object

variable {kind : Kind}

/- An object is read back from its members in their declared
   order. -/
theorem decode?_encode (object : Object kind) :
    decode? kind object.encode = some object := by
  rw [encode_eq, decode?_obj,
    kind.declaration.decodeObject?_encode object.toRecord
      kind.isWellFormed_declaration]
  rfl

/- Texts of objects nest no deeper than readers follow. -/
theorem readNested?_compact
    {json : Json}
    (hFits : json.Fits PatchEntry.maxDepth) :
    Json.readNested? json.compact = some json :=
  Json.readWithin?_compact
    (hFits.mono (Nat.sub_le Json.maxDepth 2))

/- An object is read back from each of its wire forms, the
   value as well as the text that it is sent as. So no two
   objects are written alike. -/
theorem wire_roundtrip (kind : Kind) :
    (∀ object : Object kind,
        decode? kind object.toJson = some object ∧
        decode? kind object.encode = some object ∧
        (Json.readNested? object.toJson.compact).bind
            (decode? kind) =
          some object ∧
        (Json.readNested? object.encode.compact).bind
            (decode? kind) =
          some object) ∧
      (toJson : Object kind → Json).Injective ∧
      (encode : Object kind → Json).Injective := by
  refine ⟨fun object => ⟨object.decode?_toJson,
    object.decode?_encode, ?_, ?_⟩, ?_, ?_⟩
  · rw [readNested?_compact object.fits_toJson]
    exact object.decode?_toJson
  · rw [readNested?_compact object.fits_encode]
    exact object.decode?_encode
  · intro left right hEq
    have hLeft := left.decode?_toJson
    rw [hEq, right.decode?_toJson] at hLeft
    exact (Option.some.inj hLeft).symm
  · intro left right hEq
    have hLeft := left.decode?_encode
    rw [hEq, right.decode?_encode] at hLeft
    exact (Option.some.inj hLeft).symm

end Object

end Converge
