import Converge.Proofs.Object.WireForm

/-
  Wire forms leave out what is not set.

  A field without a value has no member on the wire, so that
  no member of an object is ever null.

  Key definitions:
    * `Json.NullFree`: not null, nor are its members

  Main declarations:
    * `Object.nullFree_toJson`: the wire form of an object
-/

namespace Converge

namespace Json

/- A value is not null, and neither is any member of it, or
   of its members in turn. -/
inductive NullFree : Json → Prop where
  | bool (value : Bool) : NullFree (.bool value)
  | num (number : Number) : NullFree (.num number)
  | str (text : String) : NullFree (.str text)
  | arr (items : List Json) : NullFree (.arr items)
  | obj
      (members : List (String × Json))
      (inside :
        ∀ member, member ∈ members → NullFree member.2) :
      NullFree (.obj members)

theorem NullFree.ne_null
    {value : Json}
    (h : NullFree value) :
    value ≠ .null := by
  rintro rfl
  cases h

theorem inherited_nullFree : Inherited NullFree := by
  intro members h
  cases h with
  | obj _ inside => exact inside

/- The canonical form has the members that there were. -/
theorem NullFree.canonical
    {value : Json}
    (h : NullFree value) :
    NullFree value.canonical := by
  induction h with
  | bool value =>
      simp only [Json.canonical]
      exact .bool value
  | num number =>
      simp only [Json.canonical]
      exact .num number
  | str text =>
      simp only [Json.canonical]
      exact .str text
  | arr items =>
      simp only [Json.canonical]
      exact .arr _
  | obj members _ ih =>
      simp only [Json.canonical]
      refine .obj _ fun member hMember => ?_
      rcases mem_canonicalMembers hMember with
        ⟨other, hOther, hValue⟩
      rw [hValue]
      exact ih other hOther

end Json

open Json (NullFree)

------------------------------------------------------------
-- Fields
------------------------------------------------------------

theorem Leaf.nullFree_encodeTextMap (map : SortedMap String) :
    NullFree (encodeTextMap map) := by
  refine .obj _ fun member hMember => ?_
  rcases List.mem_map.1 hMember with ⟨entry, _, rfl⟩
  exact .str entry.2

theorem Leaf.nullFree_encode :
    ∀ (leaf : Leaf) (held : leaf.Val) {json : Json},
      leaf.encode held = some json → NullFree json
  | .text, (content : String), _, h => by
      simp only [encode] at h
      split at h <;> cases h
      exact .str content
  | .requiredText, (content : String), _, h => by
      cases h
      exact .str content
  | .flag, (held : Bool), _, h => by
      simp only [encode] at h
      split at h <;> cases h
      exact .bool true
  | .integer, (held : Int64), _, h => by
      simp only [encode] at h
      split at h <;> cases h
      exact .num _
  | .timestamp, (time : Option Timestamp), _, h => by
      rcases Option.map_eq_some_iff.1 h with ⟨given, _, rfl⟩
      exact .str given.text
  | .choice choices, (selected : Option (Choice choices)), _,
      h => by
      rcases Option.map_eq_some_iff.1 h with ⟨given, _, rfl⟩
      exact .str given.val
  | .requiredChoice choices, (selected : Choice choices), _,
      h => by
      cases h
      exact .str selected.val
  | .texts, (contents : List String), _, h => by
      simp only [encode] at h
      split at h <;> cases h
      exact .arr _
  | .textMap, (map : SortedMap String), _, h => by
      simp only [encode] at h
      split at h <;> cases h
      exact nullFree_encodeTextMap map

theorem ParamValue.nullFree_encode (content : ParamValue) :
    NullFree content.encode := by
  cases content with
  | string text => exact .str text
  | array items => exact .arr _
  | object map => exact Leaf.nullFree_encodeTextMap map

theorem Need.nullFree_encode :
    ∀ (need : Need) (held : need.Val) {json : Json},
      need.encode held = some json → NullFree json
  | .optional, (held : Option ParamValue), _, h => by
      rcases Option.map_eq_some_iff.1 h with ⟨content, _, rfl⟩
      exact content.nullFree_encode
  | .required, (held : ParamValue), _, h => by
      cases h
      exact held.nullFree_encode
  | .assumed, (held : ParamValue), _, h => by
      cases h
      exact held.nullFree_encode

mutual

/- A field is written as a value that is not null. -/
theorem Shape.nullFree_encode :
    ∀ (shape : Shape) (held : shape.Val) {json : Json},
      shape.encode held = some json → NullFree json
  | .leaf type, held, _, h => type.nullFree_encode held h
  | .value need, held, _, h => need.nullFree_encode held h
  | .block fields, (held : Option fields.Rec), _, h => by
      rcases Option.map_eq_some_iff.1 h with ⟨record, _, rfl⟩
      exact .obj _ (fields.nullFree_encode record)
  | .blocks fields, (items : List fields.Rec), _, h => by
      simp only [Shape.encode] at h
      split at h <;> cases h
      exact .arr _
  | .blockMap fields, (map : SortedMap fields.Rec), _, h => by
      simp only [Shape.encode] at h
      split at h <;> cases h
      refine .obj _ fun member hMember => ?_
      rcases List.mem_map.1 hMember with ⟨entry, _, rfl⟩
      exact .obj _ (fields.nullFree_encode entry.2)
  | .part fields, record, _, h => by
      cases h
      exact .obj _ (fields.nullFree_encode record)
  | .observed fields, (held : Option fields.Rec), _, h => by
      rcases Option.map_eq_some_iff.1 h with ⟨record, _, rfl⟩
      exact .obj _ (fields.nullFree_encode record)

/- A record has members for the fields that are written. -/
theorem Fields.nullFree_encode :
    ∀ (fields : Fields) (record : fields.Rec)
      (member : String × Json),
      member ∈ fields.encode record → NullFree member.2
  | .nil, _, _, h => by cases h
  | .field _ wire shape rest, (first, others), member, h => by
      simp only [Fields.encode] at h
      split at h
      · rename_i value hValue
        rcases List.mem_cons.1 h with rfl | hMember
        · exact shape.nullFree_encode first hValue
        · exact rest.nullFree_encode others member hMember
      · exact rest.nullFree_encode others member h
  | .wireOnly wire type rest, (first, others), member, h => by
      simp only [Fields.encode] at h
      split at h
      · rename_i value hValue
        rcases List.mem_cons.1 h with rfl | hMember
        · exact type.nullFree_encode first hValue
        · exact rest.nullFree_encode others member hMember
      · exact rest.nullFree_encode others member h

end

------------------------------------------------------------
-- Objects
------------------------------------------------------------

theorem Object.nullFree_toJson
    {kind : Kind}
    (object : Object kind) :
    NullFree object.toJson := by
  have hMembers :=
    kind.declaration.nullFree_encode object.toRecord
  rw [toJson, encode_eq]
  exact (NullFree.obj _ hMembers).canonical

end Converge
