import Converge.Object.Kind
import Converge.Proofs.Keyed
import Converge.Schema.Expand

/-
  What is asked of a declaration, and of a record of one.

  A declaration is well formed when no block repeats a key or
  a name on the wire, no closed set holds the empty string,
  and no part of an object has a required string directly in
  it: such a string could be left out together with the whole
  part.

  Key definitions:
    * `Fields.isWellFormed`: a declaration without clashes
    * `Fields.Filled`: no required string is empty
    * `Fields.settle`: what is left of a record in tree form
    * `Fields.isPlain`: everything is left
-/

namespace Converge

------------------------------------------------------------
-- Declarations without Clashes
------------------------------------------------------------

/- Closed sets do not hold the empty string. -/
def Leaf.isWellFormed : Leaf → Bool
  | .choice choices => "" ∉ choices.all
  | .requiredChoice choices => "" ∉ choices.all
  | _ => true

/- A value that is not written in a tree misses no required
   string. -/
def Shape.isLenient : Shape → Bool
  | .leaf .requiredText => false
  | _ => true

/- No required string stands directly in a block. -/
def Fields.isLenient : Fields → Bool
  | .nil => true
  | .field _ _ shape rest => shape.isLenient && rest.isLenient
  | .wireOnly _ _ rest => rest.isLenient

mutual

/- The declaration of a field has no clashes. -/
def Shape.isWellFormed : Shape → Bool
  | .leaf type => type.isWellFormed
  | .value _ => true
  | .block fields => fields.isWellFormed
  | .blocks fields => fields.isWellFormed
  | .blockMap fields => fields.isWellFormed
  | .part fields => fields.isWellFormed && fields.isLenient
  | .observed fields =>
      fields.isWellFormed && fields.isLenient

/- Neither a key nor a name on the wire repeats in a block,
   and the same holds inside of it. -/
def Fields.isWellFormed : Fields → Bool
  | .nil => true
  | .field key wire shape rest =>
      decide (key ∉ rest.keys) &&
        (decide (wire ∉ rest.wireNames) &&
          (shape.isWellFormed && rest.isWellFormed))
  | .wireOnly wire type rest =>
      decide (wire ∉ rest.wireNames) &&
        (type.isWellFormed && rest.isWellFormed)

end

theorem Fields.isWellFormed_field_iff
    {key wire : String}
    {shape : Shape}
    {rest : Fields} :
    (Fields.field key wire shape rest).isWellFormed = true ↔
      key ∉ rest.keys ∧ wire ∉ rest.wireNames ∧
        shape.isWellFormed = true ∧
        rest.isWellFormed = true := by
  simp only [isWellFormed, Bool.and_eq_true,
    decide_eq_true_eq]

theorem Fields.isWellFormed_wireOnly_iff
    {wire : String}
    {type : Leaf}
    {rest : Fields} :
    (Fields.wireOnly wire type rest).isWellFormed = true ↔
      wire ∉ rest.wireNames ∧ type.isWellFormed = true ∧
        rest.isWellFormed = true := by
  simp only [isWellFormed, Bool.and_eq_true,
    decide_eq_true_eq]

/- Parts of an object are well formed, and lenient. -/
theorem Shape.isWellFormed_part_iff
    {fields : Fields} :
    (Shape.part fields).isWellFormed = true ↔
      fields.isWellFormed = true ∧
        fields.isLenient = true := by
  simp only [isWellFormed, Bool.and_eq_true]

theorem Shape.isWellFormed_observed_iff
    {fields : Fields} :
    (Shape.observed fields).isWellFormed = true ↔
      fields.isWellFormed = true ∧
        fields.isLenient = true := by
  simp only [isWellFormed, Bool.and_eq_true]

/- The declarations of all kinds are well formed. -/
theorem Kind.isWellFormed_fields (kind : Kind) :
    kind.fields.isWellFormed = true := by
  cases kind <;> decide +kernel

------------------------------------------------------------
-- Required Strings
------------------------------------------------------------

/- A required string is not empty. -/
def Leaf.Filled : (leaf : Leaf) → leaf.Val → Prop
  | .requiredText, (content : String) => content ≠ ""
  | _, _ => True

mutual

/- No required string of a field is empty. -/
def Shape.Filled : (shape : Shape) → shape.Val → Prop
  | .leaf type, value => type.Filled value
  | .value _, _ => True
  | .block fields, (value : Option fields.Rec) =>
      ∀ record, value = some record → fields.Filled record
  | .blocks fields, (items : List fields.Rec) =>
      ∀ record, record ∈ items → fields.Filled record
  | .blockMap fields, (map : SortedMap fields.Rec) =>
      ∀ entry, entry ∈ map.entries → fields.Filled entry.2
  | .part fields, record => fields.Filled record
  | .observed fields, (value : Option fields.Rec) =>
      ∀ record, value = some record → fields.Filled record

/- No required string of a record is empty, at any depth. -/
def Fields.Filled : (fields : Fields) → fields.Rec → Prop
  | .nil, _ => True
  | .field _ _ shape rest, (first, others) =>
      shape.Filled first ∧ rest.Filled others
  | .wireOnly _ _ rest, (_, others) => rest.Filled others

end

------------------------------------------------------------
-- What a Tree Keeps
------------------------------------------------------------

mutual

/- What is left of the value of a field in tree form. An
   observation that shows nothing is left out. -/
def Shape.settle : (shape : Shape) → shape.Val → shape.Val
  | .leaf _, value => value
  | .value _, value => value
  | .block fields, (value : Option fields.Rec) =>
      value.map fields.settle
  | .blocks fields, (items : List fields.Rec) =>
      items.map fields.settle
  | .blockMap fields, (map : SortedMap fields.Rec) =>
      map.mapValues fields.settle
  | .part fields, record => fields.settle record
  | .observed fields, (value : Option fields.Rec) =>
      value.bind fun record =>
        if (fields.flatten record).isEmpty then none
        else some (fields.settle record)

/- What is left of a record in tree form. Fields that a tree
   cannot state are left out. -/
def Fields.settle : (fields : Fields) → fields.Rec → fields.Rec
  | .nil, record => record
  | .field _ _ shape rest, (first, others) =>
      (shape.settle first, rest.settle others)
  | .wireOnly _ type rest, (_, others) =>
      (type.zero, rest.settle others)

end

mutual

/- Every value of a field is kept by its tree form. -/
def Shape.isPlain : Shape → Bool
  | .leaf _ => true
  | .value _ => true
  | .block fields => fields.isPlain
  | .blocks fields => fields.isPlain
  | .blockMap fields => fields.isPlain
  | .part fields => fields.isPlain
  | .observed _ => false

/- Every record of a block is kept by its tree form. -/
def Fields.isPlain : Fields → Bool
  | .nil => true
  | .field _ _ shape rest => shape.isPlain && rest.isPlain
  | .wireOnly _ _ _ => false

end

theorem SortedMap.mapValues_id
    {α : Type}
    (map : SortedMap α) :
    map.mapValues id = map :=
  SortedMap.ext (Keyed.mapValues_id map.entries)

mutual

theorem Shape.settle_eq_self :
    ∀ (shape : Shape) (value : shape.Val),
      shape.isPlain = true → shape.settle value = value
  | .leaf _, _, _ => by simp only [Shape.settle]
  | .value _, _, _ => by simp only [Shape.settle]
  | .block fields, value, hPlain => by
      have hSelf : fields.settle = id := funext fun record =>
        fields.settle_eq_self record hPlain
      simp only [Shape.settle, hSelf]
      exact Option.map_id_apply
  | .blocks fields, items, hPlain => by
      have hSelf : fields.settle = id := funext fun record =>
        fields.settle_eq_self record hPlain
      simp only [Shape.settle, hSelf]
      exact List.map_id items
  | .blockMap fields, map, hPlain => by
      have hSelf : fields.settle = id := funext fun record =>
        fields.settle_eq_self record hPlain
      simp only [Shape.settle, hSelf]
      exact SortedMap.mapValues_id map
  | .part fields, record, hPlain => by
      simp only [Shape.settle]
      exact fields.settle_eq_self record hPlain
  | .observed _, _, hPlain => by
      simp [Shape.isPlain] at hPlain

theorem Fields.settle_eq_self :
    ∀ (fields : Fields) (record : fields.Rec),
      fields.isPlain = true → fields.settle record = record
  | .nil, _, _ => by simp only [Fields.settle]
  | .field _ _ shape rest, (first, others), hPlain => by
      have hParts :
          shape.isPlain = true ∧ rest.isPlain = true := by
        simpa [Fields.isPlain] using hPlain
      have hFirst := shape.settle_eq_self first hParts.1
      have hOthers := rest.settle_eq_self others hParts.2
      simp only [Fields.settle]
      rw [hFirst, hOthers]
  | .wireOnly _ _ _, _, hPlain => by
      simp [Fields.isPlain] at hPlain

end

end Converge
