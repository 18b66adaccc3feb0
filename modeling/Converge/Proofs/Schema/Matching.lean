import Converge.Object.Basic
import Converge.Proofs.Schema.Check

/-
  What is declared of each kind is what its blocks call for.

  The declaration of a kind and the blocks that are read and
  written are two descriptions of one configuration. A block
  calls for a declaration: a field of its key for each of its
  fields, of the shape and the closed set that are read, and
  required when reading misses it. The declaration of a kind
  is the one that its blocks call for, up to the remark that
  the store sets a field, which no check looks at. Both then
  find the same first defect in every map.

  Key definitions:
    * `Fields.declared`: the declaration a block calls for
    * `Declaration.relaxed`: a declaration without remarks

  Main declarations:
    * `Kind.declared_relaxed`: each kind declares that
    * `Object.validate_eq`: both descriptions check alike
-/

namespace Converge

------------------------------------------------------------
-- Declarations of Blocks
------------------------------------------------------------

/- What a leaf is declared as. -/
def Leaf.declared : Leaf → FieldType
  | .text => .text
  | .requiredText => .text
  | .timestamp => .text
  | .flag => .flag
  | .integer => .integer
  | .choice choices => .choice choices.all
  | .requiredChoice choices => .choice choices.all
  | .texts => .texts
  | .textMap => .textMap

/- The declaration of leaves, none of which is required. -/
def ParamValue.declaredLeaves :
    List (String × Leaf) → Declaration
  | [] => .nil
  | (key, leaf) :: rest =>
      .optional key leaf.declared (declaredLeaves rest)

mutual

/- What a field of a shape is declared as. -/
def Shape.declared : Shape → FieldType
  | .leaf type => type.declared
  | .value _ =>
      .block (ParamValue.declaredLeaves ParamValue.leaves)
  | .block fields => .block fields.declared
  | .blocks fields => .blocks fields.declared
  | .blockMap fields => .blockMap fields.declared
  | .part fields => .block fields.declared
  | .observed fields => .block fields.declared

/- The declaration a block calls for. What stands on the wire
   alone has no part in it. -/
def Fields.declared : Fields → Declaration
  | .nil => .nil
  | .field key _ shape rest =>
      .field key shape.declared
        (if shape.required then .required else .optional)
        rest.declared
  | .wireOnly _ _ rest => rest.declared

end

------------------------------------------------------------
-- Fields of the Store
------------------------------------------------------------

/- Whether a field has to be set, and no more. -/
def Presence.relaxed : Presence → Presence
  | .optional => .optional
  | .required => .required
  | .computed => .optional

mutual

def FieldType.relaxed : FieldType → FieldType
  | .text => .text
  | .flag => .flag
  | .integer => .integer
  | .texts => .texts
  | .textMap => .textMap
  | .choice allowed => .choice allowed
  | .block fields => .block fields.relaxed
  | .blocks fields => .blocks fields.relaxed
  | .blockMap fields => .blockMap fields.relaxed

/- A declaration that does not say what the store sets. -/
def Declaration.relaxed : Declaration → Declaration
  | .nil => .nil
  | .field name type presence rest =>
      .field name type.relaxed presence.relaxed rest.relaxed

end

theorem Presence.relaxed_eq_required (presence : Presence) :
    presence.relaxed = .required ↔ presence = .required := by
  cases presence <;> decide

@[simp] theorem Declaration.names_relaxed :
    (fields : Declaration) →
      fields.relaxed.names = fields.names
  | .nil => rfl
  | .field name _ _ rest => by
      simp [Declaration.relaxed, Declaration.names,
        rest.names_relaxed]

mutual

/- A check does not see which fields the store sets. -/
theorem FieldType.check_relaxed :
    (type : FieldType) → (path : FieldPath) →
      type.relaxed.check path = type.check path
  | .text, _ => rfl
  | .flag, _ => rfl
  | .integer, _ => rfl
  | .texts, _ => rfl
  | .textMap, _ => rfl
  | .choice _, _ => rfl
  | .block fields, path => by
      funext value
      simp only [FieldType.relaxed, FieldType.check,
        Declaration.names_relaxed,
        funext fields.checkAll_relaxed]
  | .blocks fields, path => by
      funext value
      simp only [FieldType.relaxed, FieldType.check,
        Declaration.names_relaxed,
        funext fields.checkAll_relaxed]
  | .blockMap fields, path => by
      funext value
      simp only [FieldType.relaxed, FieldType.check,
        Declaration.names_relaxed,
        funext fields.checkAll_relaxed]

theorem Declaration.checkAll_relaxed :
    (fields : Declaration) → (path : FieldPath) →
      fields.relaxed.checkAll path = fields.checkAll path
  | .nil, _ => rfl
  | .field name type presence rest, path => by
      funext entries
      simp only [Declaration.relaxed, Declaration.checkAll,
        type.check_relaxed, presence.relaxed_eq_required,
        rest.checkAll_relaxed path]

end

/- Neither does the check of a map. -/
theorem Declaration.check_relaxed (fields : Declaration) :
    fields.relaxed.check = fields.check := by
  simp only [Declaration.check, Declaration.names_relaxed,
    funext fields.checkAll_relaxed]

------------------------------------------------------------
-- Checks of Blocks
------------------------------------------------------------

/- A leaf is checked as it is declared. -/
theorem Leaf.check_declared
    (leaf : Leaf)
    (path : FieldPath) :
    leaf.declared.check path = leaf.check path := by
  funext value
  cases leaf <;> rfl

namespace ParamValue

theorem contains_names_declaredLeaves
    (key : String)
    (leaves : List (String × Leaf)) :
    (declaredLeaves leaves).names.contains key =
      Keyed.has key leaves := by
  induction leaves with
  | nil => rfl
  | cons member rest ih =>
      simp only [declaredLeaves, Declaration.optional,
        Declaration.names, Keyed.has, List.contains_cons,
        List.any_cons] at ih ⊢
      rw [ih, BEq.comm]
      rfl

theorem checkAll_declaredLeaves
    (path : FieldPath)
    (entries : ConfigMap) :
    (leaves : List (String × Leaf)) →
      (declaredLeaves leaves).checkAll path entries =
        checkLeaves path entries leaves
  | [] => rfl
  | (key, leaf) :: rest => by
      cases hFound : entries.present? key <;>
        simp only [declaredLeaves, Declaration.optional,
          Declaration.checkAll, checkLeaves, hFound,
          leaf.check_declared, reduceCtorEq, if_false,
          checkAll_declaredLeaves path entries rest]

/- So is the block of a parameter value. -/
theorem check_declared :
    (declaredLeaves leaves).check = check := by
  funext path entries
  simp only [Declaration.check, Declaration.guarded,
    Declaration.checkKeys, check,
    contains_names_declaredLeaves,
    checkAll_declaredLeaves path entries leaves]
  cases entries.find? fun entry =>
      !Keyed.has entry.1 leaves with
  | none => rfl
  | some entry => rfl

end ParamValue

@[simp] theorem Fields.names_declared :
    (fields : Fields) → fields.declared.names = fields.keys
  | .nil => rfl
  | .field key _ _ rest => by
      simp [Fields.declared, Declaration.names, Fields.keys,
        rest.names_declared]
  | .wireOnly _ _ rest => by
      simp [Fields.declared, Fields.keys, rest.names_declared]

mutual

/- A field is checked as it is declared. -/
theorem Shape.check_declared :
    (shape : Shape) → (path : FieldPath) →
      shape.declared.check path = shape.check path
  | .leaf type, path => type.check_declared path
  | .value _, path => by
      funext value
      have hCheck := ParamValue.check_declared
      simp only [Declaration.check] at hCheck
      simp only [Shape.declared, FieldType.check, Shape.check,
        hCheck]
  | .block fields, path => by
      funext value
      simp only [Shape.declared, FieldType.check, Shape.check,
        Fields.names_declared, funext fields.checkAll_declared]
  | .blocks fields, path => by
      funext value
      simp only [Shape.declared, FieldType.check, Shape.check,
        Fields.names_declared, funext fields.checkAll_declared]
  | .blockMap fields, path => by
      funext value
      simp only [Shape.declared, FieldType.check, Shape.check,
        Fields.names_declared, funext fields.checkAll_declared]
  | .part fields, path => by
      funext value
      simp only [Shape.declared, FieldType.check, Shape.check,
        Fields.names_declared, funext fields.checkAll_declared]
  | .observed fields, path => by
      funext value
      simp only [Shape.declared, FieldType.check, Shape.check,
        Fields.names_declared, funext fields.checkAll_declared]

theorem Fields.checkAll_declared :
    (fields : Fields) → (path : FieldPath) →
      fields.declared.checkAll path = fields.checkAll path
  | .nil, _ => rfl
  | .field key wire shape rest, path => by
      funext entries
      have hPresence :
          (if shape.required then Presence.required
            else .optional) = .required ↔ shape.required := by
        cases shape.required <;> decide
      cases hFound : entries.present? key <;>
        simp only [Fields.declared, Declaration.checkAll,
          Fields.checkAll, shape.check_declared, hPresence,
          hFound, rest.checkAll_declared path]
  | .wireOnly _ _ rest, path => rest.checkAll_declared path

end

/- A block is checked as it is declared. -/
theorem Fields.check_declared (fields : Fields) :
    fields.declared.check = fields.check := by
  simp only [Declaration.check, Fields.check,
    Fields.names_declared, funext fields.checkAll_declared]

------------------------------------------------------------
-- Kinds
------------------------------------------------------------

/-
  Every kind declares the configuration that its blocks call
  for: the same names in the same places, of the same shapes
  and closed sets, and the same of them required.
-/
theorem Kind.declared_relaxed (kind : Kind) :
    kind.declared.relaxed = kind.fields.declared := by
  cases kind <;> rfl

/- The check of a declaration is that of the blocks. -/
theorem Object.validate_eq
    (kind : Kind)
    (config : ConfigMap) :
    Object.validate kind config =
      kind.fields.check .root config := by
  calc
    Object.validate kind config
      = kind.declared.relaxed.check .root config := by
          rw [Declaration.check_relaxed, Object.validate]
    _ = kind.fields.declared.check .root config := by
          rw [kind.declared_relaxed]
    _ = kind.fields.check .root config := by
          rw [Fields.check_declared]

end Converge
