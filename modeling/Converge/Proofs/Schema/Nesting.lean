import Converge.Proofs.Json.Reader
import Converge.Proofs.Object.WireForm

/-
  How deeply wire forms nest.

  A declaration bounds the nesting of what its records are
  written as. For every kind the bound is far below what
  readers follow, so the text of a patch document between two
  objects is always read back.

  Key definitions:
    * `Fields.levels`: levels of a declaration
    * `PatchDocument.Puts`: a property of all values

  Main declarations:
    * `Object.fits_toJson`: an object keeps the limit
    * `Object.read?_diff`: a sent document is read back
-/

namespace Converge

open Json (Fits)

------------------------------------------------------------
-- Levels of Declarations
------------------------------------------------------------

/- Levels of nesting of a leaf. -/
def Leaf.levels : Leaf → Nat
  | .texts => 1
  | .textMap => 1
  | _ => 0

mutual

/- Levels of nesting of a field. -/
def Shape.levels : Shape → Nat
  | .leaf type => type.levels
  | .value _ => 1
  | .block fields => fields.levels + 1
  | .blocks fields => fields.levels + 2
  | .blockMap fields => fields.levels + 2
  | .part fields => fields.levels + 1
  | .observed fields => fields.levels + 1

/- Levels of nesting below the members of a record. -/
def Fields.levels : Fields → Nat
  | .nil => 0
  | .field _ _ shape rest => max shape.levels rest.levels
  | .wireOnly _ type rest => max type.levels rest.levels

end

------------------------------------------------------------
-- Wire Forms
------------------------------------------------------------

theorem Json.fits_arr_iff
    {limit : Nat}
    {items : List Json} :
    Fits (limit + 1) (.arr items) ↔
      ∀ item, item ∈ items → Fits limit item := by
  rw [Fits]

theorem Json.fits_obj_iff
    {limit : Nat}
    {members : List (String × Json)} :
    Fits (limit + 1) (.obj members) ↔
      ∀ member, member ∈ members → Fits limit member.2 := by
  rw [Fits]

theorem Json.fits_texts (contents : List String) :
    Fits 1 (.arr (contents.map .str)) := by
  apply Json.fits_arr_iff.2
  intro item hItem
  rcases List.mem_map.1 hItem with ⟨content, _, rfl⟩
  trivial

theorem Leaf.fits_encodeTextMap (map : SortedMap String) :
    Fits 1 (encodeTextMap map) := by
  apply Json.fits_obj_iff.2
  intro member hMember
  rcases List.mem_map.1 hMember with ⟨entry, _, rfl⟩
  trivial

/- A leaf keeps the limit of its levels. -/
theorem Leaf.fits_encode :
    ∀ (leaf : Leaf) (held : leaf.Val) {json : Json},
      leaf.encode held = some json → Fits leaf.levels json
  | .text, (content : String), _, h => by
      simp only [encode] at h
      split at h <;> cases h
      trivial
  | .requiredText, (content : String), _, h => by
      cases h
      trivial
  | .flag, (held : Bool), _, h => by
      simp only [encode] at h
      split at h <;> cases h
      trivial
  | .integer, (held : Int64), _, h => by
      simp only [encode] at h
      split at h <;> cases h
      trivial
  | .timestamp, (time : Option Timestamp), _, h => by
      rcases Option.map_eq_some_iff.1 h with ⟨_, _, rfl⟩
      trivial
  | .choice choices, (selected : Option (Choice choices)), _,
      h => by
      rcases Option.map_eq_some_iff.1 h with ⟨_, _, rfl⟩
      trivial
  | .requiredChoice choices, (selected : Choice choices), _,
      h => by
      cases h
      trivial
  | .texts, (contents : List String), _, h => by
      simp only [encode] at h
      split at h <;> cases h
      exact Json.fits_texts contents
  | .textMap, (map : SortedMap String), _, h => by
      simp only [encode] at h
      split at h <;> cases h
      exact fits_encodeTextMap map

theorem ParamValue.fits_encode (content : ParamValue) :
    Fits 1 content.encode := by
  cases content with
  | string text => trivial
  | array items => exact Json.fits_texts items
  | object map => exact Leaf.fits_encodeTextMap map

theorem Need.fits_encode :
    ∀ (need : Need) (held : need.Val) {json : Json},
      need.encode held = some json → Fits 1 json
  | .optional, (held : Option ParamValue), _, h => by
      rcases Option.map_eq_some_iff.1 h with ⟨content, _, rfl⟩
      exact content.fits_encode
  | .required, (held : ParamValue), _, h => by
      cases h
      exact held.fits_encode
  | .assumed, (held : ParamValue), _, h => by
      cases h
      exact held.fits_encode

mutual

/- A field keeps the limit of its levels. -/
theorem Shape.fits_encode :
    ∀ (shape : Shape) (held : shape.Val) {json : Json},
      shape.encode held = some json → Fits shape.levels json
  | .leaf type, held, _, h => type.fits_encode held h
  | .value need, held, _, h => need.fits_encode held h
  | .block fields, (held : Option fields.Rec), _, h => by
      rcases Option.map_eq_some_iff.1 h with ⟨record, _, rfl⟩
      exact Json.fits_obj_iff.2 (fields.fits_encode record)
  | .blocks fields, (items : List fields.Rec), _, h => by
      simp only [Shape.encode] at h
      split at h <;> cases h
      apply Json.fits_arr_iff.2
      intro item hItem
      rcases List.mem_map.1 hItem with ⟨record, _, rfl⟩
      exact Json.fits_obj_iff.2 (fields.fits_encode record)
  | .blockMap fields, (map : SortedMap fields.Rec), _, h => by
      simp only [Shape.encode] at h
      split at h <;> cases h
      apply Json.fits_obj_iff.2
      intro member hMember
      rcases List.mem_map.1 hMember with ⟨entry, _, rfl⟩
      exact Json.fits_obj_iff.2 (fields.fits_encode entry.2)
  | .part fields, record, _, h => by
      cases h
      exact Json.fits_obj_iff.2 (fields.fits_encode record)
  | .observed fields, (held : Option fields.Rec), _, h => by
      rcases Option.map_eq_some_iff.1 h with ⟨record, _, rfl⟩
      exact Json.fits_obj_iff.2 (fields.fits_encode record)

/- The members of a record keep the limit of its levels. -/
theorem Fields.fits_encode :
    ∀ (fields : Fields) (record : fields.Rec)
      (member : String × Json),
      member ∈ fields.encode record →
        Fits fields.levels member.2
  | .nil, _, _, h => by cases h
  | .field _ wire shape rest, (first, others), member, h => by
      have hRest :
          member ∈ rest.encode others →
            Fits (max shape.levels rest.levels) member.2 :=
        fun hMember =>
          (rest.fits_encode others member hMember).mono
            (Nat.le_max_right _ _)
      simp only [Fields.encode] at h
      split at h
      · rename_i value hValue
        rcases List.mem_cons.1 h with rfl | hMember
        · exact (shape.fits_encode first hValue).mono
            (Nat.le_max_left _ _)
        · exact hRest hMember
      · exact hRest h
  | .wireOnly wire type rest, (first, others), member, h => by
      have hRest :
          member ∈ rest.encode others →
            Fits (max type.levels rest.levels) member.2 :=
        fun hMember =>
          (rest.fits_encode others member hMember).mono
            (Nat.le_max_right _ _)
      simp only [Fields.encode] at h
      split at h
      · rename_i value hValue
        rcases List.mem_cons.1 h with rfl | hMember
        · exact (type.fits_encode first hValue).mono
            (Nat.le_max_left _ _)
        · exact hRest hMember
      · exact hRest h

end

------------------------------------------------------------
-- Objects
------------------------------------------------------------

/- Levels of nesting that a value in a patch document may
   have. -/
theorem Kind.levels_declaration (kind : Kind) :
    kind.declaration.levels + 1 ≤ PatchEntry.maxDepth := by
  cases kind <;> decide +kernel

theorem Object.fits_encode
    {kind : Kind}
    (object : Object kind) :
    Fits PatchEntry.maxDepth object.encode := by
  have hMembers :=
    kind.declaration.fits_encode object.toRecord
  rw [encode_eq]
  exact (Json.fits_obj_iff.2 hMembers).mono
    kind.levels_declaration

theorem Object.fits_toJson
    {kind : Kind}
    (object : Object kind) :
    Fits PatchEntry.maxDepth object.toJson :=
  Json.fits_canonical _ _ object.fits_encode

------------------------------------------------------------
-- Patch Documents
------------------------------------------------------------

namespace PatchEntry

variable {holds : Json → Prop}

/- The value of an entry, if there is one, has a property. -/
def Puts
    (holds : Json → Prop)
    (entry : PatchEntry) :
    Prop :=
  ∀ value, entry.value = some value → holds value

/- The entry of an edit has the value that the edit puts. -/
theorem puts_ofEdit
    {edit : Edit}
    (hEdit : edit.Puts holds) :
    (ofEdit edit).Puts holds := by
  obtain ⟨path, change⟩ := edit
  intro value hValue
  cases change with
  | add | replace =>
      cases hValue
      exact hEdit
  | remove => cases hValue

/- An entry keeps one level more than its value. -/
theorem fits_toJson
    {limit : Nat}
    {entry : PatchEntry}
    (hEntry : entry.Puts (Fits limit)) :
    Fits (limit + 1) entry.toJson := by
  have hText : ∀ text, Fits limit (.str text) := by
    intro text
    cases limit <;> trivial
  obtain ⟨verb, path, slot⟩ := entry
  cases slot with
  | none =>
      simp [toJson, Json.fits_obj_iff, hText]
  | some value =>
      simp [toJson, Json.fits_obj_iff, hText]
      exact hEntry value rfl

end PatchEntry

namespace PatchDocument

/- All values in a document have a property. -/
def Puts
    (holds : Json → Prop)
    (document : PatchDocument) :
    Prop :=
  ∀ entry, entry ∈ document → entry.Puts holds

/- A document keeps the limit of readers when each value in
   it keeps the limit of entries. -/
theorem fits_toJson
    {document : PatchDocument}
    (hDocument : document.Puts (Fits PatchEntry.maxDepth)) :
    Fits Json.maxDepth document.toJson := by
  apply Json.fits_arr_iff.2
  intro item hItem
  rcases List.mem_map.1 hItem with ⟨entry, hEntry, rfl⟩
  exact PatchEntry.fits_toJson (hDocument entry hEntry)

end PatchDocument

/- The text of a document of edits is read as their
   instructions. -/
theorem PatchDocument.read?_text
    {edits : List Edit}
    (hCanonical :
      ∀ edit, edit ∈ edits → edit.instruction.IsCanonical)
    (hFits :
      ∀ edit, edit ∈ edits →
        edit.Puts (Fits PatchEntry.maxDepth)) :
    Patch.read? (PatchDocument.ofEdits edits).text =
      some (edits.map Edit.instruction) := by
  have hDocument :
      (PatchDocument.ofEdits edits).Puts
        (Fits PatchEntry.maxDepth) := by
    intro entry hEntry
    rcases List.mem_map.1 hEntry with ⟨edit, hEdit, rfl⟩
    exact PatchEntry.puts_ofEdit (hFits edit hEdit)
  rw [Patch.read?, PatchDocument.text, Json.readNested?,
    Json.readWithin?_compact (fits_toJson hDocument),
    Option.bind_some]
  exact PatchDocument.ofJson?_toJson hCanonical

/- The text of the document between two objects is read as
   the instructions of their edits. -/
theorem Object.read?_diff
    {kind : Kind}
    (current previous : Object kind) :
    Patch.read? (current.diff previous).text =
      some
        ((Diff.edits current.toJson previous.toJson).map
          Edit.instruction) := by
  apply PatchDocument.read?_text
  · intro edit hEdit
    exact Diff.isCanonical_of_mem_edits
      current.isCanonical_toJson previous.toJson hEdit
  · intro edit hEdit
    exact Diff.puts_of_mem_edits (Json.inherited_fits _)
      current.fits_toJson previous.toJson hEdit

end Converge
