import Converge.Proofs.Diff.Exact
import Converge.Proofs.Json.Frame
import Converge.Proofs.Object.Ground

/-
  Patches that state all of an object.

  A patch that starts from nothing adds the labels, the
  annotations and each member of the specification that the
  wanted object is written with, as a whole. On a document
  with a specification it can always be carried out, whatever
  is there: each of these places then holds what is wanted,
  and any other place holds what it held. Carried out on what
  it made, it changes nothing.

  Key definitions:
    * `Object.IsStated`: the places of such a patch
    * `Object.RestatedBy`: what its document consists of
    * `Object.Restated`: what it makes of a document

  Main declarations:
    * `Object.restatedBy_diff`
    * `Object.exists_apply_restating`: it can be carried out
    * `Object.restated_of_apply`: what it does
    * `Object.apply_restating_eq_self`: what it leaves
-/

namespace Converge

namespace Object

variable {kind : Kind}

------------------------------------------------------------
-- Stated Places
------------------------------------------------------------

/- The places that are stated as a whole. -/
inductive IsStated : List String → Prop
  | labels : IsStated ["metadata", "labels"]
  | annotations : IsStated ["metadata", "annotations"]
  | member (name : String) : IsStated ["spec", name]

/- An object is written with a specification that is an
   object. -/
theorem exists_spec (object : Object kind) :
    ∃ members,
      object.toJson.at? ["spec"] = some (.obj members) := by
  rw [object.at?_toJson.2.2]
  exact ⟨_, rfl⟩

/- In an object in which nothing is set, no place is. -/
theorem at?_zero_of_isStated
    (kind : Kind)
    {place : List String}
    (hPlace : IsStated place) :
    (zero kind).toJson.at? place = none := by
  rcases at?_toJson_zero kind with
    ⟨hLabels, hAnnotations, hSpec⟩
  cases hPlace with
  | labels => exact hLabels
  | annotations => exact hAnnotations
  | member name =>
      have hSplit : ["spec", name] = ["spec"] ++ [name] := rfl
      rw [hSplit, Json.at?_append, hSpec]
      rfl

/- Only such places are compared with an object in which
   nothing is set, besides the specification itself. -/
theorem isStated_of_compared
    {value : Json}
    {path : List String}
    (hCompared :
      Diff.Compared value (zero kind).toJson path) :
    IsStated path ∨ path = ["spec"] := by
  rcases hCompared with ⟨root, hRoot, ⟨rest, rfl⟩, hAbove⟩
  -- nothing lies below a place that is not there
  have hNothing :
      ∀ place, IsStated place → root <+: place →
        place <+: root ++ rest → place = root ++ rest := by
    intro place hPlace hBelow hOver
    by_contra hNe
    rcases (hAbove place hBelow hOver hNe).2 with
      ⟨members, hMembers⟩
    rw [at?_zero_of_isStated kind hPlace] at hMembers
    cases hMembers
  simp only [Diff.mutableRoots, List.mem_cons,
    List.not_mem_nil, or_false] at hRoot
  rcases hRoot with rfl | rfl | rfl
  · rw [← hNothing _ .labels List.prefix_rfl
      (List.prefix_append _ _)]
    exact Or.inl .labels
  · rw [← hNothing _ .annotations List.prefix_rfl
      (List.prefix_append _ _)]
    exact Or.inl .annotations
  · cases rest with
    | nil => exact Or.inr rfl
    | cons name rest =>
        rw [← hNothing _ (.member name)
          (List.prefix_append ["spec"] [name])
          (List.prefix_append ["spec", name] rest)]
        exact Or.inl (.member name)

/- All of them are compared. -/
theorem compared_of_isStated
    (wanted : Object kind)
    {place : List String}
    (hPlace : IsStated place) :
    Diff.Compared wanted.toJson (zero kind).toJson place := by
  have hSelf :
      ∀ root above : List String,
        root <+: above → above <+: root → above = root :=
    fun _ _ hBelow hOver =>
      hOver.eq_of_length (Nat.le_antisymm hOver.length_le
        hBelow.length_le)
  cases hPlace with
  | labels =>
      refine ⟨_, .head _, List.prefix_rfl, ?_⟩
      intro above hBelow hOver hNe
      exact absurd (hSelf _ _ hBelow hOver) hNe
  | annotations =>
      refine ⟨_, .tail _ (.head _), List.prefix_rfl, ?_⟩
      intro above hBelow hOver hNe
      exact absurd (hSelf _ _ hBelow hOver) hNe
  | member name =>
      refine ⟨["spec"], .tail _ (.tail _ (.head _)),
        List.prefix_append ["spec"] [name], ?_⟩
      rintro _ ⟨inner, rfl⟩ hOver hNe
      have hInner : inner <+: [name] :=
        (List.prefix_append_right_inj ["spec"]).1 hOver
      cases inner with
      | nil =>
          exact ⟨wanted.exists_spec, (zero kind).exists_spec⟩
      | cons key rest =>
          rcases List.cons_prefix_cons.1 hInner with
            ⟨rfl, hRest⟩
          rw [List.prefix_nil.1 hRest] at hNe
          exact absurd rfl hNe

/- The edits that state an object add what it is written with
   at these places. -/
theorem mem_edits_zero_iff
    {wanted : Object kind}
    {path : List String}
    {change : Change} :
    ⟨path, change⟩ ∈
        Diff.edits wanted.toJson (zero kind).toJson ↔
      IsStated path ∧
        ∃ value, wanted.toJson.at? path = some value ∧
          change = .add value := by
  rw [Diff.mem_edits_iff wanted.isCanonical_toJson
    (zero kind).isCanonical_toJson]
  constructor
  · rintro ⟨hCompared, hDiffers⟩
    rcases isStated_of_compared hCompared with
      hPlace | rfl
    · rw [at?_zero_of_isStated kind hPlace] at hDiffers
      refine ⟨hPlace, ?_⟩
      generalize wanted.toJson.at? path = slot at hDiffers
      cases hDiffers with
      | added value => exact ⟨value, rfl, rfl⟩
    · exact absurd ⟨wanted.exists_spec, (zero kind).exists_spec⟩
        hDiffers.not_objects
  · rintro ⟨hPlace, value, hValue, rfl⟩
    rw [at?_zero_of_isStated kind hPlace, hValue]
    exact ⟨compared_of_isStated wanted hPlace, .added value⟩

/- A document states an object: it adds what the object is
   written with at each of these places, once, and does
   nothing else. -/
structure RestatedBy
    (wanted : Object kind)
    (document : PatchDocument) : Prop where
  entries :
    ∀ entry : PatchEntry,
      entry ∈ document ↔
        ∃ place value,
          IsStated place ∧
            wanted.toJson.at? place = some value ∧
            entry = PatchEntry.ofEdit ⟨place, .add value⟩
  once : (document.map PatchEntry.path).Nodup

/- The diff from nothing states an object. -/
theorem restatedBy_diff (wanted : Object kind) :
    wanted.RestatedBy (wanted.diff (zero kind)) := by
  constructor
  · intro entry
    refine List.mem_map.trans ?_
    constructor
    · rintro ⟨⟨place, change⟩, hEdit, rfl⟩
      rcases mem_edits_zero_iff.1 hEdit with
        ⟨hPlace, value, hValue, rfl⟩
      exact ⟨place, value, hPlace, hValue, rfl⟩
    · rintro ⟨place, value, hPlace, hValue, rfl⟩
      exact ⟨_,
        mem_edits_zero_iff.2 ⟨hPlace, value, hValue, rfl⟩,
        rfl⟩
  · refine List.pairwise_map.2 (List.pairwise_map.2 ?_)
    have hApart := Diff.pairwise_apart_edits
      wanted.isCanonical_toJson (zero kind).isCanonical_toJson
    exact hApart.imp fun hPair =>
      (PatchEntry.apart_ofEdit hPair).path_ne

------------------------------------------------------------
-- Restated Documents
------------------------------------------------------------

/- A document states an object: it holds what the object is
   written with at each of these places, and elsewhere what
   another document held, but for some members of the
   metadata. -/
structure Restated
    (wanted : Object kind)
    (fields : List String)
    (before after : Json) : Prop where
  stated :
    ∀ place value, IsStated place →
      wanted.toJson.at? place = some value →
        after.at? place = some value
  elsewhere :
    ∀ path,
      (∀ place value, IsStated place →
          wanted.toJson.at? place = some value →
            Pointer.Apart place path) →
        (∀ field, field ∈ fields →
          Pointer.Apart ["metadata", field] path) →
            after.at? path = before.at? path

section Documents

variable (wanted : Object kind)
variable {document made : Json}
variable
  (hDocument : document.IsCanonical)
  (hMetadata : document.HasMetadata)
  (hSpec :
    ∃ members, document.at? ["spec"] = some (.obj members))

include hMetadata hSpec in
/- On a document with a specification, these edits change
   members of objects only. -/
theorem grounded_restating :
    Diff.Grounded
      (Diff.edits wanted.toJson (zero kind).toJson)
      (some document) := by
  intro ⟨path, change⟩ hEdit _
  rcases hMetadata with ⟨info, hInfo⟩
  have hAbove :
      document.at? ["metadata"] = some (.obj info) :=
    (Json.at?_singleton _ _).trans hInfo
  cases (mem_edits_zero_iff.1 hEdit).1 with
  | labels => exact ⟨info, hAbove⟩
  | annotations => exact ⟨info, hAbove⟩
  | member name => exact hSpec

include hDocument hMetadata hSpec

/- So they keep apart, on ways through objects. -/
theorem separate_restating :
    Diff.Separate
      (Diff.edits wanted.toJson (zero kind).toJson)
      (some document) := by
  refine ⟨Diff.pairwise_apart_edits wanted.isCanonical_toJson
    (zero kind).isCanonical_toJson, ?_⟩
  intro edit hEdit
  refine Edit.lands_of_grounded ?_
    (grounded_restating wanted hMetadata hSpec edit hEdit)
  rintro _ ⟨⟩
  exact hDocument

/- Whatever else such a document holds, an object can be
   stated. -/
theorem exists_apply_restating
    {found : Object kind}
    (hFound : decode? kind document = some found) :
    ∃ made,
      Patch.apply
          ((Diff.edits wanted.toJson
            (zero kind).toJson).map Edit.instruction)
          document = .ok made :=
  (exists_apply_iff_grounded wanted hDocument hMetadata
    hFound (Or.inr rfl)).2
      (grounded_restating wanted hMetadata hSpec)

/- A document on which an object was stated states it. -/
theorem restated_of_apply
    (hApply :
      Patch.apply
          ((Diff.edits wanted.toJson
            (zero kind).toJson).map Edit.instruction)
          document = .ok made) :
    wanted.Restated [] document made := by
  have hSeparate :=
    separate_restating wanted hDocument hMetadata hSpec
  have hCarry :=
    (Diff.apply_instructions_iff _ fun _ hEdit =>
      Diff.path_ne_nil_of_mem_edits hEdit).1 hApply
  constructor
  · intro place value hPlace hValue
    have hMade := hSeparate.at?_of_mem hCarry
      (mem_edits_zero_iff.2 ⟨hPlace, value, hValue, rfl⟩)
    exact (Option.some.inj hMade).symm
  · intro path hApart _
    refine hSeparate.at?_of_apart hCarry ?_
    intro ⟨place, change⟩ hEdit
    rcases mem_edits_zero_iff.1 hEdit with
      ⟨hPlace, value, hValue, rfl⟩
    exact hApart place value hPlace hValue

/- Where an object is stated already, stating it again changes
   nothing. -/
theorem apply_restating_eq_self
    (hStated :
      ∀ place value, IsStated place →
        wanted.toJson.at? place = some value →
          document.at? place = some value) :
    Patch.apply
        ((Diff.edits wanted.toJson
          (zero kind).toJson).map Edit.instruction)
        document = .ok document := by
  refine (Diff.apply_instructions_iff _ fun _ hEdit =>
    Diff.path_ne_nil_of_mem_edits hEdit).2 ?_
  refine (separate_restating wanted hDocument hMetadata
    hSpec).carry?_eq_self ?_
  intro ⟨place, change⟩ hEdit
  rcases mem_edits_zero_iff.1 hEdit with
    ⟨hPlace, value, hValue, rfl⟩
  rw [Option.bind_some, hStated place value hPlace hValue]
  rfl

end Documents

end Object

end Converge
