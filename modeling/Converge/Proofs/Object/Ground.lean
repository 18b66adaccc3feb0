import Converge.Proofs.Diff.Ground
import Converge.Proofs.Object.Mutable

/-
  The ground that patches between objects need.

  A patch is made between objects, in which every part that
  the declaration has is there, but applied to a document,
  which a client may have written in other ways: parts of it
  may be missing, or be arrays of their fields. For a
  document that is read as the object that a patch starts
  from, and for any readable document when the patch starts
  from nothing, this is all that can go wrong: the patch is
  carried out exactly when each object is there of which it
  changes a member.

  Key definitions:
    * `Fields.hasMemberNames`: no name denotes an item

  Main declarations:
    * `Shape.needsGround`, `Fields.needsGround`: by the
      declaration
    * `Object.exists_apply_iff_grounded`
-/

namespace Converge

open Diff (NeedsGround rootEdits valueEdits)

------------------------------------------------------------
-- Names
------------------------------------------------------------

mutual

/- The names of the members that patches change below a field
   denote no items of arrays. -/
def Shape.hasMemberNames : Shape → Bool
  | .block fields => fields.hasMemberNames
  | .part fields => fields.hasMemberNames
  | _ => true

def Fields.hasMemberNames : Fields → Bool
  | .nil => true
  | .field _ wire shape rest =>
      Pointer.isMemberName wire && shape.hasMemberNames &&
        rest.hasMemberNames
  | .wireOnly wire _ rest =>
      Pointer.isMemberName wire && rest.hasMemberNames

end

theorem Fields.isMemberName_of_mem :
    ∀ {fields : Fields} {name : String},
      fields.hasMemberNames = true →
        name ∈ fields.wireNames →
          Pointer.isMemberName name = true
  | .nil, _, _, hName => nomatch hName
  | .field _ _ _ _, _, hNames, hName => by
      simp only [hasMemberNames, Bool.and_eq_true] at hNames
      rcases List.mem_cons.1 hName with rfl | hName
      · exact hNames.1.1
      · exact isMemberName_of_mem hNames.2 hName
  | .wireOnly _ _ _, _, hNames, hName => by
      simp only [hasMemberNames, Bool.and_eq_true] at hNames
      rcases List.mem_cons.1 hName with rfl | hName
      · exact hNames.1
      · exact isMemberName_of_mem hNames.2 hName

theorem Kind.hasMemberNames_spec (kind : Kind) :
    kind.spec.hasMemberNames = true := by
  cases kind <;> decide +kernel

------------------------------------------------------------
-- Leaves
------------------------------------------------------------

namespace Leaf

/- A leaf that is missing is read as one that is not
   written. -/
theorem encode_of_decode?_none
    {leaf : Leaf}
    {held : leaf.Val}
    (hRead : leaf.decode? none = some held) :
    leaf.encode held = none := by
  cases leaf <;> cases hRead <;> rfl

/- A canonical map of strings shows what it is read as. -/
theorem shows_of_decode?_textMap
    {map : SortedMap String}
    {slot : Option Json}
    (hSlot :
      ∀ value, slot = some value → value.IsCanonical)
    (hRead : Leaf.decode? .textMap slot = some map) :
    Leaf.Shows .textMap map slot := by
  cases slot with
  | none =>
      cases hRead
      exact Or.inr ⟨rfl, rfl⟩
  | some value =>
      have hPresent : decodeTextMap? value = some map := hRead
      cases value with
      | obj members =>
          rcases Option.map_eq_some_iff.1 hPresent with
            ⟨contents, hContents, _⟩
          have hSorted := (hSlot _ rfl).sorted
          have hTexts :
              ∀ key value, members.lookup key = some value →
                ∃ content, value = .str content := by
            intro key value hFound
            rcases Result.exists_of_mapM hContents
                (Keyed.mem_of_lookup hFound) with
              ⟨entry, hEntry⟩
            rcases Option.map_eq_some_iff.1 hEntry with
              ⟨content, hContent, _⟩
            cases value <;> cases hContent
            exact ⟨content, rfl⟩
          rcases exists_encodeTextMap hSorted hTexts with
            ⟨held, hHeld⟩
          rw [← hHeld, decodeTextMap?_encodeTextMap,
            Option.some.injEq] at hPresent
          rw [← hPresent, ← hHeld]
          exact Or.inl rfl
      | _ => cases hPresent

/- Edits of a map of strings need no ground but the map. -/
theorem needsGround_textMap
    (current stored : SortedMap String)
    {slot : Option Json}
    (hStored : Leaf.Shows .textMap stored slot) :
    NeedsGround
      (rootEdits [] (encode .textMap current)
        (encode .textMap stored))
      slot := by
  by_cases hEmpty : stored = SortedMap.empty
  · subst hEmpty
    exact Diff.needsGround_rootEdits_none _ slot
  · have hSlot : slot = encode .textMap stored := by
      rcases hStored with hSlot | ⟨_, hNot⟩
      · rw [encode_textMap_of_ne_empty hEmpty]
        exact hSlot
      · exact absurd hNot hEmpty
    rw [hSlot]
    by_cases hCurrent : current = SortedMap.empty
    · subst hCurrent
      exact Diff.needsGround_of_whole nofun id
    · rw [encode_textMap_of_ne_empty hCurrent,
        encode_textMap_of_ne_empty hEmpty]
      refine Diff.needsGround_obj (sorted_texts current)
        (sorted_texts stored) (sorted_texts stored)
        fun key => ?_
      refine Diff.needsGround_of_whole ?_ id
      intro value hFound
      rcases text_of_lookup hFound with ⟨content, rfl⟩
      rfl

/- Edits of a leaf, made for what is read. -/
theorem needsGround
    (leaf : Leaf)
    (current stored : leaf.Val)
    {slot : Option Json}
    (hSlot :
      ∀ value, slot = some value → value.IsCanonical)
    (hRead : leaf.decode? slot = some stored) :
    NeedsGround
      (rootEdits [] (leaf.encode current)
        (leaf.encode stored))
      slot := by
  by_cases hLeaf : leaf = .textMap
  · subst hLeaf
    exact needsGround_textMap current stored
      (shows_of_decode?_textMap hSlot hRead)
  · refine Diff.needsGround_of_whole
      (isObject_encode_eq_false hLeaf current) ?_
    intro hThere
    cases slot with
    | some value => rfl
    | none =>
        rw [encode_of_decode?_none hRead] at hThere
        cases hThere

end Leaf

------------------------------------------------------------
-- Records
------------------------------------------------------------

section Records

variable {fields : Fields}

/- Edits between records need the members of an object to
   have their ground. -/
theorem Fields.needsGround_obj
    (hWell : fields.isWellFormed = true)
    (current stored : fields.Rec)
    {members : List (String × Json)}
    (hSorted : Keyed.Sorted members)
    (hMembers :
      ∀ name, name ∈ fields.wireNames →
        NeedsGround
          (rootEdits []
            ((Json.canonicalMembers
              (fields.encode current)).lookup name)
            ((Json.canonicalMembers
              (fields.encode stored)).lookup name))
          (members.lookup name)) :
    NeedsGround
      (valueEdits []
        (.obj (Json.canonicalMembers (fields.encode current)))
        (some (.obj
          (Json.canonicalMembers (fields.encode stored)))))
      (some (.obj members)) := by
  refine Diff.needsGround_obj
    (Json.isCanonical_canonicalMembers _).sorted
    (Json.isCanonical_canonicalMembers _).sorted hSorted
    fun name => ?_
  by_cases hName : name ∈ fields.wireNames
  · exact hMembers name hName
  · rw [Fields.lookup_canonicalMembers_eq_none hWell stored
      hName]
    exact Diff.needsGround_rootEdits_none _ _

/- Edits between records need an object. -/
theorem Fields.needsGround_of_not_obj
    (hWell : fields.isWellFormed = true)
    (hNames : fields.hasMemberNames = true)
    (current stored : fields.Rec)
    {slot : Option Json}
    (hSlot : ∀ members, slot ≠ some (.obj members)) :
    NeedsGround
      (valueEdits []
        (.obj (Json.canonicalMembers (fields.encode current)))
        (some (.obj
          (Json.canonicalMembers (fields.encode stored)))))
      slot := by
  refine Diff.needsGround_of_named
    (Json.isCanonical_canonicalMembers _).sorted
    (Json.isCanonical_canonicalMembers _).sorted
    (fun name hThere => ?_) hSlot
  by_cases hName : name ∈ fields.wireNames
  · exact Fields.isMemberName_of_mem hNames hName
  rw [Fields.lookup_canonicalMembers_eq_none hWell current
      hName,
    Fields.lookup_canonicalMembers_eq_none hWell stored hName]
    at hThere
  rcases hThere with hThere | hThere <;> cases hThere

/- Edits between records, where an object is read as the
   earlier one or there is no object. -/
theorem Fields.needsGround_record
    (hWell : fields.isWellFormed = true)
    (hNames : fields.hasMemberNames = true)
    (current stored : fields.Rec)
    {slot : Option Json}
    (hObject :
      ∀ members, slot = some (.obj members) →
        Keyed.Sorted members ∧
          ∀ name, name ∈ fields.wireNames →
            NeedsGround
              (rootEdits []
                ((Json.canonicalMembers
                  (fields.encode current)).lookup name)
                ((Json.canonicalMembers
                  (fields.encode stored)).lookup name))
              (members.lookup name)) :
    NeedsGround
      (valueEdits []
        (.obj (Json.canonicalMembers (fields.encode current)))
        (some (.obj
          (Json.canonicalMembers (fields.encode stored)))))
      slot := by
  by_cases hSlot : ∃ members, slot = some (.obj members)
  · rcases hSlot with ⟨members, rfl⟩
    rcases hObject members rfl with ⟨hSorted, hMembers⟩
    exact Fields.needsGround_obj hWell current stored hSorted
      hMembers
  · exact Fields.needsGround_of_not_obj hWell hNames current
      stored fun members hEq => hSlot ⟨members, hEq⟩

end Records

mutual

/- Edits between values of a field, on what is read as the
   earlier one. -/
theorem Shape.needsGround :
    ∀ (shape : Shape) (current stored : shape.Val)
      {slot : Option Json},
      shape.isWellFormed = true → shape.isPatchable = true →
      shape.hasMemberNames = true →
      (∀ value, slot = some value → value.IsCanonical) →
      shape.decode? slot = some stored →
        NeedsGround
          (rootEdits [] (shape.slot current)
            (shape.slot stored))
          slot
  | .leaf type, current, stored, slot, _, _, _, hSlot,
      hRead => by
      have hWrite : (Shape.leaf type).slot = type.encode :=
        funext fun held => type.map_canonical_encode held
      rw [hWrite]
      exact type.needsGround current stored hSlot hRead
  | .blocks fields, current, (stored : List fields.Rec), slot,
      _, _, _, _, hRead => by
      refine Diff.needsGround_of_whole
        (fun value hValue =>
          Shape.isObject_of_slot_blocks fields current hValue)
        ?_
      intro hThere
      cases slot with
      | some value => rfl
      | none =>
          cases hRead
          cases hThere
  | .block fields, (current : Option fields.Rec),
      (stored : Option fields.Rec), slot, hWell, hPatchable,
      hNames, hSlot, hRead => by
      cases stored with
      | none => exact Diff.needsGround_rootEdits_none _ slot
      | some record =>
          cases current with
          | none =>
              refine Diff.needsGround_of_whole nofun ?_
              intro _
              cases slot with
              | some value => rfl
              | none => cases hRead
          | some wanted =>
              refine Fields.needsGround_record hWell hNames
                wanted record ?_
              rintro members rfl
              have hMembers := hSlot _ rfl
              rw [Shape.decode?_block] at hRead
              rcases Option.map_eq_some_iff.1 hRead with
                ⟨found, hFound, hSame⟩
              cases hSame
              exact ⟨hMembers.sorted,
                fields.needsGround wanted record hWell
                  hPatchable hNames
                  (fields.writes_encode wanted hWell)
                  (fields.writes_encode record hWell)
                  hMembers
                  ((Fields.decodeObject?_eq_some_iff
                    hMembers.sorted fields record).1
                      hFound)⟩
  | .part fields, current, stored, slot, hWell, hPatchable,
      hNames, hSlot, hRead => by
      have hFields :=
        (Shape.isWellFormed_part_iff.1 hWell).1
      refine Fields.needsGround_record hFields hNames current
        stored ?_
      rintro members rfl
      have hMembers := hSlot _ rfl
      exact ⟨hMembers.sorted,
        fields.needsGround current stored hFields hPatchable
          hNames (fields.writes_encode current hFields)
          (fields.writes_encode stored hFields) hMembers
          ((Fields.decodeObject?_eq_some_iff hMembers.sorted
            fields stored).1 hRead)⟩
  | .value _, _, _, _, _, hPatchable, _, _, _ =>
      nomatch hPatchable
  | .blockMap _, _, _, _, _, hPatchable, _, _, _ =>
      nomatch hPatchable
  | .observed _, _, _, _, _, hPatchable, _, _, _ =>
      nomatch hPatchable

/- Edits of members between records, on members that are read
   as the earlier one. -/
theorem Fields.needsGround :
    ∀ (fields : Fields) (current stored : fields.Rec)
      {now before members : List (String × Json)},
      fields.isWellFormed = true → fields.isPatchable = true →
      fields.hasMemberNames = true →
      fields.Writes current now → fields.Writes stored before →
      Json.IsCanonical (.obj members) →
      fields.Decodes stored members →
        ∀ name, name ∈ fields.wireNames →
          NeedsGround
            (rootEdits [] (now.lookup name)
              (before.lookup name))
            (members.lookup name)
  | .nil, _, _, _, _, _, _, _, _, _, _, _, _ => nofun
  | .field _ wire shape rest, (current, currents),
      (stored, storeds), now, before, members, hWell,
      hPatchable, hNames, hNow, hBefore, hMembers, hRead => by
      have hParts := Fields.isWellFormed_field_iff.1 hWell
      simp only [Fields.isPatchable, Bool.and_eq_true]
        at hPatchable
      simp only [Fields.hasMemberNames, Bool.and_eq_true]
        at hNames
      rw [Fields.wireNames, List.forall_mem_cons]
      constructor
      · rw [hNow.1, hBefore.1]
        exact shape.needsGround current stored hParts.2.2.1
          hPatchable.1 hNames.1.2
          (fun _ hFound => hMembers.member hFound) hRead.1
      · exact rest.needsGround currents storeds hParts.2.2.2
          hPatchable.2 hNames.2 hNow.2 hBefore.2 hMembers
          hRead.2
  | .wireOnly wire type rest, (current, currents),
      (stored, storeds), now, before, members, hWell,
      hPatchable, hNames, hNow, hBefore, hMembers, hRead => by
      have hParts := Fields.isWellFormed_wireOnly_iff.1 hWell
      simp only [Fields.hasMemberNames, Bool.and_eq_true]
        at hNames
      rw [Fields.wireNames, List.forall_mem_cons]
      constructor
      · rw [hNow.1, hBefore.1]
        exact type.needsGround current stored
          (fun _ hFound => hMembers.member hFound) hRead.1
      · exact rest.needsGround currents storeds hParts.2.2
          hPatchable hNames.2 hNow.2 hBefore.2 hMembers
          hRead.2

end

------------------------------------------------------------
-- Objects
------------------------------------------------------------

namespace Object

variable {kind : Kind}

/- Nothing is set in the object of an empty configuration. -/
theorem expand_nil (kind : Kind) :
    Object.expand kind [] = .ok (zero kind) := by
  cases kind <;> rfl

/- What an object is written as at its mutable parts, when
   nothing is set in it. -/
theorem at?_toJson_zero (kind : Kind) :
    (zero kind).toJson.at? ["metadata", "labels"] = none ∧
      (zero kind).toJson.at? ["metadata", "annotations"] =
        none ∧
      (zero kind).toJson.at? ["spec"] = some (.obj []) := by
  cases kind <;> exact ⟨rfl, rfl, rfl⟩

section Document

variable {document : Json}
variable {found : Object kind}

/- The mutable parts of a document, as they are read. -/
theorem decode?_roots
    (hDocument : document.IsCanonical)
    (hMetadata : document.HasMetadata)
    (hFound : decode? kind document = some found) :
    Leaf.decode? .textMap
          (document.at? ["metadata", "labels"]) =
        some found.metadata.labels ∧
      Leaf.decode? .textMap
          (document.at? ["metadata", "annotations"]) =
        some found.metadata.annotations ∧
      (Shape.part kind.spec).decode?
          (document.at? ["spec"]) =
        some found.spec := by
  rcases hMetadata with ⟨info, hInfo⟩
  rcases decodes_metadata hDocument hInfo hFound with
    ⟨_, _, _, hLabels, hAnnotations, _⟩
  rw [Json.at?_metadata hInfo, Json.at?_metadata hInfo,
    Json.at?_singleton]
  refine ⟨hLabels, hAnnotations, ?_⟩
  cases document with
  | obj members =>
      exact ((decode?_obj_eq_some_iff hDocument.sorted
        found).1 hFound).2.2.2.1
  | _ => cases hInfo

/- Edits made for the object that a document is read as need
   their ground only. -/
theorem needsGround_read
    (wanted : Object kind)
    (hDocument : document.IsCanonical)
    (hMetadata : document.HasMetadata)
    (hFound : decode? kind document = some found) :
    ∀ root, root ∈ Diff.mutableRoots →
      NeedsGround
        (rootEdits [] (wanted.toJson.at? root)
          (found.toJson.at? root))
        (document.at? root) := by
  rcases decode?_roots hDocument hMetadata hFound with
    ⟨hLabels, hAnnotations, hSpec⟩
  rcases wanted.at?_toJson with ⟨hOne, hTwo, hThree⟩
  rcases found.at?_toJson with ⟨hFour, hFive, hSix⟩
  have hInside :
      ∀ root value, document.at? root = some value →
        value.IsCanonical :=
    fun _ _ hAt => hDocument.at? hAt
  intro root hRoot
  simp only [Diff.mutableRoots, List.mem_cons,
    List.not_mem_nil, or_false] at hRoot
  rcases hRoot with rfl | rfl | rfl
  · rw [hOne, hFour]
    exact Leaf.needsGround .textMap _ _ (hInside _) hLabels
  · rw [hTwo, hFive]
    exact Leaf.needsGround .textMap _ _ (hInside _)
      hAnnotations
  · rw [hThree, hSix]
    exact (Shape.part kind.spec).needsGround wanted.spec
      found.spec kind.isWellFormed_specPart
      kind.isPatchable_spec kind.hasMemberNames_spec
      (hInside _) hSpec

/- So do edits that state all of an object. -/
theorem needsGround_zero
    (wanted : Object kind)
    (hDocument : document.IsCanonical) :
    ∀ root, root ∈ Diff.mutableRoots →
      NeedsGround
        (rootEdits [] (wanted.toJson.at? root)
          ((zero kind).toJson.at? root))
        (document.at? root) := by
  rcases at?_toJson_zero kind with ⟨hOne, hTwo, hThree⟩
  have hWell :=
    (Shape.isWellFormed_part_iff.1
      kind.isWellFormed_specPart).1
  have hZero :
      Json.canonicalMembers
          (kind.spec.encode kind.spec.zero) = [] := by
    cases kind <;> rfl
  intro root hRoot
  simp only [Diff.mutableRoots, List.mem_cons,
    List.not_mem_nil, or_false] at hRoot
  rcases hRoot with rfl | rfl | rfl
  · rw [hOne]
    exact Diff.needsGround_rootEdits_none _ _
  · rw [hTwo]
    exact Diff.needsGround_rootEdits_none _ _
  · rw [hThree, wanted.at?_toJson.2.2, ← hZero]
    refine Fields.needsGround_record hWell
      kind.hasMemberNames_spec wanted.spec kind.spec.zero ?_
    intro members hMembers
    refine ⟨(hDocument.at? hMembers).sorted, fun name _ => ?_⟩
    rw [hZero]
    exact Diff.needsGround_rootEdits_none _ _

/- A patch from the object that a document is read as, or
   from nothing, to any other object is carried out on the
   document exactly when its ground is there. -/
theorem exists_apply_iff_grounded
    (wanted : Object kind)
    {previous : Object kind}
    (hDocument : document.IsCanonical)
    (hMetadata : document.HasMetadata)
    (hFound : decode? kind document = some found)
    (hPrevious :
      previous.SameMutable found ∨ previous = zero kind) :
    (∃ after,
        Patch.apply
            ((Diff.edits wanted.toJson previous.toJson).map
              Edit.instruction)
            document = .ok after) ↔
      Diff.Grounded (Diff.edits wanted.toJson previous.toJson)
        (some document) := by
  rcases hPrevious with hSame | rfl
  · rw [wanted.edits_congr hSame]
    exact Diff.exists_apply_iff_grounded
      wanted.isCanonical_toJson hDocument hMetadata
      (needsGround_read wanted hDocument hMetadata hFound)
  · exact Diff.exists_apply_iff_grounded
      wanted.isCanonical_toJson hDocument hMetadata
      (needsGround_zero wanted hDocument)

end Document

end Object

end Converge
