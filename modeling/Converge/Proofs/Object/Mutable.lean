import Converge.Proofs.Object.TreeForm
import Converge.Proofs.Object.WireForm
import Converge.Proofs.Schema.Nesting

/-
  Documents between two objects, applied to a third.

  The document that leads from one object to another may be
  applied to something that holds neither. If it is accepted,
  the mutable parts are again those of some object. They are
  the wanted ones exactly when the document has an edit at or
  above every place where what was stored differs from what
  is wanted.

  Main declarations:
    * `Object.exists_apply_edits`: a document made for what is
      stored is accepted, and leads to the wanted object
    * `Object.showsMutable_of_apply`: what any other document
      leads to
    * `Object.eq_nil_of_diffConfigs`: when there is nothing to
      edit
-/

namespace Converge

namespace Diff

------------------------------------------------------------
-- Coverage of the Mutable Parts
------------------------------------------------------------

/- The places of different mutable parts lie apart. -/
theorem eq_of_prefix_roots
    {root other path rest : List String}
    (hRoot : root ∈ mutableRoots)
    (hOther : other ∈ mutableRoots)
    (hPrefix : root ++ path <+: other ++ rest) :
    root = other := by
  simp only [mutableRoots, List.mem_cons, List.not_mem_nil,
    or_false] at hRoot hOther
  rcases hRoot with rfl | rfl | rfl <;>
    rcases hOther with rfl | rfl | rfl <;>
      simp_all

/- Edits of an object cover others when they do so in each of
   its mutable parts. -/
theorem covers_edits_iff
    {current previous stored : Json} :
    Covers (edits current previous) (edits current stored) ↔
      ∀ root, root ∈ mutableRoots →
        Covers
          (rootEdits [] (current.at? root)
            (previous.at? root))
          (rootEdits [] (current.at? root)
            (stored.at? root)) := by
  constructor
  · intro hCovers root hRoot inner hInner
    have hOther :
        Edit.below root inner ∈ edits current stored := by
      refine List.mem_flatMap.2 ⟨root, hRoot, ?_⟩
      rw [rootEdits_eq_below]
      exact List.mem_map.2 ⟨inner, hInner, rfl⟩
    rcases hCovers _ hOther with ⟨edit, hEdit, hPrefix⟩
    rcases List.mem_flatMap.1 hEdit with
      ⟨place, hFrom, hMember⟩
    rw [rootEdits_eq_below] at hMember
    rcases List.mem_map.1 hMember with ⟨found, hFound, rfl⟩
    have hSame := eq_of_prefix_roots hFrom hRoot hPrefix
    subst hSame
    exact ⟨found, hFound,
      (List.prefix_append_right_inj place).1 hPrefix⟩
  · intro hCovers other hOther
    rcases List.mem_flatMap.1 hOther with
      ⟨root, hRoot, hMember⟩
    rw [rootEdits_eq_below] at hMember
    rcases List.mem_map.1 hMember with ⟨inner, hInner, rfl⟩
    rcases hCovers root hRoot inner hInner with
      ⟨found, hFound, hPrefix⟩
    refine ⟨Edit.below root found, ?_,
      (List.prefix_append_right_inj root).2 hPrefix⟩
    refine List.mem_flatMap.2 ⟨root, hRoot, ?_⟩
    rw [rootEdits_eq_below]
    exact List.mem_map.2 ⟨found, hFound, rfl⟩

end Diff

namespace Object

variable {kind : Kind}

------------------------------------------------------------
-- Mutable Parts on the Wire
------------------------------------------------------------

/- What an object is written as at its mutable parts. -/
theorem at?_toJson (object : Object kind) :
    object.toJson.at? ["metadata", "labels"] =
        Leaf.encode .textMap object.metadata.labels ∧
      object.toJson.at? ["metadata", "annotations"] =
        Leaf.encode .textMap object.metadata.annotations ∧
      object.toJson.at? ["spec"] =
        (Shape.part kind.spec).slot object.spec := by
  have hWrites := kind.declaration.writes_encode
    object.toRecord kind.isWellFormed_declaration
  rcases hWrites with ⟨_, _, hMetadata, hSpec, _⟩
  have hWell : Catalog.metadata.isWellFormed = true := by
    decide +kernel
  have hInside :=
    Catalog.metadata.writes_encode object.metadata hWell
  rcases hInside with ⟨_, _, _, hLabels, hAnnotations, _⟩
  have hInfo :
      object.toJson.member? "metadata" =
        some (.obj (Json.canonicalMembers
          (Catalog.metadata.encode object.metadata))) := by
    rw [toJson_eq]
    exact hMetadata
  refine ⟨?_, ?_, ?_⟩
  · rw [Json.at?_metadata hInfo, hLabels]
    exact Leaf.map_canonical_encode .textMap _
  · rw [Json.at?_metadata hInfo, hAnnotations]
    exact Leaf.map_canonical_encode .textMap _
  · rw [Json.at?_singleton, toJson_eq]
    exact hSpec

/- A specification is a block that patches can lead
   anywhere. -/
theorem carries_spec
    (wanted : Object kind)
    {stored : Object kind}
    {document : Json}
    (hStored : stored.ShowsMutable document) :
    Carries (Shape.part kind.spec).slot
      (Shape.part kind.spec).Shows wanted.spec stored.spec
      (document.at? ["spec"]) :=
  (Shape.part kind.spec).carries wanted.spec stored.spec
    kind.isWellFormed_specPart kind.isPatchable_spec
    hStored.spec

/- The edits of each mutable part, on what shows another
   object. -/
theorem carry?_root
    (wanted : Object kind)
    {stored : Object kind}
    {document : Json}
    (hStored : stored.ShowsMutable document) :
    ∀ root, root ∈ Diff.mutableRoots →
      ∃ made,
        Diff.carry?
            (Diff.rootEdits [] (wanted.toJson.at? root)
              (stored.toJson.at? root))
            (document.at? root) =
          some made := by
  have hWanted := wanted.at?_toJson
  have hPrevious := stored.at?_toJson
  intro root hRoot
  simp only [Diff.mutableRoots, List.mem_cons,
    List.not_mem_nil, or_false] at hRoot
  rcases hRoot with rfl | rfl | rfl
  · rw [hWanted.1, hPrevious.1]
    exact (Leaf.carries .textMap wanted.metadata.labels
      stored.metadata.labels hStored.labels).fresh
  · rw [hWanted.2.1, hPrevious.2.1]
    exact (Leaf.carries .textMap wanted.metadata.annotations
      stored.metadata.annotations hStored.annotations).fresh
  · rw [hWanted.2.2, hPrevious.2.2]
    exact (wanted.carries_spec hStored).fresh

------------------------------------------------------------
-- Documents
------------------------------------------------------------

/- What a document of edits leads to, when it is accepted by
   what shows some object. -/
theorem showsMutable_of_apply
    (wanted previous : Object kind)
    {stored : Object kind}
    {document after : Json}
    (hDocument : document.IsCanonical)
    (hMetadata : document.HasMetadata)
    (hStored : stored.ShowsMutable document)
    (hApply :
      Patch.apply
          ((Diff.edits wanted.toJson previous.toJson).map
            Edit.instruction)
          document = .ok after) :
    (∃ left : Object kind, left.ShowsMutable after) ∧
      (wanted.ShowsMutable after ↔
        Diff.Covers
          (Diff.edits wanted.toJson previous.toJson)
          (Diff.edits wanted.toJson stored.toJson)) := by
  have hCarry :=
    ((Diff.apply_edits_iff wanted.isCanonical_toJson hDocument
      hMetadata).1 hApply).2.2.2
  have hWanted := wanted.at?_toJson
  have hPrevious := previous.at?_toJson
  have hThen := stored.at?_toJson
  have hLabels := Leaf.carries .textMap wanted.metadata.labels
    stored.metadata.labels hStored.labels
  have hAnnotations := Leaf.carries .textMap
    wanted.metadata.annotations stored.metadata.annotations
    hStored.annotations
  have hSpec := wanted.carries_spec hStored
  have hLabelsMade :=
    hCarry _ (.head _)
  have hAnnotationsMade :=
    hCarry _ (.tail _ (.head _))
  have hSpecMade :=
    hCarry _ (.tail _ (.tail _ (.head _)))
  rw [hWanted.1, hPrevious.1] at hLabelsMade
  rw [hWanted.2.1, hPrevious.2.1] at hAnnotationsMade
  rw [hWanted.2.2, hPrevious.2.2] at hSpecMade
  constructor
  · rcases hLabels.shown _ _ hLabelsMade with ⟨labels, hFirst⟩
    rcases hAnnotations.shown _ _ hAnnotationsMade with
      ⟨annotations, hSecond⟩
    rcases hSpec.shown _ _ hSpecMade with ⟨spec, hThird⟩
    exact ⟨⟨"", "", (("", "", "", labels, annotations,
      stored.metadata.2.2.2.2.2), spec, stored.content.2.2)⟩,
      hFirst, hSecond, hThird⟩
  · rw [Diff.covers_edits_iff]
    have hLabelsIff := hLabels.reaches_iff _ _ hLabelsMade
    have hAnnotationsIff :=
      hAnnotations.reaches_iff _ _ hAnnotationsMade
    have hSpecIff := hSpec.reaches_iff _ _ hSpecMade
    simp only [Diff.mutableRoots, List.forall_mem_cons,
      hWanted.1, hPrevious.1, hThen.1, hWanted.2.1,
      hPrevious.2.1, hThen.2.1, hWanted.2.2, hPrevious.2.2,
      hThen.2.2, ← hLabelsIff, ← hAnnotationsIff, ← hSpecIff]
    constructor
    · intro h
      exact ⟨h.labels, h.annotations, h.spec,
        fun _ hNone => absurd hNone List.not_mem_nil⟩
    · rintro ⟨hFirst, hSecond, hThird, _⟩
      exact ⟨hFirst, hSecond, hThird⟩

/- The document made for what is stored is accepted, and
   leads to the wanted object. -/
theorem exists_apply_edits
    (wanted : Object kind)
    {stored : Object kind}
    {document : Json}
    (hDocument : document.IsCanonical)
    (hMetadata : document.HasMetadata)
    (hStored : stored.ShowsMutable document) :
    ∃ after,
      Patch.apply
          ((Diff.edits wanted.toJson stored.toJson).map
            Edit.instruction)
          document = .ok after ∧
        wanted.ShowsMutable after := by
  rcases Diff.exists_apply_edits wanted.isCanonical_toJson
      hDocument hMetadata (wanted.carry?_root hStored) with
    ⟨after, hApply⟩
  have hReaches :=
    (wanted.showsMutable_of_apply stored hDocument hMetadata
      hStored hApply).2
  exact ⟨after, hApply, hReaches.2 (.refl _)⟩

------------------------------------------------------------
-- The Same Mutable Parts
------------------------------------------------------------

/- Two objects have the same labels, annotations and
   specification. -/
structure SameMutable (left right : Object kind) : Prop where
  labels : left.metadata.labels = right.metadata.labels
  annotations :
    left.metadata.annotations = right.metadata.annotations
  spec : left.spec = right.spec

theorem SameMutable.symm
    {left right : Object kind}
    (h : left.SameMutable right) :
    right.SameMutable left :=
  ⟨h.labels.symm, h.annotations.symm, h.spec.symm⟩

theorem SameMutable.trans
    {first second third : Object kind}
    (hFirst : first.SameMutable second)
    (hSecond : second.SameMutable third) :
    first.SameMutable third :=
  ⟨hFirst.labels.trans hSecond.labels,
    hFirst.annotations.trans hSecond.annotations,
    hFirst.spec.trans hSecond.spec⟩

theorem SameMutable.shows
    {left right : Object kind}
    {document : Json}
    (hSame : left.SameMutable right)
    (hRight : right.ShowsMutable document) :
    left.ShowsMutable document := by
  refine ⟨?_, ?_, ?_⟩
  · rw [hSame.labels]
    exact hRight.labels
  · rw [hSame.annotations]
    exact hRight.annotations
  · rw [hSame.spec]
    exact hRight.spec

/- What a document is read as has the mutable parts that the
   document shows. -/
theorem sameMutable_of_decode
    {found shown : Object kind}
    {document : Json}
    (hDocument : document.IsCanonical)
    (hMetadata : document.HasMetadata)
    (hFound : decode? kind document = some found)
    (hShown : shown.ShowsMutable document) :
    found.SameMutable shown := by
  rcases hMetadata with ⟨info, hInfo⟩
  have hRead := decodes_metadata hDocument hInfo hFound
  have hInside := Json.at?_metadata hInfo
  rcases hRead with ⟨_, _, _, hLabels, hAnnotations, _⟩
  have hShownLabels := hShown.labels
  have hShownAnnotations := hShown.annotations
  have hShownSpec := hShown.spec
  rw [hInside] at hShownLabels hShownAnnotations
  rw [Json.at?_singleton] at hShownSpec
  cases document with
  | obj members =>
      rcases (decode?_obj_eq_some_iff hDocument.sorted
        found).1 hFound with ⟨_, _, _, hSpec, _⟩
      refine ⟨?_, ?_, ?_⟩
      · have hBoth := hLabels.symm.trans
          (Leaf.decode?_of_shows .textMap _ hShownLabels)
        exact Option.some.inj hBoth
      · have hBoth := hAnnotations.symm.trans
          (Leaf.decode?_of_shows .textMap _ hShownAnnotations)
        exact Option.some.inj hBoth
      · have hBoth := hSpec.symm.trans
          ((Shape.part kind.spec).decode?_of_shows shown.spec
            _ kind.isWellFormed_specPart hShownSpec)
        exact Option.some.inj hBoth
  | _ => cases hInfo

/- A configuration keeps the mutable parts of an object. -/
theorem sameMutable_settled (object : Object kind) :
    object.settled.SameMutable object :=
  ⟨rfl, rfl, rfl⟩

/- Edits depend on the mutable parts alone, and so does the
   document of edits. -/
theorem edits_congr
    (wanted : Object kind)
    {left right : Object kind}
    (hSame : left.SameMutable right) :
    Diff.edits wanted.toJson left.toJson =
      Diff.edits wanted.toJson right.toJson := by
  have hLeft := left.at?_toJson
  have hRight := right.at?_toJson
  simp only [Diff.edits, Diff.mutableRoots,
    List.flatMap_cons, List.flatMap_nil, hLeft.1, hLeft.2.1,
    hLeft.2.2, hRight.1, hRight.2.1, hRight.2.2, hSame.labels,
    hSame.annotations, hSame.spec]

theorem diff_congr
    (wanted : Object kind)
    {left right : Object kind}
    (hSame : left.SameMutable right) :
    wanted.diff left = wanted.diff right := by
  unfold diff
  rw [wanted.edits_congr hSame]

/- Between an object and itself there is nothing to edit. -/
theorem diff_self (object : Object kind) :
    object.diff object = [] := by
  have hNone :
      ∀ root,
        Diff.rootEdits root (object.toJson.at? root)
            (object.toJson.at? root) = [] :=
    fun root => Diff.rootEdits_self root fun _ hSlot =>
      object.isCanonical_toJson.at? hSlot
  have hEdits :
      Diff.edits object.toJson object.toJson = [] := by
    simp only [Diff.edits, hNone, Diff.mutableRoots,
      List.flatMap_cons, List.flatMap_nil, List.append_nil]
  unfold diff
  rw [hEdits]
  rfl

/- A configuration that has the mutable parts of the snapshot
   asks for nothing. -/
theorem eq_nil_of_diffConfigs
    {config : ConfigMap}
    {wanted held : Object kind}
    {document : PatchDocument}
    (hWanted : expand kind config = .ok wanted)
    (hHeld : held.SameMutable wanted)
    (hDocument :
      diffConfigs kind config held.flatten = .ok document) :
    document = [] := by
  rcases Result.bind_eq_ok_iff.1 hDocument with
    ⟨current, hCurrent, hRest⟩
  rcases Result.bind_eq_ok_iff.1 hRest with
    ⟨previous, hPrevious, hDone⟩
  cases hWanted.symm.trans hCurrent
  have hSettled := held.expand_flatten.eq_of_ok hPrevious
  have hSame : previous.SameMutable wanted := by
    rw [hSettled]
    exact held.sameMutable_settled.trans hHeld
  cases hDone
  rw [wanted.diff_congr hSame, wanted.diff_self]

/- So does a configuration that is the snapshot. -/
theorem eq_nil_of_diffConfigs_self
    {config : ConfigMap}
    {document : PatchDocument}
    (hDocument :
      diffConfigs kind config config = .ok document) :
    document = [] := by
  rcases Result.bind_eq_ok_iff.1 hDocument with
    ⟨current, hCurrent, hRest⟩
  rcases Result.bind_eq_ok_iff.1 hRest with
    ⟨previous, hPrevious, hDone⟩
  cases hCurrent.symm.trans hPrevious
  cases hDone
  exact current.diff_self

/- An empty document changes nothing. -/
theorem eq_of_apply_of_diff_eq_nil
    {wanted previous : Object kind}
    {document after : Json}
    (hEmpty : wanted.diff previous = [])
    (hApply :
      Patch.apply
          ((Diff.edits wanted.toJson previous.toJson).map
            Edit.instruction)
          document = .ok after) :
    after = document := by
  have hNone :
      Diff.edits wanted.toJson previous.toJson = [] :=
    List.map_eq_nil_iff.1 hEmpty
  rw [hNone] at hApply
  cases hApply
  rfl

/- Where the specifications are the same, edits leave the
   stored one as it is. -/
theorem at?_spec_of_apply
    {wanted previous : Object kind}
    {document after : Json}
    (hDocument : document.IsCanonical)
    (hMetadata : document.HasMetadata)
    (hSpec : wanted.spec = previous.spec)
    (hApply :
      Patch.apply
          ((Diff.edits wanted.toJson previous.toJson).map
            Edit.instruction)
          document = .ok after) :
    after.at? ["spec"] = document.at? ["spec"] := by
  have hCarry :=
    ((Diff.apply_edits_iff wanted.isCanonical_toJson hDocument
      hMetadata).1 hApply).2.2.2 _
        (.tail _ (.tail _ (.head _)))
  have hNone :
      Diff.rootEdits [] (wanted.toJson.at? ["spec"])
          (previous.toJson.at? ["spec"]) = [] := by
    rw [wanted.at?_toJson.2.2, previous.at?_toJson.2.2, hSpec]
    exact Diff.rootEdits_self [] fun _ hSlot =>
      Shape.isCanonical_of_slot hSlot
  rw [hNone] at hCarry
  exact (Option.some.inj hCarry).symm

end Object

end Converge
