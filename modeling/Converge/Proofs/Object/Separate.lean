import Converge.Proofs.Diff.Apart
import Converge.Proofs.Object.Ground

/-
  Diffs of several clients that start from one object.

  The places of a diff are those that its entries spell. Where
  the places of diffs lie apart, and a document is read as the
  object that the diffs start from, the edits of all of them
  keep apart on the document. So all of them can be carried
  out on it, in any order.

  Key definitions:
    * `PatchDocument.places`, `PatchDocument.Apart`: where
      documents say something
    * `PatchDocument.touchesSpec`: whether the specification
      is concerned
    * `Object.rootEdits`: the edits of several diffs

  Main declarations:
    * `Object.separate_rootEdits`,
      `Object.exists_carry?_rootEdits`: they can be carried
      out together
    * `Object.at?_of_mem_places`: what becomes of a place
    * `Object.spec_changes_iff`: when a specification changes
-/

namespace Converge

------------------------------------------------------------
-- Places of Documents
------------------------------------------------------------

namespace PatchDocument

/- The places that the entries of a document spell. -/
def places (document : PatchDocument) : List (List String) :=
  document.filterMap fun entry => Pointer.read? entry.path

/- No place of one document leads to or into one of the
   other. -/
def Apart (left right : PatchDocument) : Prop :=
  ∀ one, one ∈ left.places →
    ∀ other, other ∈ right.places →
      ¬one <+: other ∧ ¬other <+: one

theorem Apart.symm
    {left right : PatchDocument}
    (h : left.Apart right) :
    right.Apart left :=
  fun other hOther one hOne => (h one hOne other hOther).symm

instance (left right : PatchDocument) :
    Decidable (left.Apart right) :=
  inferInstanceAs (Decidable
    (∀ one, one ∈ left.places →
      ∀ other, other ∈ right.places →
        ¬one <+: other ∧ ¬other <+: one))

/- Some place is the specification or lies inside of it. -/
def touchesSpec (document : PatchDocument) : Bool :=
  document.places.any fun place => place.head? == some "spec"

/- Every entry that is written of an edit spells its path. -/
theorem places_ofEdits (edits : List Edit) :
    (ofEdits edits).places = edits.map Edit.path := by
  have hPath :
      ∀ edit,
        Pointer.read? (PatchEntry.ofEdit edit).path =
          some edit.path := by
    rintro ⟨path, change⟩
    cases change <;> exact Pointer.read?_text path
  rw [places, ofEdits, List.filterMap_map]
  simp only [Function.comp_def, hPath,
    List.filterMap_eq_map']

end PatchDocument

/- What a change makes of a place does not depend on what was
   there. -/
theorem Change.eq_of_onSlot?
    {change : Change}
    {slot other made also : Option Json}
    (hMade : change.onSlot? slot = some made)
    (hAlso : change.onSlot? other = some also) :
    made = also := by
  cases change <;> cases slot <;> cases other <;>
    simp_all [onSlot?]

namespace Object

variable {kind : Kind}

/- The places of a diff lie at or below the mutable parts. -/
theorem mem_places_diff_iff
    {wanted found : Object kind}
    {place : List String} :
    place ∈ (wanted.diff found).places ↔
      ∃ root, root ∈ Diff.mutableRoots ∧
        ∃ edit,
          edit ∈
              Diff.rootEdits [] (wanted.toJson.at? root)
                (found.toJson.at? root) ∧
            root ++ edit.path = place := by
  rw [diff, PatchDocument.places_ofEdits]
  constructor
  · intro hPlace
    rcases List.mem_map.1 hPlace with ⟨edit, hEdit, rfl⟩
    rcases List.mem_flatMap.1 hEdit with
      ⟨root, hRoot, hMember⟩
    rw [Diff.rootEdits_eq_below] at hMember
    rcases List.mem_map.1 hMember with ⟨inner, hInner, rfl⟩
    exact ⟨root, hRoot, inner, hInner, rfl⟩
  · rintro ⟨root, hRoot, inner, hInner, rfl⟩
    refine List.mem_map.2 ⟨inner.below root, ?_, rfl⟩
    refine List.mem_flatMap.2 ⟨root, hRoot, ?_⟩
    rw [Diff.rootEdits_eq_below]
    exact List.mem_map.2 ⟨inner, hInner, rfl⟩

theorem touchesSpec_diff_iff
    {wanted found : Object kind} :
    (wanted.diff found).touchesSpec = true ↔
      Diff.rootEdits [] (wanted.toJson.at? ["spec"])
          (found.toJson.at? ["spec"]) ≠ [] := by
  rw [PatchDocument.touchesSpec, List.any_eq_true]
  constructor
  · rintro ⟨place, hPlace, hHead⟩
    rcases mem_places_diff_iff.1 hPlace with
      ⟨root, hRoot, edit, hEdit, rfl⟩
    simp only [Diff.mutableRoots, List.mem_cons,
      List.not_mem_nil, or_false] at hRoot
    rcases hRoot with rfl | rfl | rfl
    · simp at hHead
    · simp at hHead
    · exact List.ne_nil_of_mem hEdit
  · intro hSome
    rcases List.exists_mem_of_ne_nil _ hSome with
      ⟨edit, hEdit⟩
    refine ⟨["spec"] ++ edit.path,
      mem_places_diff_iff.2
        ⟨["spec"], by simp [Diff.mutableRoots], edit, hEdit,
          rfl⟩,
      by simp⟩

------------------------------------------------------------
-- Edits of Several Diffs
------------------------------------------------------------

/- The edits at a mutable part that lead from one object
   towards several others. -/
def rootEdits
    (found : Object kind)
    (wanted : List (Object kind))
    (root : List String) :
    List Edit :=
  wanted.flatMap fun object =>
    Diff.rootEdits [] (object.toJson.at? root)
      (found.toJson.at? root)

theorem rootEdits_singleton
    (found object : Object kind)
    (root : List String) :
    found.rootEdits [object] root =
      Diff.rootEdits [] (object.toJson.at? root)
        (found.toJson.at? root) :=
  List.flatMap_singleton _ _

theorem rootEdits_concat
    (found object : Object kind)
    (wanted : List (Object kind))
    (root : List String) :
    found.rootEdits (wanted ++ [object]) root =
      found.rootEdits wanted root ++
        Diff.rootEdits [] (object.toJson.at? root)
          (found.toJson.at? root) := by
  rw [rootEdits, List.flatMap_append,
    List.flatMap_singleton]
  rfl

section Document

variable {found : Object kind}
variable {wanted : List (Object kind)}
variable {document : Json}
variable {root : List String}

/- The way to each edit towards another object leads through
   objects, where a document is read as the first one. -/
theorem lands_of_mem_rootEdits
    (object : Object kind)
    (hDocument : document.IsCanonical)
    (hMetadata : document.HasMetadata)
    (hFound : decode? kind document = some found)
    (hShown : found.ShowsMutable document)
    (hRoot : root ∈ Diff.mutableRoots) :
    ∀ edit,
      edit ∈
          Diff.rootEdits [] (object.toJson.at? root)
            (found.toJson.at? root) →
        edit.Lands (document.at? root) := by
  have hGrounded :=
    (needsGround_read object hDocument hMetadata hFound root
      hRoot).1 (object.carry?_root hShown root hRoot)
  intro edit hEdit
  exact Edit.lands_of_grounded
    (fun _ hAt => hDocument.at? hAt) (hGrounded edit hEdit)

/- The edits of diffs whose places lie apart keep apart. -/
theorem separate_rootEdits
    (hDocument : document.IsCanonical)
    (hMetadata : document.HasMetadata)
    (hFound : decode? kind document = some found)
    (hShown : found.ShowsMutable document)
    (hApart :
      wanted.Pairwise fun left right =>
        (left.diff found).Apart (right.diff found))
    (hRoot : root ∈ Diff.mutableRoots) :
    Diff.Separate (found.rootEdits wanted root)
      (document.at? root) := by
  constructor
  · apply List.pairwise_flatMap.2
    constructor
    · intro object _
      exact Diff.memberwise_apart.place
        (fun _ hAt => object.isCanonical_toJson.at? hAt)
        fun _ hAt => found.isCanonical_toJson.at? hAt
    · refine hApart.imp ?_
      intro left right hPlaces one hOne other hOther
      have hBoth := hPlaces
        (root ++ one.path)
        (mem_places_diff_iff.2
          ⟨root, hRoot, one, hOne, rfl⟩)
        (root ++ other.path)
        (mem_places_diff_iff.2
          ⟨root, hRoot, other, hOther, rfl⟩)
      exact hBoth.imp
        (mt (List.prefix_append_right_inj root).2)
        (mt (List.prefix_append_right_inj root).2)
  · intro edit hEdit
    rcases List.mem_flatMap.1 hEdit with ⟨object, _, hOne⟩
    exact lands_of_mem_rootEdits object hDocument hMetadata
      hFound hShown hRoot edit hOne

/- They can be carried out together. -/
theorem exists_carry?_rootEdits
    (hDocument : document.IsCanonical)
    (hMetadata : document.HasMetadata)
    (hFound : decode? kind document = some found)
    (hShown : found.ShowsMutable document)
    (hApart :
      wanted.Pairwise fun left right =>
        (left.diff found).Apart (right.diff found))
    (hRoot : root ∈ Diff.mutableRoots) :
    ∃ made,
      Diff.carry? (found.rootEdits wanted root)
        (document.at? root) = some made := by
  have hAll := separate_rootEdits hDocument hMetadata hFound
    hShown hApart hRoot
  refine hAll.exists_carry?_iff.2 fun edit hEdit => ?_
  -- what an edit makes of its place is seen where the edits
  -- of its own diff are carried out alone
  rcases List.mem_flatMap.1 hEdit with ⟨object, _, hOne⟩
  have hAlone :
      Diff.Separate (found.rootEdits [object] root)
        (document.at? root) :=
    separate_rootEdits hDocument hMetadata hFound hShown
      (List.pairwise_singleton _ _) hRoot
  rw [rootEdits_singleton] at hAlone
  exact hAlone.exists_carry?_iff.1
    (object.carry?_root hShown root hRoot) edit hOne

/- What an edit makes of its place is what the object has
   there that it leads to. -/
theorem onSlot?_of_mem_rootEdits
    (object found : Object kind)
    (hRoot : root ∈ Diff.mutableRoots)
    {edit : Edit}
    (hEdit :
      edit ∈
        Diff.rootEdits [] (object.toJson.at? root)
          (found.toJson.at? root)) :
    edit.change.onSlot?
        ((found.toJson.at? root).bind (Json.at? edit.path)) =
      some
        ((object.toJson.at? root).bind
          (Json.at? edit.path)) := by
  rcases found.showsMutable_toJson with ⟨hMetadata, hShown⟩
  have hAlone :
      Diff.Separate (found.rootEdits [object] root)
        (found.toJson.at? root) :=
    separate_rootEdits found.isCanonical_toJson hMetadata
      found.decode?_toJson hShown
      (List.pairwise_singleton _ _) hRoot
  rw [rootEdits_singleton] at hAlone
  have hReached :
      Diff.carry?
          (Diff.rootEdits [] (object.toJson.at? root)
            (found.toJson.at? root))
          (found.toJson.at? root) =
        some (object.toJson.at? root) :=
    Diff.carry?_rootEdits
      (fun _ hAt => object.isCanonical_toJson.at? hAt)
      fun _ hAt => found.isCanonical_toJson.at? hAt
  exact hAlone.at?_of_mem hReached hEdit

------------------------------------------------------------
-- What Becomes of the Places
------------------------------------------------------------

/- A place of a diff holds what the object has there that the
   diff leads to. -/
theorem at?_of_mem_places
    {after : Json}
    {object : Object kind}
    {place : List String}
    (hSeparate :
      ∀ root, root ∈ Diff.mutableRoots →
        Diff.Separate (found.rootEdits wanted root)
          (document.at? root))
    (hCarry :
      ∀ root, root ∈ Diff.mutableRoots →
        Diff.carry? (found.rootEdits wanted root)
            (document.at? root) =
          some (after.at? root))
    (hObject : object ∈ wanted)
    (hPlace : place ∈ (object.diff found).places) :
    after.at? place = object.toJson.at? place := by
  rcases mem_places_diff_iff.1 hPlace with
    ⟨root, hRoot, edit, hEdit, rfl⟩
  have hMember : edit ∈ found.rootEdits wanted root :=
    List.mem_flatMap.2 ⟨object, hObject, hEdit⟩
  have hMade := (hSeparate root hRoot).at?_of_mem
    (hCarry root hRoot) hMember
  have hThere := onSlot?_of_mem_rootEdits object found hRoot
    hEdit
  rw [Json.at?_append, Json.at?_append]
  exact Change.eq_of_onSlot? hMade hThere

/- A place inside of a mutable part holds what it held, if it
   lies apart from those of all diffs. -/
theorem at?_of_apart_places
    {after : Json}
    {rest : List String}
    (hRoot : root ∈ Diff.mutableRoots)
    (hSeparate :
      Diff.Separate (found.rootEdits wanted root)
        (document.at? root))
    (hCarry :
      Diff.carry? (found.rootEdits wanted root)
          (document.at? root) =
        some (after.at? root))
    (hApart :
      ∀ object, object ∈ wanted →
        ∀ place, place ∈ (object.diff found).places →
          ¬place <+: root ++ rest ∧
            ¬root ++ rest <+: place) :
    after.at? (root ++ rest) =
      document.at? (root ++ rest) := by
  rw [Json.at?_append, Json.at?_append]
  refine hSeparate.at?_of_apart hCarry fun edit hEdit => ?_
  rcases List.mem_flatMap.1 hEdit with
    ⟨object, hObject, hOne⟩
  have hBoth := hApart object hObject (root ++ edit.path)
    (mem_places_diff_iff.2 ⟨root, hRoot, edit, hOne, rfl⟩)
  exact hBoth.imp
    (mt (List.prefix_append_right_inj root).2)
    (mt (List.prefix_append_right_inj root).2)

/- The specification of a document is changed exactly by the
   diffs that are concerned with it, also where other diffs
   were carried out before. -/
theorem spec_changes_iff
    {done : List (Object kind)}
    {object : Object kind}
    {between made : Option Json}
    (hShown : found.ShowsMutable document)
    (hSeparate :
      Diff.Separate
        (found.rootEdits (done ++ [object]) ["spec"])
        (document.at? ["spec"]))
    (hBetween :
      Diff.carry? (found.rootEdits done ["spec"])
          (document.at? ["spec"]) =
        some between)
    (hMade :
      Diff.carry?
          (Diff.rootEdits [] (object.toJson.at? ["spec"])
            (found.toJson.at? ["spec"]))
          between =
        some made) :
    made = between ↔
      (object.diff found).touchesSpec = false := by
  rw [← Bool.not_eq_true, touchesSpec_diff_iff,
    Decidable.not_not]
  let edits :=
    Diff.rootEdits [] (object.toJson.at? ["spec"])
      (found.toJson.at? ["spec"])
  rw [rootEdits_concat] at hSeparate
  constructor
  · rintro rfl
    have hBefore :=
      hSeparate.sublist (List.sublist_append_left _ _)
    have hOwn :=
      hSeparate.sublist (List.sublist_append_right _ _)
    have hCross := (List.pairwise_append.1 hSeparate.apart).2.2
    have hAll :
        Diff.carry?
            (found.rootEdits done ["spec"] ++ edits)
            (document.at? ["spec"]) = some made := by
      rw [Diff.carry?_append, hBetween]
      exact hMade
    -- what the edits put was there already, before the other
    -- diffs too, since these lie apart
    have hThere :
        Diff.carry? edits (document.at? ["spec"]) =
          some (document.at? ["spec"]) := by
      refine hOwn.carry?_eq_self fun edit hEdit => ?_
      have hSame := hBefore.at?_of_apart hBetween
        fun other hOther => hCross other hOther edit hEdit
      rw [hSeparate.at?_of_mem hAll
        (List.mem_append_right _ hEdit), hSame]
    have hCarries := object.carries_spec hShown
    have hSpec := object.at?_toJson.2.2
    have hFoundSpec := found.at?_toJson.2.2
    have hReached :
        (Shape.part kind.spec).Shows object.spec
          (document.at? ["spec"]) := by
      refine (hCarries.reaches_iff found.spec _ ?_).2
        (.refl _)
      rw [← hSpec, ← hFoundSpec]
      exact hThere
    have hSame : object.spec = found.spec :=
      Option.some.inj
        (((Shape.part kind.spec).decode?_of_shows object.spec
            _ kind.isWellFormed_specPart hReached).symm.trans
          ((Shape.part kind.spec).decode?_of_shows found.spec
            _ kind.isWellFormed_specPart hShown.spec))
    rw [hSpec, hFoundSpec, hSame]
    exact Diff.rootEdits_self [] fun _ hSlot =>
      Shape.isCanonical_of_slot hSlot
  · intro hNone
    rw [hNone] at hMade
    exact (Option.some.inj hMade).symm

end Document

end Object

end Converge
