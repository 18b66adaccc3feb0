import Mathlib.Data.List.Nodup
import Converge.Proofs.Diff.Apart
import Converge.Proofs.Object.Mutable

/-
  Which edits there are between two values.

  Two values are compared from a mutable part downwards, as
  far as both are objects. Where one of them has a value and
  the other has none, or both have values that cannot be
  compared any further, there is exactly one edit, and there
  are no others. So nothing is edited when the mutable parts
  agree, and for objects of a kind only then.

  Key definitions:
    * `Diff.Differs`: how a place differs as a whole
    * `Diff.Compared`: both values are objects on the way

  Main declarations:
    * `Diff.mem_rootEdits_iff`: the edits between two places
    * `Diff.mem_edits_iff`: the edits between two values
    * `Object.diff_eq_nil_iff`: nothing to edit
    * `Diff.document_exact`
-/

namespace Converge

namespace Diff

------------------------------------------------------------
-- Differences
------------------------------------------------------------

/- How a place differs as a whole from what it was. Two
   objects differ in their members only. -/
inductive Differs :
    Option Json → Option Json → Change → Prop where
  | added (current : Json) :
      Differs (some current) none (.add current)
  | removed (previous : Json) :
      Differs none (some previous) .remove
  | replaced
      {current previous : Json}
      (hNe : current ≠ previous)
      (hObjects :
        ¬(current.isObject = true ∧
          previous.isObject = true)) :
      Differs (some current) (some previous)
        (.replace current)

/- A place that holds an object. -/
def HoldsObject (slot : Option Json) : Prop :=
  ∃ members, slot = some (.obj members)

/- A path at or below a mutable part. From the part on, both
   values are objects as long as the path goes on. -/
def Compared
    (current previous : Json)
    (path : List String) :
    Prop :=
  ∃ root, root ∈ mutableRoots ∧ root <+: path ∧
    ∀ above, root <+: above → above <+: path →
      above ≠ path →
        HoldsObject (current.at? above) ∧
          HoldsObject (previous.at? above)

------------------------------------------------------------
-- Edits between Places
------------------------------------------------------------

section Places

variable {current previous : Option Json}
variable {change : Change}

/- An edit of a value that is put as a whole. -/
theorem mem_wholeEdits_iff
    {current : Json}
    (hObjects :
      current.isObject = true →
        ∀ value, previous = some value →
          value.isObject = false)
    {edit : Edit} :
    edit ∈ wholeEdits [] current previous ↔
      edit.path = [] ∧
        Differs (some current) previous edit.change := by
  obtain ⟨path, change⟩ := edit
  cases previous with
  | none =>
      simp only [wholeEdits, List.mem_singleton,
        Edit.mk.injEq]
      refine and_congr_right fun _ => ?_
      constructor
      · rintro rfl
        exact .added current
      · rintro ⟨⟩
        rfl
  | some value =>
      simp only [wholeEdits]
      by_cases hSame : current = value
      · rw [if_pos hSame]
        refine iff_of_false List.not_mem_nil ?_
        rintro ⟨-, hDiffers⟩
        cases hDiffers with
        | replaced hNe => exact hNe hSame
      · rw [if_neg hSame, List.mem_singleton, Edit.mk.injEq]
        refine and_congr_right fun _ => ?_
        constructor
        · rintro rfl
          refine .replaced hSame ?_
          rintro ⟨hNow, hThen⟩
          rw [hObjects hNow value rfl] at hThen
          cases hThen
        · rintro ⟨⟩
          rfl

/- Unless both places hold objects, they can differ as a
   whole only. -/
theorem mem_rootEdits_of_not_objects
    (hObjects :
      ¬(HoldsObject current ∧ HoldsObject previous))
    {edit : Edit} :
    edit ∈ rootEdits [] current previous ↔
      edit.path = [] ∧
        Differs current previous edit.change := by
  obtain ⟨path, change⟩ := edit
  cases current with
  | some current =>
      have hWhole :
          current.isObject = true →
            ∀ value, previous = some value →
              value.isObject = false := by
        intro hNow value hValue
        cases current with
        | obj members =>
            cases value with
            | obj others =>
                exact absurd ⟨⟨members, rfl⟩, others, hValue⟩
                  hObjects
            | _ => rfl
        | _ => cases hNow
      rw [rootEdits, valueEdits_eq_wholeEdits [] hWhole]
      exact mem_wholeEdits_iff hWhole
  | none =>
      cases previous with
      | none =>
          refine iff_of_false List.not_mem_nil ?_
          rintro ⟨-, ⟨⟩⟩
      | some previous =>
          simp only [rootEdits, List.mem_singleton,
            Edit.mk.injEq]
          refine and_congr_right fun _ => ?_
          constructor
          · rintro rfl
            exact .removed previous
          · rintro ⟨⟩
            rfl

/- Two objects do not differ as a whole. -/
theorem Differs.not_objects
    (hDiffers : Differs current previous change) :
    ¬(HoldsObject current ∧ HoldsObject previous) := by
  rintro ⟨⟨now, rfl⟩, ⟨before, rfl⟩⟩
  cases hDiffers with
  | replaced _ hObjects => exact hObjects ⟨rfl, rfl⟩

variable
  (hCurrent :
    ∀ value, current = some value → value.IsCanonical)
  (hPrevious :
    ∀ value, previous = some value → value.IsCanonical)

include hCurrent hPrevious

/- The edit of a place itself. -/
theorem mem_rootEdits_nil_iff :
    ⟨[], change⟩ ∈ rootEdits [] current previous ↔
      Differs current previous change := by
  by_cases hObjects :
      HoldsObject current ∧ HoldsObject previous
  · refine iff_of_false ?_ fun hDiffers =>
      hDiffers.not_objects hObjects
    rcases hObjects with ⟨⟨now, rfl⟩, ⟨before, rfl⟩⟩
    intro hEdit
    rcases (mem_valueEdits_obj_iff
        (hCurrent _ rfl).sorted (hPrevious _ rfl).sorted).1
        hEdit with ⟨key, inner, -, hEq⟩
    cases hEq
  · rw [mem_rootEdits_of_not_objects hObjects]
    exact and_iff_right rfl

/- An edit further down is one of a member of two objects. -/
theorem mem_rootEdits_cons_iff
    {key : String}
    {path : List String} :
    ⟨key :: path, change⟩ ∈ rootEdits [] current previous ↔
      (HoldsObject current ∧ HoldsObject previous) ∧
        ⟨path, change⟩ ∈
          rootEdits [] (current.bind (Json.member? key))
            (previous.bind (Json.member? key)) := by
  by_cases hObjects :
      HoldsObject current ∧ HoldsObject previous
  · rw [and_iff_right hObjects]
    rcases hObjects with ⟨⟨now, rfl⟩, ⟨before, rfl⟩⟩
    refine (mem_valueEdits_obj_iff (hCurrent _ rfl).sorted
      (hPrevious _ rfl).sorted).trans ?_
    constructor
    · rintro ⟨token, ⟨path, change⟩, hInner, hEq⟩
      cases hEq
      exact hInner
    · intro hInner
      exact ⟨key, ⟨path, change⟩, hInner, rfl⟩
  · rw [mem_rootEdits_of_not_objects hObjects]
    refine iff_of_false ?_ fun h => hObjects h.1
    rintro ⟨hNil, -⟩
    cases hNil

end Places

/- What follows a key of a place that holds an object. -/
theorem bind_at?_cons
    (slot : Option Json)
    (key : String)
    (path : List String) :
    slot.bind (Json.at? (key :: path)) =
      (slot.bind (Json.member? key)).bind (Json.at? path) := by
  cases slot <;> rfl

/- The edits between two places are told by how the places
   below them differ, as far as both hold objects on the
   way. -/
theorem mem_rootEdits_iff
    {current previous : Option Json}
    (hCurrent :
      ∀ value, current = some value → value.IsCanonical)
    (hPrevious :
      ∀ value, previous = some value → value.IsCanonical)
    {path : List String}
    {change : Change} :
    ⟨path, change⟩ ∈ rootEdits [] current previous ↔
      (∀ above, above <+: path → above ≠ path →
        HoldsObject (current.bind (Json.at? above)) ∧
          HoldsObject (previous.bind (Json.at? above))) ∧
        Differs (current.bind (Json.at? path))
          (previous.bind (Json.at? path)) change := by
  have hMember :
      ∀ {slot : Option Json} (key : String),
        (∀ value, slot = some value → value.IsCanonical) →
          ∀ value, slot.bind (Json.member? key) = some value →
            value.IsCanonical := by
    intro slot key hSlot value hValue
    rcases Option.bind_eq_some_iff.1 hValue with
      ⟨whole, hWhole, hInside⟩
    exact (hSlot whole hWhole).at?
      ((Json.at?_singleton key whole).trans hInside)
  induction path generalizing current previous with
  | nil =>
      rw [mem_rootEdits_nil_iff hCurrent hPrevious,
        Edit.bind_at?_nil, Edit.bind_at?_nil]
      refine (and_iff_right ?_).symm
      intro above hAbove hNe
      exact absurd (List.prefix_nil.1 hAbove) hNe
  | cons key path ih =>
      have hInner :=
        ih (hMember key hCurrent) (hMember key hPrevious)
      refine (mem_rootEdits_cons_iff hCurrent hPrevious).trans
        ((and_congr_right fun _ => hInner).trans ?_)
      rw [← and_assoc, bind_at?_cons, bind_at?_cons]
      refine and_congr_left fun _ => ?_
      constructor
      · rintro ⟨hObjects, hBelow⟩ above hAbove hNe
        cases above with
        | nil =>
            rw [Edit.bind_at?_nil, Edit.bind_at?_nil]
            exact hObjects
        | cons token above =>
            rcases List.cons_prefix_cons.1 hAbove with
              ⟨rfl, hInside⟩
            rw [bind_at?_cons, bind_at?_cons]
            exact hBelow above hInside
              fun hEq => hNe (congrArg _ hEq)
      · intro hAbove
        constructor
        · have hTop := hAbove [] List.nil_prefix
            (List.cons_ne_nil _ _).symm
          rwa [Edit.bind_at?_nil, Edit.bind_at?_nil] at hTop
        · intro above hInside hNe
          have hHolds := hAbove (key :: above)
            (List.cons_prefix_cons.2 ⟨rfl, hInside⟩)
            fun hEq => hNe (List.cons.inj hEq).2
          rwa [bind_at?_cons, bind_at?_cons] at hHolds

------------------------------------------------------------
-- Edits between Values
------------------------------------------------------------

section Values

variable {current previous : Json}

/- An edit between two values is an edit of a mutable part,
   below it. -/
theorem mem_edits_iff_below
    {path : List String}
    {change : Change} :
    ⟨path, change⟩ ∈ edits current previous ↔
      ∃ root, root ∈ mutableRoots ∧
        ∃ rest, path = root ++ rest ∧
          ⟨rest, change⟩ ∈
            rootEdits [] (current.at? root)
              (previous.at? root) := by
  constructor
  · intro hEdit
    rcases List.mem_flatMap.1 hEdit with ⟨root, hRoot, hEdit⟩
    rw [rootEdits_eq_below] at hEdit
    rcases List.mem_map.1 hEdit with
      ⟨⟨rest, _⟩, hInner, hEq⟩
    cases hEq
    exact ⟨root, hRoot, rest, rfl, hInner⟩
  · rintro ⟨root, hRoot, rest, rfl, hInner⟩
    refine List.mem_flatMap.2 ⟨root, hRoot, ?_⟩
    rw [rootEdits_eq_below]
    exact List.mem_map.2 ⟨_, hInner, rfl⟩

/- There is an edit at a path exactly if the values are
   compared as far as there, and differ there as a whole. -/
theorem mem_edits_iff
    (hCurrent : current.IsCanonical)
    (hPrevious : previous.IsCanonical)
    {path : List String}
    {change : Change} :
    ⟨path, change⟩ ∈ edits current previous ↔
      Compared current previous path ∧
        Differs (current.at? path) (previous.at? path)
          change := by
  have hInside :
      ∀ root rest,
        ⟨rest, change⟩ ∈
            rootEdits [] (current.at? root)
              (previous.at? root) ↔
          (∀ above, above <+: rest → above ≠ rest →
            HoldsObject (current.at? (root ++ above)) ∧
              HoldsObject (previous.at? (root ++ above))) ∧
            Differs (current.at? (root ++ rest))
              (previous.at? (root ++ rest)) change := by
    intro root rest
    rw [mem_rootEdits_iff
      (fun _ hFound => hCurrent.at? hFound)
      fun _ hFound => hPrevious.at? hFound]
    simp only [Json.at?_append]
  rw [mem_edits_iff_below]
  constructor
  · rintro ⟨root, hRoot, rest, rfl, hEdit⟩
    rcases (hInside root rest).1 hEdit with
      ⟨hAbove, hDiffers⟩
    refine ⟨⟨root, hRoot, List.prefix_append _ _, ?_⟩,
      hDiffers⟩
    rintro _ ⟨above, rfl⟩ hPrefix hNe
    exact hAbove above
      ((List.prefix_append_right_inj root).1 hPrefix)
      fun hEq => hNe (congrArg _ hEq)
  · rintro ⟨⟨root, hRoot, ⟨rest, rfl⟩, hAbove⟩, hDiffers⟩
    refine ⟨root, hRoot, rest, rfl,
      (hInside root rest).2 ⟨?_, hDiffers⟩⟩
    intro above hPrefix hNe
    exact hAbove (root ++ above) (List.prefix_append _ _)
      ((List.prefix_append_right_inj root).2 hPrefix)
      fun hEq => hNe (List.append_cancel_left hEq)

/- There is nothing to edit exactly if the mutable parts
   agree. -/
theorem edits_eq_nil_iff
    (hCurrent : current.IsCanonical)
    (hPrevious : previous.IsCanonical) :
    edits current previous = [] ↔
      ∀ root, root ∈ mutableRoots →
        current.at? root = previous.at? root := by
  have hRoots :
      edits current previous = [] ↔
        ∀ root, root ∈ mutableRoots →
          rootEdits root (current.at? root)
            (previous.at? root) = [] :=
    List.flatMap_eq_nil_iff
  rw [hRoots]
  refine forall_congr' fun root => forall_congr' fun _ => ?_
  constructor
  · intro hNone
    -- no edits make what was there what it should be
    have hHere :
        ∀ value, current.at? root = some value →
          value.IsCanonical :=
      fun _ hFound => hCurrent.at? hFound
    have hThere :
        ∀ value, previous.at? root = some value →
          value.IsCanonical :=
      fun _ hFound => hPrevious.at? hFound
    have hCarry := carry?_rootEdits hHere hThere
    rw [rootEdits_eq_below, List.map_eq_nil_iff] at hNone
    rw [hNone] at hCarry
    exact (Option.some.inj hCarry).symm
  · intro hSame
    rw [hSame]
    exact rootEdits_self root
      fun _ hFound => hPrevious.at? hFound

end Values

end Diff

------------------------------------------------------------
-- Objects
------------------------------------------------------------

/- Between two objects there is nothing to edit exactly if
   they have the same mutable parts. -/
theorem Object.diff_eq_nil_iff
    {kind : Kind}
    {left right : Object kind} :
    left.diff right = [] ↔ left.SameMutable right := by
  constructor
  · intro hNone
    have hRoots :=
      (Diff.edits_eq_nil_iff left.isCanonical_toJson
        right.isCanonical_toJson).1
        (List.map_eq_nil_iff.1 hNone)
    have hShows : left.ShowsMutable right.toJson :=
      left.showsMutable_toJson.2.congr
        fun root hRoot => (hRoots root hRoot).symm
    exact (sameMutable_of_decode right.isCanonical_toJson
      right.showsMutable_toJson.1 right.decode?_toJson
      hShows).symm
  · intro hSame
    rw [← left.diff_congr hSame]
    exact left.diff_self

------------------------------------------------------------
-- Documents
------------------------------------------------------------

namespace Diff

/- The document between two values has an entry for each
   place that is compared and differs as a whole, which says
   how it differs, and no other entry; no two entries are
   about one place. It is empty exactly if the mutable parts
   agree, and the document between two objects exactly if
   these have the same labels, annotations and
   specification. -/
theorem document_exact :
    (∀ current previous : Json,
        current.IsCanonical → previous.IsCanonical →
          let document :=
            PatchDocument.ofEdits (edits current previous)
          (∀ entry : PatchEntry,
              entry ∈ document ↔
                ∃ path change,
                  Compared current previous path ∧
                    Differs (current.at? path)
                      (previous.at? path) change ∧
                    entry =
                      PatchEntry.ofEdit ⟨path, change⟩) ∧
            (document.map PatchEntry.path).Nodup ∧
            (document = [] ↔
              ∀ root, root ∈ mutableRoots →
                current.at? root = previous.at? root)) ∧
      ∀ (kind : Kind) (left right : Object kind),
        left.diff right = [] ↔ left.SameMutable right := by
  refine ⟨?_, fun kind left right =>
    Object.diff_eq_nil_iff⟩
  intro current previous hCurrent hPrevious document
  refine ⟨?_, ?_, ?_⟩
  · intro entry
    refine List.mem_map.trans ?_
    constructor
    · rintro ⟨⟨path, change⟩, hEdit, rfl⟩
      rcases (mem_edits_iff hCurrent hPrevious).1 hEdit with
        ⟨hCompared, hDiffers⟩
      exact ⟨path, change, hCompared, hDiffers, rfl⟩
    · rintro ⟨path, change, hCompared, hDiffers, rfl⟩
      exact ⟨⟨path, change⟩,
        (mem_edits_iff hCurrent hPrevious).2
          ⟨hCompared, hDiffers⟩, rfl⟩
  · refine List.pairwise_map.2 (List.pairwise_map.2 ?_)
    exact (pairwise_apart_edits hCurrent hPrevious).imp
      fun hApart => (PatchEntry.apart_ofEdit hApart).path_ne
  · exact List.map_eq_nil_iff.trans
      (edits_eq_nil_iff hCurrent hPrevious)

/- A new label, whose key is escaped, is added once. -/
theorem document_exact_label :
    let document :=
      PatchDocument.ofEdits (edits laterBuild earlierBuild)
    ⟨⟨"add", by decide⟩, "/metadata/labels/a~1b",
        some (.str "new")⟩ ∈ document ∧
      (document.map PatchEntry.path).count
        "/metadata/labels/a~1b" = 1 := by
  intro document
  have hLater : laterBuild.IsCanonical :=
    Json.isCanonical_canonical laterBuild
  have hEarlier : earlierBuild.IsCanonical :=
    Json.isCanonical_canonical earlierBuild
  rcases document_exact.1 laterBuild earlierBuild hLater
      hEarlier with ⟨hEntries, hNodup, -⟩
  have hCompared :
      Compared laterBuild earlierBuild
        ["metadata", "labels", "a/b"] := by
    refine ⟨["metadata", "labels"], .head _,
      List.prefix_append _ ["a/b"], ?_⟩
    rintro _ ⟨above, rfl⟩ hPrefix hNe
    have hInside : above <+: ["a/b"] :=
      (List.prefix_append_right_inj ["metadata", "labels"]).1
        hPrefix
    cases above with
    | nil => exact ⟨⟨_, rfl⟩, _, rfl⟩
    | cons key rest =>
        rcases List.cons_prefix_cons.1 hInside with
          ⟨rfl, hRest⟩
        rw [List.prefix_nil.1 hRest] at hNe
        exact absurd rfl hNe
  have hEntry :
      ⟨⟨"add", by decide⟩, "/metadata/labels/a~1b",
          some (.str "new")⟩ ∈ document :=
    (hEntries _).2
      ⟨_, _, hCompared, .added (.str "new"), rfl⟩
  refine ⟨hEntry, List.count_eq_one_of_mem hNodup ?_⟩
  exact List.mem_map.2 ⟨_, hEntry, rfl⟩

end Diff

end Converge
