import Mathlib.Data.List.Perm.Basic
import Converge.Proofs.Diff.Roots

/-
  The order of edits.

  No edit between two values lies at or below the place of
  another one. What edits below the members of an object do
  to a member is told by the edits of that member alone, in
  their order, so edits of different members can change
  places; along the recursion of the difference this leaves
  at most one edit at each place, and nothing to reorder.

  Key definitions:
    * `Edit.Apart`: neither edit lies at or below the other
    * `Diff.beneath`: the edits of one member
    * `Diff.Unordered`: edits whose order has no effect

  Main declarations:
    * `Diff.place_induction`: two places, member by member
    * `Diff.pairwise_apart_edits`: edits keep apart
    * `Diff.unordered_edits`: edits can be reordered
    * `Diff.reordered_reaches`: documents can be reordered
-/

namespace Converge

------------------------------------------------------------
-- Edits that Keep Apart
------------------------------------------------------------

namespace Edit

/- Neither of two edits lies at or below the place of the
   other. -/
def Apart (left right : Edit) : Prop :=
  ¬left.path <+: right.path ∧ ¬right.path <+: left.path

/- Below one member, edits keep apart as edits of it. -/
theorem Apart.under
    {left right : Edit}
    (h : left.Apart right)
    (key : String) :
    (left.under key).Apart (right.under key) := by
  refine ⟨fun hPrefix => h.1 ?_, fun hPrefix => h.2 ?_⟩
  · exact (List.cons_prefix_cons.1 hPrefix).2
  · exact (List.cons_prefix_cons.1 hPrefix).2

/- Edits below different members keep apart. -/
theorem apart_of_ne
    {first second : String}
    (hNe : first ≠ second)
    (left right : Edit) :
    (left.under first).Apart (right.under second) := by
  refine ⟨fun hPrefix => hNe ?_, fun hPrefix => hNe ?_⟩
  · exact (List.cons_prefix_cons.1 hPrefix).1
  · exact (List.cons_prefix_cons.1 hPrefix).1.symm

/- An edit below the top is an edit of a member. -/
theorem exists_eq_under
    {edit : Edit}
    (hPath : edit.path ≠ []) :
    ∃ key inner, edit = Edit.under key inner := by
  obtain ⟨path, change⟩ := edit
  cases path with
  | nil => exact absurd rfl hPath
  | cons key path => exact ⟨key, ⟨path, change⟩, rfl⟩

/- The edit of a member, when an edit lies at or below it. -/
def beneath? (key : String) : Edit → Option Edit
  | ⟨[], _⟩ => none
  | ⟨token :: path, change⟩ =>
      if token = key then some ⟨path, change⟩ else none

theorem beneath?_under
    (key token : String)
    (edit : Edit) :
    beneath? key (edit.under token) =
      if token = key then some edit else none :=
  rfl

end Edit

namespace Diff

------------------------------------------------------------
-- Edits of One Member
------------------------------------------------------------

/- The edits of a member among other edits, in their order. -/
def beneath
    (key : String)
    (edits : List Edit) :
    List Edit :=
  edits.filterMap (Edit.beneath? key)

theorem beneath_under_cons
    (key token : String)
    (edit : Edit)
    (edits : List Edit) :
    beneath key (edit.under token :: edits) =
      if token = key then edit :: beneath key edits
      else beneath key edits := by
  rw [beneath, List.filterMap_cons, Edit.beneath?_under]
  by_cases hKey : token = key
  · simp only [if_pos hKey]
    rfl
  · simp only [if_neg hKey]
    rfl

theorem beneath_map_under
    (key token : String)
    (edits : List Edit) :
    beneath key (edits.map (Edit.under token)) =
      if token = key then edits else [] := by
  induction edits with
  | nil => simp [beneath]
  | cons edit rest ih =>
      rw [List.map_cons, beneath_under_cons, ih]
      by_cases hKey : token = key
      · simp only [if_pos hKey]
      · simp only [if_neg hKey]

theorem beneath_append
    (key : String)
    (first second : List Edit) :
    beneath key (first ++ second) =
      beneath key first ++ beneath key second :=
  List.filterMap_append

/- A plan has no edits of members that it does not name. -/
theorem beneath_planned_of_not_mem
    {key : String}
    {plan : List (String × List Edit)}
    (hKey : key ∉ plan.map fun entry => entry.1) :
    beneath key (planned plan) = [] := by
  induction plan with
  | nil => rfl
  | cons entry rest ih =>
      simp only [List.map_cons, List.mem_cons, not_or] at hKey
      have hSplit :
          planned (entry :: rest) =
            entry.2.map (Edit.under entry.1) ++ planned rest :=
        rfl
      rw [hSplit, beneath_append, beneath_map_under,
        if_neg (Ne.symm hKey.1), ih hKey.2]
      rfl

/- The edits of a member are those that a plan has for it. -/
theorem beneath_planned
    {plan : List (String × List Edit)}
    (hNodup : (plan.map fun entry => entry.1).Nodup)
    {entry : String × List Edit}
    (hEntry : entry ∈ plan) :
    beneath entry.1 (planned plan) = entry.2 := by
  induction plan with
  | nil => cases hEntry
  | cons first rest ih =>
      simp only [List.map_cons, List.nodup_cons] at hNodup
      have hSplit :
          planned (first :: rest) =
            first.2.map (Edit.under first.1) ++ planned rest :=
        rfl
      rw [hSplit, beneath_append, beneath_map_under]
      rcases List.mem_cons.1 hEntry with rfl | hRest
      · rw [if_pos rfl, beneath_planned_of_not_mem hNodup.1,
          List.append_nil]
      · have hOther : first.1 ≠ entry.1 := fun hEq =>
          hNodup.1 (List.mem_map.2 ⟨entry, hRest, hEq.symm⟩)
        rw [if_neg hOther, List.nil_append]
        exact ih hNodup.2 hRest

/- Edits below the members of an object do to each member
   what the edits of that member do to it. -/
theorem carry?_beneath_iff
    (edits : List Edit)
    (hPaths : ∀ edit, edit ∈ edits → edit.path ≠ [])
    {members : List (String × Json)}
    (hSorted : Keyed.Sorted members)
    {slot : Option Json} :
    carry? edits (some (.obj members)) = some slot ↔
      ∃ after,
        slot = some (.obj after) ∧ Keyed.Sorted after ∧
          ∀ key,
            carry? (beneath key edits) (members.lookup key) =
              some (after.lookup key) := by
  induction edits generalizing members with
  | nil =>
      simp only [carry?, beneath, List.filterMap_nil,
        Option.some.injEq]
      constructor
      · rintro rfl
        exact ⟨members, rfl, hSorted, fun _ => rfl⟩
      · rintro ⟨after, rfl, hAfter, hSame⟩
        rw [hSorted.ext hAfter hSame]
  | cons edit rest ih =>
      rcases Edit.exists_eq_under
          (hPaths edit List.mem_cons_self) with
        ⟨token, inner, rfl⟩
      have hRest :
          ∀ other, other ∈ rest → other.path ≠ [] :=
        fun other hOther =>
          hPaths other (List.mem_cons_of_mem _ hOther)
      simp only [carry?, inner.onSlot?_under token hSorted]
      cases hInner : inner.onSlot? (members.lookup token) with
      | none =>
          constructor
          · intro h
            cases h
          · rintro ⟨after, _, _, hKeys⟩
            have h := hKeys token
            rw [beneath_under_cons, if_pos rfl, carry?,
              hInner] at h
            cases h
      | some found =>
          simp only [Option.map_some, Option.bind_some]
          rw [ih hRest (hSorted.assign token found)]
          refine exists_congr fun after =>
            and_congr_right fun _ => and_congr_right fun _ =>
              forall_congr' fun key => ?_
          rw [beneath_under_cons, Keyed.lookup_assign]
          by_cases hKey : token = key
          · subst hKey
            rw [if_pos rfl, if_pos rfl, carry?, hInner,
              Option.bind_some]
          · rw [if_neg hKey, if_neg (Ne.symm hKey)]

------------------------------------------------------------
-- Edits in Any Order
------------------------------------------------------------

/- The order of edits has no effect on a place. -/
def Unordered
    (edits : List Edit)
    (slot : Option Json) :
    Prop :=
  ∀ order, List.Perm order edits →
    carry? order slot = carry? edits slot

/- There is nothing to reorder in one edit. -/
theorem unordered_of_length_le
    {edits : List Edit}
    (hLength : edits.length ≤ 1)
    (slot : Option Json) :
    Unordered edits slot := by
  intro order hOrder
  match edits, hLength with
  | [], _ => rw [hOrder.eq_nil]
  | [_], _ => rw [hOrder.eq_singleton]

/- Edits below different members can be reordered when those
   of each member can. -/
theorem Unordered.planned
    {plan : List (String × List Edit)}
    (hNodup : (plan.map fun entry => entry.1).Nodup)
    {members : List (String × Json)}
    (hSorted : Keyed.Sorted members)
    (hEntries :
      ∀ entry, entry ∈ plan →
        Unordered entry.2 (members.lookup entry.1)) :
    Unordered (Diff.planned plan) (some (.obj members)) := by
  intro order hOrder
  have hPaths :
      ∀ edit, edit ∈ Diff.planned plan → edit.path ≠ [] := by
    intro edit hEdit
    rcases List.mem_flatMap.1 hEdit with ⟨entry, _, hEdit⟩
    rcases List.mem_map.1 hEdit with ⟨inner, _, rfl⟩
    exact List.cons_ne_nil _ _
  have hOrderPaths :
      ∀ edit, edit ∈ order → edit.path ≠ [] :=
    fun edit hEdit => hPaths edit (hOrder.mem_iff.1 hEdit)
  -- The edits of a member are a permutation of its entry.
  have hMembers :
      ∀ key,
        carry? (beneath key order) (members.lookup key) =
          carry? (beneath key (Diff.planned plan))
            (members.lookup key) := by
    intro key
    have hBeneath :
        (beneath key order).Perm
          (beneath key (Diff.planned plan)) :=
      hOrder.filterMap _
    by_cases hKey : key ∈ plan.map fun entry => entry.1
    · rcases List.mem_map.1 hKey with ⟨entry, hEntry, rfl⟩
      rw [beneath_planned hNodup hEntry] at hBeneath ⊢
      exact hEntries entry hEntry _ hBeneath
    · rw [beneath_planned_of_not_mem hKey] at hBeneath ⊢
      rw [hBeneath.eq_nil]
  apply Option.ext
  intro slot
  rw [carry?_beneath_iff _ hOrderPaths hSorted,
    carry?_beneath_iff _ hPaths hSorted]
  refine exists_congr fun after => and_congr_right fun _ =>
    and_congr_right fun _ => forall_congr' fun key => ?_
  rw [hMembers key]

/- Edits below different members keep apart when those of
   each member do. -/
theorem pairwise_apart_planned
    {plan : List (String × List Edit)}
    (hNodup : (plan.map fun entry => entry.1).Nodup)
    (hEntries :
      ∀ entry, entry ∈ plan →
        entry.2.Pairwise Edit.Apart) :
    (planned plan).Pairwise Edit.Apart := by
  apply List.pairwise_flatMap.2
  constructor
  · intro entry hEntry
    exact (hEntries entry hEntry).map _
      fun _ _ h => h.under entry.1
  · refine (List.pairwise_map.1 hNodup).imp ?_
    intro first second hNe left hLeft right hRight
    rcases List.mem_map.1 hLeft with ⟨leftInner, _, rfl⟩
    rcases List.mem_map.1 hRight with ⟨rightInner, _, rfl⟩
    exact Edit.apart_of_ne hNe leftInner rightInner

/- The same for edits below two members. -/
theorem Unordered.pair
    {first second : String}
    (hNe : first ≠ second)
    {firstEdits secondEdits : List Edit}
    {members : List (String × Json)}
    (hSorted : Keyed.Sorted members)
    (hFirst : Unordered firstEdits (members.lookup first))
    (hSecond :
      Unordered secondEdits (members.lookup second)) :
    Unordered
      (Diff.planned
        [(first, firstEdits), (second, secondEdits)])
      (some (.obj members)) := by
  refine Unordered.planned (by simp [hNe]) hSorted ?_
  intro entry hEntry
  simp only [List.mem_cons, List.not_mem_nil, or_false]
    at hEntry
  rcases hEntry with rfl | rfl
  · exact hFirst
  · exact hSecond

theorem pairwise_apart_pair
    {first second : String}
    (hNe : first ≠ second)
    {firstEdits secondEdits : List Edit}
    (hFirst : firstEdits.Pairwise Edit.Apart)
    (hSecond : secondEdits.Pairwise Edit.Apart) :
    (planned
      [(first, firstEdits), (second, secondEdits)]).Pairwise
        Edit.Apart := by
  refine pairwise_apart_planned (by simp [hNe]) ?_
  intro entry hEntry
  simp only [List.mem_cons, List.not_mem_nil, or_false]
    at hEntry
  rcases hEntry with rfl | rfl
  · exact hFirst
  · exact hSecond

------------------------------------------------------------
-- Two Places, Member by Member
------------------------------------------------------------

/- A relation of places that holds where one edit leads from
   one to the other at most, and of two objects when it holds
   of their members at each key. -/
structure Memberwise
    (holds : Option Json → Option Json → Prop) :
    Prop where
  whole :
    ∀ current previous,
      (rootEdits [] current previous).length ≤ 1 →
        holds current previous
  objects :
    ∀ current previous : List (String × Json),
      Keyed.Sorted current → Keyed.Sorted previous →
      (∀ key,
        holds (current.lookup key) (previous.lookup key)) →
        holds (some (.obj current)) (some (.obj previous))

variable {holds : Option Json → Option Json → Prop}

/- The relation holds where a value is put as a whole. -/
theorem Memberwise.of_whole
    (h : Memberwise holds)
    {current : Json}
    {previous : Option Json}
    (hObjects :
      current.isObject = true →
        ∀ value, previous = some value →
          value.isObject = false) :
    holds (some current) previous := by
  apply h.whole
  rw [rootEdits, valueEdits_eq_wholeEdits _ hObjects]
  cases previous with
  | none => exact Nat.le_refl 1
  | some previous =>
      simp only [wholeEdits]
      split <;> simp

theorem Memberwise.of_none
    (h : Memberwise holds)
    (previous : Option Json) :
    holds none previous := by
  apply h.whole
  cases previous <;> simp [rootEdits]

mutual

theorem Memberwise.value
    (h : Memberwise holds) :
    ∀ (current : Json) (previous : Option Json),
      current.IsCanonical →
      (∀ value, previous = some value → value.IsCanonical) →
        holds (some current) previous
  | .obj current, previous, hCurrent, hPrevious => by
      cases previous with
      | none => exact h.of_whole fun _ _ hNone => nomatch hNone
      | some value =>
          cases value with
          | obj members =>
              have hMembers := hPrevious _ rfl
              have hRest := Memberwise.member h current
                fun member hMember =>
                  hCurrent.member
                    (hCurrent.sorted.lookup_of_mem hMember)
              refine h.objects current members
                hCurrent.sorted hMembers.sorted fun key => ?_
              cases hNow : current.lookup key with
              | some value =>
                  exact hRest (key, value)
                    (Keyed.mem_of_lookup hNow) _
                    fun _ hFound => hMembers.member hFound
              | none => exact h.of_none _
          | _ =>
              exact h.of_whole
                fun _ _ hSome => Option.some.inj hSome ▸ rfl
  | .null, _, _, _ => h.of_whole nofun
  | .bool _, _, _, _ => h.of_whole nofun
  | .num _, _, _, _ => h.of_whole nofun
  | .str _, _, _, _ => h.of_whole nofun
  | .arr _, _, _, _ => h.of_whole nofun

theorem Memberwise.member
    (h : Memberwise holds) :
    ∀ current : List (String × Json),
      (∀ member, member ∈ current → member.2.IsCanonical) →
        ∀ member, member ∈ current →
          ∀ previous : Option Json,
            (∀ value, previous = some value →
              value.IsCanonical) →
              holds (some member.2) previous
  | [], _, _, hMember, _, _ => by cases hMember
  | (key, value) :: rest, hCurrent, member, hMember,
      previous, hPrevious => by
      rcases List.mem_cons.1 hMember with rfl | hMember
      · exact Memberwise.value h value previous
          (hCurrent _ List.mem_cons_self) hPrevious
      · exact Memberwise.member h rest
          (fun other hOther =>
            hCurrent other (List.mem_cons_of_mem _ hOther))
          member hMember previous hPrevious

end

/- Such a relation holds of any two canonical places. -/
theorem Memberwise.place
    (h : Memberwise holds)
    {current previous : Option Json}
    (hCurrent :
      ∀ value, current = some value → value.IsCanonical)
    (hPrevious :
      ∀ value, previous = some value → value.IsCanonical) :
    holds current previous := by
  cases current with
  | some value =>
      exact h.value value previous (hCurrent value rfl)
        hPrevious
  | none => exact h.of_none previous

------------------------------------------------------------
-- Edits between Places
------------------------------------------------------------

/- The edits between two places keep apart. -/
theorem memberwise_apart :
    Memberwise fun current previous =>
      (rootEdits [] current previous).Pairwise Edit.Apart where
  whole current previous hLength := by
    match hEdits : rootEdits [] current previous with
    | [] => exact List.Pairwise.nil
    | [edit] => exact List.pairwise_singleton _ _
    | _ :: _ :: _ => simp [hEdits] at hLength
  objects current previous hCurrent hPrevious hMembers := by
    rw [rootEdits, valueEdits_obj]
    refine pairwise_apart_planned
      (nodup_plan hCurrent hPrevious) ?_
    intro entry hEntry
    rw [((mem_plan_iff hCurrent hPrevious).1 hEntry).2]
    exact hMembers entry.1

/- Carried out on the earlier of two places, the edits between
   them can be reordered. -/
theorem memberwise_unordered :
    Memberwise fun current previous =>
      Unordered (rootEdits [] current previous) previous where
  whole _ _ hLength := unordered_of_length_le hLength _
  objects current previous hCurrent hPrevious hMembers := by
    rw [rootEdits, valueEdits_obj]
    refine Unordered.planned
      (nodup_plan hCurrent hPrevious) hPrevious ?_
    intro entry hEntry
    rw [((mem_plan_iff hCurrent hPrevious).1 hEntry).2]
    exact hMembers entry.1

------------------------------------------------------------
-- Edits between Objects
------------------------------------------------------------

theorem pairwise_apart_edits
    {current previous : Json}
    (hCurrent : current.IsCanonical)
    (hPrevious : previous.IsCanonical) :
    (edits current previous).Pairwise Edit.Apart := by
  have hRoot :
      ∀ root : List String,
        (rootEdits [] (current.at? root)
          (previous.at? root)).Pairwise Edit.Apart :=
    fun _ => memberwise_apart.place
      (fun _ hFound => hCurrent.at? hFound)
      fun _ hFound => hPrevious.at? hFound
  rw [edits_eq_planned]
  refine pairwise_apart_pair (by decide) ?_ (hRoot ["spec"])
  exact pairwise_apart_pair (by decide)
    (hRoot ["metadata", "labels"])
    (hRoot ["metadata", "annotations"])

/- Carried out on the earlier of two objects, the edits
   between them can be reordered. -/
theorem unordered_edits
    {current previous : Json}
    (hCurrent : current.IsCanonical)
    (hPrevious : previous.IsCanonical)
    (hMetadata : previous.HasMetadata) :
    Unordered (edits current previous) (some previous) := by
  have hRoot :
      ∀ root : List String,
        Unordered
          (rootEdits [] (current.at? root) (previous.at? root))
          (previous.at? root) :=
    fun _ => memberwise_unordered.place
      (fun _ hFound => hCurrent.at? hFound)
      fun _ hFound => hPrevious.at? hFound
  have hLabels := hRoot ["metadata", "labels"]
  have hAnnotations := hRoot ["metadata", "annotations"]
  have hSpec := hRoot ["spec"]
  rcases hMetadata with ⟨info, hInfo⟩
  have hInside := Json.at?_metadata hInfo
  rw [edits_eq_planned]
  cases previous with
  | obj members =>
      have hLookup :
          members.lookup "metadata" = some (.obj info) := hInfo
      rw [hInside] at hLabels hAnnotations
      rw [Json.at?_singleton "spec" (.obj members)] at hSpec
      rw [hInside, hInside, Json.at?_singleton "spec"
        (.obj members)]
      refine Unordered.pair (by decide) hPrevious.sorted ?_
        hSpec
      rw [hLookup]
      exact Unordered.pair (by decide)
        (hPrevious.member hInfo).sorted hLabels hAnnotations
  | _ => cases hInfo

end Diff

------------------------------------------------------------
-- Documents in Any Order
------------------------------------------------------------

/- The places that two entries spell are there, and neither
   leads to or into the other. -/
def PatchEntry.Apart (left right : PatchEntry) : Prop :=
  ∃ first second,
    Pointer.read? left.path = some first ∧
      Pointer.read? right.path = some second ∧
      ¬first <+: second ∧ ¬second <+: first

theorem PatchEntry.Apart.path_ne
    {left right : PatchEntry}
    (h : left.Apart right) :
    left.path ≠ right.path := by
  rcases h with ⟨first, second, hFirst, hSecond, hNot, -⟩
  intro hEq
  rw [hEq, hSecond] at hFirst
  cases hFirst
  exact hNot List.prefix_rfl

/- What is written of edits that keep apart keeps apart. -/
theorem PatchEntry.apart_ofEdit
    {left right : Edit}
    (h : left.Apart right) :
    (ofEdit left).Apart (ofEdit right) := by
  have hPath :
      ∀ edit,
        Pointer.read? (ofEdit edit).path = some edit.path := by
    rintro ⟨path, change⟩
    cases change <;> exact Pointer.read?_text path
  exact ⟨left.path, right.path, hPath left, hPath right, h⟩

/- A document with the entries of others in another order is
   the document of the edits in that order. -/
theorem PatchDocument.exists_eq_ofEdits
    {edits : List Edit}
    {order : PatchDocument}
    (hOrder : List.Perm order (ofEdits edits)) :
    ∃ reordered,
      order = ofEdits reordered ∧
        List.Perm reordered edits := by
  have hMap :=
    congrFun
      (congrFun (List.eq_map_comp_perm PatchEntry.ofEdit) order)
      edits
  exact hMap.mpr hOrder

namespace Diff

/- The entries of the document between two objects are about
   places of which none lies at or below another. In whatever
   order they are sent, the earlier object is made the same
   object, which has the mutable parts of the later one. -/
theorem reordered_reaches
    {current previous : Json}
    (hCurrent : current.IsCanonical)
    (hPrevious : previous.IsCanonical)
    (hMetadata : previous.HasMetadata) :
    (PatchDocument.ofEdits (edits current previous)).Pairwise
        (fun left right =>
          left.path ≠ right.path ∧ left.Apart right) ∧
      ∃ after : Json,
        SameElsewhere previous after ∧
        (∀ root, root ∈ mutableRoots →
          after.at? root = current.at? root) ∧
        ∀ order : PatchDocument,
          List.Perm order
              (PatchDocument.ofEdits
                (edits current previous)) →
            ∃ patch,
              Patch.ofJson? order.toJson = some patch ∧
                Patch.apply patch previous = .ok after := by
  constructor
  · refine (pairwise_apart_edits hCurrent hPrevious).map _
      fun left right hApart => ?_
    have hEntries := PatchEntry.apart_ofEdit hApart
    exact ⟨hEntries.path_ne, hEntries⟩
  rcases apply_edits_reaches hCurrent hPrevious hMetadata with
    ⟨patch, after, hRead, hApply, -, -, hElsewhere, hRoots⟩
  refine ⟨after, hElsewhere, hRoots, ?_⟩
  intro order hOrder
  rcases PatchDocument.exists_eq_ofEdits hOrder with
    ⟨reordered, rfl, hReordered⟩
  have hMem :
      ∀ edit, edit ∈ reordered →
        edit ∈ edits current previous :=
    fun _ => hReordered.mem_iff.1
  rw [PatchDocument.ofJson?_toJson fun _ hEdit =>
    isCanonical_of_mem_edits hCurrent previous hEdit] at hRead
  cases hRead
  have hCarry :=
    (apply_instructions_iff _
      fun _ => path_ne_nil_of_mem_edits).1 hApply
  refine ⟨reordered.map Edit.instruction,
    PatchDocument.ofJson?_toJson fun edit hEdit =>
      isCanonical_of_mem_edits hCurrent previous
        (hMem edit hEdit), ?_⟩
  apply (apply_instructions_iff _ fun edit hEdit =>
    path_ne_nil_of_mem_edits (hMem edit hEdit)).2
  rw [unordered_edits hCurrent hPrevious hMetadata reordered
    hReordered]
  exact hCarry

/- A build with a new label below an escaped key, and with
   annotations. -/
def laterBuild : Json :=
  .obj
    [ ("metadata",
        .obj
          [ ("annotations", .obj [("note", .str "n")]),
            ("labels",
              .obj [("a", .str "new"), ("a/b", .str "new")]) ]),
      ("spec", .obj [("steps", .arr [.str "s"])]) ]

/- The same build with other labels and a description. -/
def earlierBuild : Json :=
  .obj
    [ ("metadata",
        .obj
          [ ("labels",
              .obj [("a", .str "old"), ("gone", .str "old")]),
            ("name", .str "build") ]),
      ("spec",
        .obj
          [("description", .str "d"), ("steps", .arr [])]) ]

/- Sent backwards, the entries make the same object. -/
theorem reordered_reaches_backwards :
    laterBuild.IsCanonical ∧ earlierBuild.IsCanonical ∧
      earlierBuild.HasMetadata ∧
      (edits laterBuild earlierBuild).length = 6 ∧
      ∃ patch after,
        Patch.ofJson?
            (PatchDocument.toJson
              (PatchDocument.ofEdits
                (edits laterBuild earlierBuild)).reverse) =
          some patch ∧
        Patch.apply patch earlierBuild = .ok after ∧
        after.at? ["metadata", "labels"] =
          some
            (.obj [("a", .str "new"), ("a/b", .str "new")]) ∧
        after.at? ["metadata", "name"] =
          some (.str "build") := by
  have hLater : laterBuild.IsCanonical :=
    Json.isCanonical_canonical laterBuild
  have hEarlier : earlierBuild.IsCanonical :=
    Json.isCanonical_canonical earlierBuild
  have hMetadata : earlierBuild.HasMetadata := ⟨_, rfl⟩
  rcases reordered_reaches hLater hEarlier hMetadata with
    ⟨-, after, hElsewhere, hRoots, hOrders⟩
  rcases hOrders _ (List.reverse_perm _) with
    ⟨patch, hRead, hApply⟩
  refine ⟨hLater, hEarlier, hMetadata, by decide, patch, after,
    hRead, hApply, ?_, ?_⟩
  · rw [hRoots _ (.head _)]
    rfl
  · rw [hElsewhere.metadata _ (by decide) (by decide)]
    rfl

end Diff

end Converge
