import Converge.Proofs.Diff.Reach
import Converge.Proofs.Json.Pointer

/-
  Patches of the parts that may change.

  The edits between two objects stay below the labels, the
  annotations and the specification. On a document that has
  metadata they act on each of these places alone, and leave
  everything else as it is.

  Key definitions:
    * `Json.HasMetadata`: metadata that is an object
    * `Diff.SameElsewhere`: no difference outside of the
      mutable parts

  Main declarations:
    * `PatchDocument.ofJson?_toJson`: a sent document as the
      store reads it
    * `Diff.apply_edits_iff`: what a patch does to a document
    * `Diff.apply_edits_reaches`: the target is reached
-/

namespace Converge

open Json (IsCanonical)

namespace Json

/- A value has metadata, which are an object. -/
def HasMetadata (value : Json) : Prop :=
  ∃ info, value.member? "metadata" = some (.obj info)

@[simp] theorem at?_singleton
    (key : String)
    (value : Json) :
    value.at? [key] = value.member? key := by
  simp only [at?]
  cases value.member? key <;> rfl

/- What metadata hold at a key. -/
theorem at?_metadata
    {value : Json}
    {info : List (String × Json)}
    (h : value.member? "metadata" = some (.obj info))
    (key : String) :
    value.at? ["metadata", key] = info.lookup key := by
  simp only [at?, h, Option.bind_some]
  change (info.lookup key).bind some = _
  cases info.lookup key <;> rfl

end Json

------------------------------------------------------------
-- Values of Edits
------------------------------------------------------------

namespace Edit

/- What an edit puts, if anything, has a property. -/
def Puts
    (holds : Json → Prop)
    (edit : Edit) :
    Prop :=
  match edit.change with
  | .add value => holds value
  | .replace value => holds value
  | .remove => True

theorem isCanonical_of_puts
    {edit : Edit}
    (hEdit : edit.Puts Json.IsCanonical) :
    edit.instruction.IsCanonical := by
  obtain ⟨path, change⟩ := edit
  cases change <;> exact hEdit

end Edit

namespace Diff

variable {holds : Json → Prop}

theorem puts_of_mem_wholeEdits
    {path : List String}
    {current : Json}
    (hCurrent : holds current)
    {previous : Option Json}
    {edit : Edit}
    (hEdit : edit ∈ wholeEdits path current previous) :
    edit.Puts holds := by
  cases previous with
  | none =>
      rw [List.mem_singleton.1 hEdit]
      exact hCurrent
  | some previous =>
      simp only [wholeEdits] at hEdit
      split at hEdit
      · cases hEdit
      · rw [List.mem_singleton.1 hEdit]
        exact hCurrent

theorem puts_of_mem_valueEdits_of_whole
    {path : List String}
    {current : Json}
    {previous : Option Json}
    (hCurrent : holds current)
    {edit : Edit}
    (hEdit : edit ∈ valueEdits path current previous)
    (hObjects :
      current.isObject = true →
        ∀ value, previous = some value →
          value.isObject = false) :
    edit.Puts holds := by
  rw [valueEdits_eq_wholeEdits path hObjects] at hEdit
  exact puts_of_mem_wholeEdits hCurrent hEdit

mutual

/- Edits towards a value put this value or values that it
   holds. -/
theorem puts_of_mem_valueEdits
    (hHolds : Json.Inherited holds)
    (path : List String) :
    ∀ (current : Json) (previous : Option Json),
      holds current →
        ∀ edit, edit ∈ valueEdits path current previous →
          edit.Puts holds
  | .obj current, previous, hCurrent, edit, hEdit => by
      cases previous with
      | none =>
          exact puts_of_mem_valueEdits_of_whole hCurrent hEdit
            fun _ _ h => nomatch h
      | some value =>
          cases value with
          | obj members =>
              simp only [valueEdits, List.mem_append] at hEdit
              rcases hEdit with hEdit | hEdit
              · exact puts_of_mem_memberEdits hHolds path
                  current members (hHolds current hCurrent)
                  edit hEdit
              · rcases List.mem_map.1 hEdit with
                  ⟨member, _, rfl⟩
                trivial
          | _ =>
              exact puts_of_mem_valueEdits_of_whole hCurrent
                hEdit fun _ _ h => Option.some.inj h ▸ rfl
  | .null, _, hCurrent, _, hEdit =>
      puts_of_mem_valueEdits_of_whole hCurrent hEdit nofun
  | .bool _, _, hCurrent, _, hEdit =>
      puts_of_mem_valueEdits_of_whole hCurrent hEdit nofun
  | .num _, _, hCurrent, _, hEdit =>
      puts_of_mem_valueEdits_of_whole hCurrent hEdit nofun
  | .str _, _, hCurrent, _, hEdit =>
      puts_of_mem_valueEdits_of_whole hCurrent hEdit nofun
  | .arr _, _, hCurrent, _, hEdit =>
      puts_of_mem_valueEdits_of_whole hCurrent hEdit nofun

theorem puts_of_mem_memberEdits
    (hHolds : Json.Inherited holds)
    (path : List String) :
    ∀ current previous : List (String × Json),
      (∀ member, member ∈ current → holds member.2) →
        ∀ edit, edit ∈ memberEdits path current previous →
          edit.Puts holds
  | [], _, _, _, hEdit => by cases hEdit
  | (key, value) :: rest, previous, hCurrent, edit,
      hEdit => by
      simp only [memberEdits, List.mem_append] at hEdit
      rcases hEdit with hEdit | hEdit
      · exact puts_of_mem_valueEdits hHolds (path ++ [key])
          value (previous.lookup key)
          (hCurrent _ List.mem_cons_self) edit hEdit
      · exact puts_of_mem_memberEdits hHolds path rest
          previous
          (fun other hOther =>
            hCurrent other (List.mem_cons_of_mem _ hOther))
          edit hEdit

end

/- The same for values that may be missing. -/
theorem puts_of_mem_rootEdits
    (hHolds : Json.Inherited holds)
    {path : List String}
    {current previous : Option Json}
    (hCurrent : ∀ value, current = some value → holds value)
    {edit : Edit}
    (hEdit : edit ∈ rootEdits path current previous) :
    edit.Puts holds := by
  cases current with
  | some value =>
      exact puts_of_mem_valueEdits hHolds path value previous
        (hCurrent value rfl) edit hEdit
  | none =>
      cases previous with
      | none => cases hEdit
      | some _ =>
          rw [List.mem_singleton.1 hEdit]
          trivial

/- What the edits towards a value put has any property that
   the value has and hands on to its members. -/
theorem puts_of_mem_edits
    (hHolds : Json.Inherited holds)
    {current : Json}
    (hCurrent : holds current)
    (previous : Json)
    {edit : Edit}
    (hEdit : edit ∈ edits current previous) :
    edit.Puts holds := by
  rcases List.mem_flatMap.1 hEdit with ⟨root, _, hRoot⟩
  exact puts_of_mem_rootEdits hHolds
    (fun _ hFound => hHolds.at? hCurrent hFound) hRoot

/- Edits towards a canonical value put canonical values. -/
theorem isCanonical_of_mem_edits
    {current : Json}
    (hCurrent : current.IsCanonical)
    (previous : Json)
    {edit : Edit}
    (hEdit : edit ∈ edits current previous) :
    edit.instruction.IsCanonical :=
  Edit.isCanonical_of_puts
    (puts_of_mem_edits Json.inherited_isCanonical hCurrent
      previous hEdit)

------------------------------------------------------------
-- The Mutable Parts
------------------------------------------------------------

/- The edits of an object, by the places they lie below. -/
theorem edits_eq_planned
    (current previous : Json) :
    edits current previous =
      planned
        [ ("metadata",
            planned
              [ ("labels",
                  rootEdits []
                    (current.at? ["metadata", "labels"])
                    (previous.at? ["metadata", "labels"])),
                ("annotations",
                  rootEdits []
                    (current.at? ["metadata", "annotations"])
                    (previous.at?
                      ["metadata", "annotations"])) ]),
          ("spec",
            rootEdits [] (current.at? ["spec"])
              (previous.at? ["spec"])) ] := by
  have hUnder :
      ∀ key edits,
        List.map (Edit.below [key]) edits =
          edits.map (Edit.under key) :=
    fun _ _ => rfl
  have hBelow :
      ∀ key inner edits,
        List.map (Edit.below [key, inner]) edits =
          (edits.map (Edit.under inner)).map
            (Edit.under key) := by
    intro key inner edits
    rw [List.map_map]
    rfl
  simp only [edits, mutableRoots, planned, List.flatMap_cons,
    List.flatMap_nil, List.append_nil, List.map_append]
  rw [rootEdits_eq_below ["metadata", "labels"],
    rootEdits_eq_below ["metadata", "annotations"],
    rootEdits_eq_below ["spec"], hBelow, hBelow, hUnder,
    List.append_assoc]

/- No edit replaces the whole object. -/
theorem path_ne_nil_of_mem_edits
    {current previous : Json}
    {edit : Edit}
    (hEdit : edit ∈ edits current previous) :
    edit.path ≠ [] := by
  rw [edits_eq_planned] at hEdit
  rcases List.mem_flatMap.1 hEdit with ⟨entry, _, hEdit⟩
  rcases List.mem_map.1 hEdit with ⟨inner, _, rfl⟩
  exact List.cons_ne_nil _ _

end Diff

------------------------------------------------------------
-- Sent Documents
------------------------------------------------------------

/- A sent entry is read as the instruction of its edit. -/
theorem PatchEntry.readInstruction?_toJson
    {edit : Edit}
    (hEdit : edit.instruction.IsCanonical) :
    Patch.readInstruction? (PatchEntry.ofEdit edit).toJson =
      some edit.instruction := by
  obtain ⟨path, change⟩ := edit
  cases change with
  | add value =>
      have hValue := value.canonical_eq_self hEdit
      simp [ofEdit, toJson, Patch.readInstruction?,
        Patch.single?, Keyed.valuesAt, Patch.parameters?,
        Patch.instruction?, Patch.pointer?, Json.asString?,
        Edit.instruction, hValue]
  | replace value =>
      have hValue := value.canonical_eq_self hEdit
      simp [ofEdit, toJson, Patch.readInstruction?,
        Patch.single?, Keyed.valuesAt, Patch.parameters?,
        Patch.instruction?, Patch.pointer?, Json.asString?,
        Edit.instruction, hValue]
  | remove =>
      simp [ofEdit, toJson, Patch.readInstruction?,
        Patch.single?, Keyed.valuesAt, Patch.parameters?,
        Patch.instruction?, Patch.pointer?, Json.asString?,
        Edit.instruction]

/- A sent document is read as the instructions of its
   edits. -/
theorem PatchDocument.ofJson?_toJson
    {edits : List Edit}
    (hEdits :
      ∀ edit, edit ∈ edits → edit.instruction.IsCanonical) :
    Patch.ofJson? (PatchDocument.ofEdits edits).toJson =
      some (edits.map Edit.instruction) := by
  simp only [toJson, ofEdits, Patch.ofJson?, List.map_map]
  exact Result.mapM_map_eq_some edits fun edit hEdit =>
    PatchEntry.readInstruction?_toJson (hEdits edit hEdit)

namespace Diff

------------------------------------------------------------
-- What a Patch Does
------------------------------------------------------------

/- Two objects differ in their labels, their annotations and
   their specification at most. -/
structure SameElsewhere (left right : Json) : Prop where
  members :
    ∀ key, key ≠ "metadata" → key ≠ "spec" →
      right.member? key = left.member? key
  metadata :
    ∀ key, key ≠ "labels" → key ≠ "annotations" →
      right.at? ["metadata", key] = left.at? ["metadata", key]

/- Edits below two members. -/
theorem carry?_pair_iff
    {first second : String}
    (hNe : first ≠ second)
    {firstEdits secondEdits : List Edit}
    {members : List (String × Json)}
    (hSorted : Keyed.Sorted members)
    {slot : Option Json} :
    carry?
        (planned [(first, firstEdits), (second, secondEdits)])
        (some (.obj members)) = some slot ↔
      ∃ after,
        slot = some (.obj after) ∧ Keyed.Sorted after ∧
          carry? firstEdits (members.lookup first) =
            some (after.lookup first) ∧
          carry? secondEdits (members.lookup second) =
            some (after.lookup second) ∧
          ∀ key, key ≠ first → key ≠ second →
            after.lookup key = members.lookup key := by
  rw [carry?_plan_iff _ (by simp [hNe]) hSorted]
  refine exists_congr fun after => and_congr_right fun _ =>
    and_congr_right fun _ => ?_
  simp only [List.mem_cons, List.not_mem_nil, or_false,
    forall_eq_or_imp, forall_eq, List.map_cons, List.map_nil,
    not_or, and_imp, and_assoc]

/- The edits between two values act on each mutable part of a
   document, and leave it the same elsewhere. -/
theorem carry?_edits_iff
    {current previous document after : Json}
    (hDocument : document.IsCanonical)
    (hMetadata : document.HasMetadata)
    (hAfter : after.IsCanonical) :
    carry? (edits current previous) (some document) =
        some (some after) ↔
      after.HasMetadata ∧ SameElsewhere document after ∧
        ∀ root, root ∈ mutableRoots →
          carry?
              (rootEdits [] (current.at? root)
                (previous.at? root))
              (document.at? root) =
            some (after.at? root) := by
  rcases hMetadata with ⟨info, hInfo⟩
  have hInside := Json.at?_metadata hInfo
  cases document with
  | obj members =>
      have hInfoSorted := (hDocument.member hInfo).sorted
      have hLookup :
          members.lookup "metadata" = some (.obj info) := hInfo
      rw [edits_eq_planned,
        carry?_pair_iff (by decide) hDocument.sorted, hLookup]
      constructor
      · rintro ⟨afterMembers, hEq, _, hInner, hSpec, hSame⟩
        cases hEq
        rcases (carry?_pair_iff (by decide) hInfoSorted).1
            hInner with
          ⟨afterInfo, hAfterInfo, _, hLabels, hAnnotations,
            hInfoSame⟩
        have hAfterMetadata :
            (Json.obj afterMembers).member? "metadata" =
              some (.obj afterInfo) := hAfterInfo
        have hAfterInside := Json.at?_metadata hAfterMetadata
        refine ⟨⟨afterInfo, hAfterInfo⟩, ⟨hSame, ?_⟩, ?_⟩
        · intro key hNotLabels hNotAnnotations
          rw [hAfterInside, hInside]
          exact hInfoSame key hNotLabels hNotAnnotations
        · intro root hRoot
          simp only [mutableRoots, List.mem_cons,
            List.not_mem_nil, or_false] at hRoot
          rcases hRoot with rfl | rfl | rfl
          · rw [hAfterInside, hInside]
            exact hLabels
          · rw [hAfterInside, hInside]
            exact hAnnotations
          · rw [Json.at?_singleton _ (.obj members),
              Json.at?_singleton _ (.obj afterMembers)]
            exact hSpec
      · rintro ⟨⟨afterInfo, hAfterInfo⟩, hElsewhere, hRoots⟩
        have hAfterInside := Json.at?_metadata hAfterInfo
        have hLabels := hRoots ["metadata", "labels"]
          (by simp [mutableRoots])
        have hAnnotations := hRoots ["metadata", "annotations"]
          (by simp [mutableRoots])
        have hSpec := hRoots ["spec"] (by simp [mutableRoots])
        rw [hAfterInside, hInside] at hLabels hAnnotations
        rw [Json.at?_singleton _ (.obj members),
          Json.at?_singleton _ after] at hSpec
        cases after with
        | obj afterMembers =>
            have hAfterLookup :
                afterMembers.lookup "metadata" =
                  some (.obj afterInfo) := hAfterInfo
            refine ⟨afterMembers, rfl, hAfter.sorted, ?_,
              hSpec, hElsewhere.members⟩
            rw [hAfterLookup]
            apply (carry?_pair_iff (by decide) hInfoSorted).2
            refine ⟨afterInfo, rfl,
              (hAfter.member hAfterInfo).sorted, hLabels,
              hAnnotations, ?_⟩
            intro key hNotLabels hNotAnnotations
            rw [← hAfterInside, ← hInside]
            exact hElsewhere.metadata key hNotLabels
              hNotAnnotations
        | _ => cases hAfterInfo
  | _ => cases hInfo

/- A patch of edits does to a document what the edits do to
   each mutable part, and leaves it the same elsewhere. -/
theorem apply_edits_iff
    {current previous document after : Json}
    (hCurrent : current.IsCanonical)
    (hDocument : document.IsCanonical)
    (hMetadata : document.HasMetadata) :
    Patch.apply ((edits current previous).map Edit.instruction)
        document = .ok after ↔
      after.IsCanonical ∧ after.HasMetadata ∧
        SameElsewhere document after ∧
        ∀ root, root ∈ mutableRoots →
          carry?
              (rootEdits [] (current.at? root)
                (previous.at? root))
              (document.at? root) =
            some (after.at? root) := by
  have hPaths :
      ∀ edit, edit ∈ edits current previous →
        edit.path ≠ [] :=
    fun _ hEdit => path_ne_nil_of_mem_edits hEdit
  constructor
  · intro hApply
    have hAfter : after.IsCanonical := by
      refine Patch.apply_isCanonical ?_ hDocument hApply
      intro instruction hInstruction
      rcases List.mem_map.1 hInstruction with
        ⟨edit, hEdit, rfl⟩
      exact isCanonical_of_mem_edits hCurrent previous hEdit
    have hCarry := (apply_instructions_iff _ hPaths).1 hApply
    exact ⟨hAfter, (carry?_edits_iff hDocument hMetadata
      hAfter).1 hCarry⟩
  · rintro ⟨hAfter, hRest⟩
    exact (apply_instructions_iff _ hPaths).2
      ((carry?_edits_iff hDocument hMetadata hAfter).2 hRest)

/- The mutable parts of a document can be set to anything. -/
theorem exists_sameElsewhere
    {document : Json}
    (hDocument : document.IsCanonical)
    (hMetadata : document.HasMetadata)
    (slots : List String → Option Json)
    (hSlots :
      ∀ root value, slots root = some value →
        value.IsCanonical) :
    ∃ after : Json,
      after.IsCanonical ∧ after.HasMetadata ∧
        SameElsewhere document after ∧
        ∀ root, root ∈ mutableRoots →
          after.at? root = slots root := by
  rcases hMetadata with ⟨info, hInfo⟩
  have hInside := Json.at?_metadata hInfo
  cases document with
  | obj members =>
      let afterInfo :=
        Keyed.assign "annotations"
          (slots ["metadata", "annotations"])
          (Keyed.assign "labels" (slots ["metadata", "labels"])
            info)
      let after : Json :=
        .obj (Keyed.assign "spec" (slots ["spec"])
          (Keyed.insert "metadata" (.obj afterInfo) members))
      have hAfterInfo : IsCanonical (.obj afterInfo) :=
        ((hDocument.member hInfo).assign "labels"
          (hSlots _)).assign "annotations" (hSlots _)
      have hMetadata :
          after.member? "metadata" = some (.obj afterInfo) := by
        simp [after, Json.member?]
      have hAfterInside := Json.at?_metadata hMetadata
      refine ⟨after,
        (hDocument.insert "metadata" hAfterInfo).assign "spec"
          (hSlots _),
        ⟨afterInfo, hMetadata⟩, ⟨?_, ?_⟩, ?_⟩
      · intro key hNotMetadata hNotSpec
        simp [after, Json.member?, hNotMetadata, hNotSpec]
      · intro key hNotLabels hNotAnnotations
        rw [hAfterInside, hInside]
        simp [afterInfo, hNotLabels, hNotAnnotations]
      · intro root hRoot
        simp only [mutableRoots, List.mem_cons,
          List.not_mem_nil, or_false] at hRoot
        rcases hRoot with rfl | rfl | rfl
        · rw [hAfterInside]
          simp [afterInfo]
        · rw [hAfterInside]
          simp [afterInfo]
        · simp [after, Json.member?]
  | _ => cases hInfo

/- Canonical edits leave a canonical value behind. -/
theorem isCanonical_of_carry?
    {edits : List Edit}
    (hEdits :
      ∀ edit, edit ∈ edits → edit.instruction.IsCanonical)
    {slot made : Option Json}
    (hSlot :
      ∀ value, slot = some value → value.IsCanonical)
    (hCarry : carry? edits slot = some made) :
    ∀ value, made = some value → value.IsCanonical := by
  -- patches are known to keep objects canonical, so the value
  -- is looked at as the only member of an object
  let key := "value"
  have hEmpty : IsCanonical (.obj []) :=
    Json.isCanonical_obj .nil nofun
  have hMembers := hEmpty.assign key hSlot
  have hUnder :=
    carry?_under key edits hMembers.sorted
  rw [Keyed.lookup_assign, if_pos rfl, hCarry,
    Option.map_some] at hUnder
  have hPaths :
      ∀ edit, edit ∈ edits.map (Edit.under key) →
        edit.path ≠ [] := by
    intro edit hEdit
    rcases List.mem_map.1 hEdit with ⟨inner, _, rfl⟩
    exact List.cons_ne_nil _ _
  have hApply := (apply_instructions_iff _ hPaths).2 hUnder
  have hAfter := Patch.apply_isCanonical
    (by
      intro instruction hInstruction
      rcases List.mem_map.1 hInstruction with
        ⟨edit, hEdit, rfl⟩
      rcases List.mem_map.1 hEdit with ⟨inner, hInner, rfl⟩
      obtain ⟨path, change⟩ := inner
      have hInner := hEdits _ hInner
      cases change <;> exact hInner)
    hMembers hApply
  intro value hMade
  have hFound :
      (Keyed.assign key made
        (Keyed.assign key slot [])).lookup key =
        some value := by
    rw [Keyed.lookup_assign, if_pos rfl, hMade]
  exact hAfter.member hFound

/- A patch of edits succeeds when the edits of each mutable
   part do. -/
theorem exists_apply_edits
    {current previous document : Json}
    (hCurrent : current.IsCanonical)
    (hDocument : document.IsCanonical)
    (hMetadata : document.HasMetadata)
    (hRoots :
      ∀ root, root ∈ mutableRoots →
        ∃ made,
          carry?
              (rootEdits [] (current.at? root)
                (previous.at? root))
              (document.at? root) =
            some made) :
    ∃ after,
      Patch.apply
          ((edits current previous).map Edit.instruction)
          document = .ok after := by
  let slot (root : List String) : Option Json :=
    (carry?
      (rootEdits [] (current.at? root) (previous.at? root))
      (document.at? root)).getD none
  have hSlots :
      ∀ root value, slot root = some value →
        value.IsCanonical := by
    intro root value hValue
    cases hCarry :
        carry?
          (rootEdits [] (current.at? root)
            (previous.at? root))
          (document.at? root) with
    | none => simp [slot, hCarry] at hValue
    | some made =>
        refine isCanonical_of_carry? ?_
          (fun _ hFound => hDocument.at? hFound) hCarry value
          (by simpa [slot, hCarry] using hValue)
        intro edit hEdit
        exact Edit.isCanonical_of_puts
          (puts_of_mem_rootEdits Json.inherited_isCanonical
            (fun _ hFound => hCurrent.at? hFound) hEdit)
  rcases exists_sameElsewhere hDocument hMetadata slot
      hSlots with
    ⟨after, hAfter, hAfterMetadata, hElsewhere, hSlot⟩
  refine ⟨after,
    (apply_edits_iff hCurrent hDocument hMetadata).2
      ⟨hAfter, hAfterMetadata, hElsewhere, ?_⟩⟩
  intro root hRoot
  rcases hRoots root hRoot with ⟨made, hMade⟩
  rw [hSlot root hRoot]
  simp [slot, hMade]

/- Applied to the earlier of two values, the document of
   their edits makes its mutable parts those of the later
   one, and changes nothing else. -/
theorem apply_edits_reaches
    {current previous : Json}
    (hCurrent : current.IsCanonical)
    (hPrevious : previous.IsCanonical)
    (hMetadata : previous.HasMetadata) :
    ∃ patch after,
      Patch.ofJson?
          (PatchDocument.ofEdits
            (edits current previous)).toJson =
        some patch ∧
      Patch.apply patch previous = .ok after ∧
      after.IsCanonical ∧ after.HasMetadata ∧
      SameElsewhere previous after ∧
      ∀ root, root ∈ mutableRoots →
        after.at? root = current.at? root := by
  have hRead :=
    PatchDocument.ofJson?_toJson fun _ hEdit =>
      isCanonical_of_mem_edits hCurrent previous hEdit
  have hRoots :
      ∀ root, root ∈ mutableRoots →
        carry?
            (rootEdits [] (current.at? root)
              (previous.at? root))
            (previous.at? root) =
          some (current.at? root) :=
    fun _ _ => carry?_rootEdits
      (fun _ hFound => hCurrent.at? hFound)
      fun _ hFound => hPrevious.at? hFound
  rcases exists_apply_edits hCurrent hPrevious hMetadata
      fun root hRoot => ⟨_, hRoots root hRoot⟩ with
    ⟨after, hApply⟩
  rcases (apply_edits_iff hCurrent hPrevious hMetadata).1
      hApply with
    ⟨hAfter, hAfterMetadata, hElsewhere, hMade⟩
  refine ⟨_, after, hRead, hApply, hAfter, hAfterMetadata,
    hElsewhere, ?_⟩
  intro root hRoot
  have hBoth := (hMade root hRoot).symm.trans
    (hRoots root hRoot)
  exact Option.some.inj hBoth

end Diff

end Converge
