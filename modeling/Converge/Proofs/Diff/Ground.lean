import Converge.Proofs.Diff.Cover
import Converge.Proofs.Diff.Roots

/-
  The ground that edits need.

  An edit below the top changes a member of an object, which
  must be there. Edits need their ground only, when they
  succeed on a place exactly if all of these objects are
  there. What edits between two objects do is told member by
  member, and so is what they need.

  Key definitions:
    * `Edit.Grounded`, `Diff.Grounded`: the objects are there
    * `Diff.NeedsGround`: nothing else can go wrong
    * `Pointer.isMemberName`: a token that denotes no item

  Main declarations:
    * `Diff.needsGround_obj`: member by member
    * `Diff.needsGround_of_named`: where there is no object
    * `Diff.exists_apply_iff_grounded`: a patch of an object
-/

namespace Converge

/- A token that denotes no item of an array, nor the place
   behind the last one. -/
def Pointer.isMemberName (token : String) : Bool :=
  (position? token).isNone && token != "-"

theorem Pointer.isMemberName_iff
    {token : String} :
    isMemberName token = true ↔
      position? token = none ∧ token ≠ "-" := by
  simp [isMemberName]

/- Following member keys in two steps. -/
theorem Json.at?_append
    (front path : List String)
    (value : Json) :
    value.at? (front ++ path) =
      (value.at? front).bind (at? path) := by
  induction front generalizing value with
  | nil => rfl
  | cons key rest ih =>
      simp only [List.cons_append, at?, Option.bind_assoc]
      congr 1
      funext inner
      exact ih inner

------------------------------------------------------------
-- Members of What is No Object
------------------------------------------------------------

section NotObject

variable {token : String}
variable {value : Json}

/- Nothing is found at a member name but in an object. -/
theorem Pointer.modify?_of_not_obj
    (hName : isMemberName token = true)
    (hValue : ∀ members, value ≠ .obj members)
    (change : Json → Option Json)
    (rest : Pointer) :
    modify? change (token :: rest) value = none := by
  have hPosition := (isMemberName_iff.1 hName).1
  cases value with
  | obj members => exact absurd rfl (hValue members)
  | arr items => simp [modify?, hPosition]
  | _ => rfl

namespace Instruction

theorem addChild?_of_not_obj
    (hName : Pointer.isMemberName token = true)
    (hValue : ∀ members, value ≠ .obj members)
    (content : Json) :
    addChild? token content value = none := by
  rcases Pointer.isMemberName_iff.1 hName with
    ⟨hPosition, hEnd⟩
  cases value with
  | obj members => exact absurd rfl (hValue members)
  | arr items =>
      simp [addChild?, Pointer.positionBelow?, hPosition, hEnd]
  | _ => rfl

theorem removeChild?_of_not_obj
    (hName : Pointer.isMemberName token = true)
    (hValue : ∀ members, value ≠ .obj members) :
    removeChild? token value = none := by
  have hPosition := (Pointer.isMemberName_iff.1 hName).1
  cases value with
  | obj members => exact absurd rfl (hValue members)
  | arr items =>
      simp [removeChild?, Pointer.positionBelow?, hPosition]
  | _ => rfl

/- A change at or below a member fails when it fails at the
   member. -/
theorem atParent?_of_not_obj
    (change : String → Json → Option Json)
    (hName : Pointer.isMemberName token = true)
    (hValue : ∀ members, value ≠ .obj members)
    (hChange : change token value = none)
    (rest : Pointer) :
    atParent? change (token :: rest) value = none := by
  cases rest with
  | nil => exact hChange
  | cons next rest =>
      cases hLast : (token :: next :: rest).getLast? with
      | none => simp at hLast
      | some last =>
          simp only [atParent?, hLast, List.dropLast]
          exact Pointer.modify?_of_not_obj hName hValue _ _

end Instruction

end NotObject

------------------------------------------------------------
-- Edits and Their Ground
------------------------------------------------------------

namespace Edit

/- The object whose member an edit changes is there. -/
def Grounded
    (slot : Option Json)
    (edit : Edit) :
    Prop :=
  edit.path ≠ [] →
    ∃ members,
      slot.bind (Json.at? edit.path.dropLast) =
        some (.obj members)

/- An edit of a whole place needs no object. -/
theorem grounded_of_whole
    (slot : Option Json)
    {edit : Edit}
    (hPath : edit.path = []) :
    edit.Grounded slot :=
  fun hNot => absurd hPath hNot

/- Below a member of an object, an edit needs what it needs
   of the member. -/
theorem grounded_under_iff
    {key : String}
    {inner : Edit}
    {members : List (String × Json)} :
    (inner.under key).Grounded (some (.obj members)) ↔
      inner.Grounded (members.lookup key) := by
  obtain ⟨path, change⟩ := inner
  cases path with
  | nil =>
      refine iff_of_true (fun _ => ⟨members, rfl⟩) ?_
      exact grounded_of_whole _ rfl
  | cons token path =>
      have hInside :
          (some (Json.obj members)).bind
              (Json.at? (key :: token :: path).dropLast) =
            (members.lookup key).bind
              (Json.at? (token :: path).dropLast) := rfl
      simp only [Grounded, under, hInside, ne_eq,
        reduceCtorEq, not_false_eq_true, true_implies]

section NoObject

variable {slot : Option Json}
variable {edit : Edit}
variable {token : String} {rest : List String}

/- Where there is no object, nothing below is grounded. -/
theorem not_grounded_of_not_obj
    (hSlot : ∀ members, slot ≠ some (.obj members))
    (hPath : edit.path = token :: rest) :
    ¬edit.Grounded slot := by
  intro hGrounded
  rcases hGrounded (by rw [hPath]; exact List.cons_ne_nil _ _)
    with ⟨members, hFound⟩
  rw [hPath] at hFound
  cases rest with
  | nil =>
      cases slot with
      | none => cases hFound
      | some value => exact hSlot members hFound
  | cons next rest =>
      cases slot with
      | none => cases hFound
      | some value =>
          cases value with
          | obj others => exact hSlot others rfl
          | _ => cases hFound

/- Changes of a member fail where there is no object. -/
theorem onSlot?_of_not_obj
    (hSlot : ∀ members, slot ≠ some (.obj members))
    (hPath : edit.path = token :: rest)
    (hName : Pointer.isMemberName token = true) :
    edit.onSlot? slot = none := by
  obtain ⟨path, change⟩ := edit
  simp only at hPath
  subst hPath
  cases slot with
  | none => rfl
  | some value =>
      have hValue : ∀ members, value ≠ .obj members :=
        fun members hEq => hSlot members (congrArg some hEq)
      have hWithin :
          change.within? (token :: rest) value = none := by
        cases change with
        | add content =>
            exact Instruction.atParent?_of_not_obj
              (fun token => Instruction.addChild? token content)
              hName hValue
              (Instruction.addChild?_of_not_obj hName hValue
                content)
              rest
        | remove =>
            exact Instruction.atParent?_of_not_obj
              Instruction.removeChild? hName hValue
              (Instruction.removeChild?_of_not_obj hName
                hValue)
              rest
        | replace content =>
            exact Pointer.modify?_of_not_obj hName hValue _ rest
      rw [onSlot?, hWithin]
      rfl

end NoObject

end Edit

namespace Diff

/- All objects whose members some edits change are there. -/
def Grounded
    (edits : List Edit)
    (slot : Option Json) :
    Prop :=
  ∀ edit, edit ∈ edits → edit.Grounded slot

/- Edits fail for a missing object alone: they succeed on a
   place exactly when their ground is there. -/
def NeedsGround
    (edits : List Edit)
    (slot : Option Json) :
    Prop :=
  (∃ made, carry? edits slot = some made) ↔
    Grounded edits slot

theorem needsGround_nil (slot : Option Json) :
    NeedsGround [] slot :=
  iff_of_true ⟨slot, rfl⟩ nofun

/- An edit of a whole place needs no more than what it
   changes. -/
theorem needsGround_singleton
    {change : Change}
    {slot made : Option Json}
    (hMade : change.onSlot? slot = some made) :
    NeedsGround [⟨[], change⟩] slot := by
  refine iff_of_true ⟨made, ?_⟩ ?_
  · simp only [carry?, Edit.onSlot?, hMade, Option.bind_some]
  · intro edit hEdit
    rw [List.mem_singleton.1 hEdit]
    exact Edit.grounded_of_whole slot rfl

/- Where nothing was before, a value is added. -/
theorem needsGround_rootEdits_none
    (current slot : Option Json) :
    NeedsGround (rootEdits [] current none) slot := by
  cases current with
  | none => exact needsGround_nil slot
  | some value =>
      rw [rootEdits_some_none]
      exact needsGround_singleton rfl

/- What is no object is put as a whole, where something is
   now if something was before. -/
theorem needsGround_of_whole
    {current previous slot : Option Json}
    (hWhole :
      ∀ value, current = some value →
        value.isObject = false)
    (hThere : previous.isSome → slot.isSome) :
    NeedsGround (rootEdits [] current previous) slot := by
  cases previous with
  | none => exact needsGround_rootEdits_none current slot
  | some previous =>
      rcases Option.isSome_iff_exists.1 (hThere rfl) with
        ⟨value, rfl⟩
      cases current with
      | none => exact needsGround_singleton rfl
      | some current =>
          rw [rootEdits, valueEdits_eq_wholeEdits [] fun h => by
            rw [hWhole current rfl] at h
            cases h]
          simp only [wholeEdits]
          split
          · exact needsGround_nil _
          · exact needsGround_singleton rfl

section Objects

variable {current previous : List (String × Json)}

/- Edits between two objects are grounded in a third one when
   those of each member are grounded there. -/
theorem grounded_obj_iff
    (hCurrent : Keyed.Sorted current)
    (hPrevious : Keyed.Sorted previous)
    {members : List (String × Json)} :
    Grounded
        (valueEdits [] (.obj current) (some (.obj previous)))
        (some (.obj members)) ↔
      ∀ key,
        Grounded
          (rootEdits [] (current.lookup key)
            (previous.lookup key))
          (members.lookup key) := by
  constructor
  · intro hGrounded key inner hInner
    exact Edit.grounded_under_iff.1
      (hGrounded _ ((mem_valueEdits_obj_iff hCurrent
        hPrevious).2 ⟨key, inner, hInner, rfl⟩))
  · intro hKeys edit hEdit
    rcases (mem_valueEdits_obj_iff hCurrent hPrevious).1 hEdit
      with ⟨key, inner, hInner, rfl⟩
    exact Edit.grounded_under_iff.2 (hKeys key inner hInner)

theorem needsGround_obj
    (hCurrent : Keyed.Sorted current)
    (hPrevious : Keyed.Sorted previous)
    {members : List (String × Json)}
    (hMembers : Keyed.Sorted members)
    (hKeys :
      ∀ key,
        NeedsGround
          (rootEdits [] (current.lookup key)
            (previous.lookup key))
          (members.lookup key)) :
    NeedsGround
      (valueEdits [] (.obj current) (some (.obj previous)))
      (some (.obj members)) := by
  rw [NeedsGround, grounded_obj_iff hCurrent hPrevious]
  constructor
  · rintro ⟨made, hCarry⟩ key
    rcases (carry?_obj_iff hCurrent hPrevious hMembers).1
        hCarry with
      ⟨after, _, _, hEach⟩
    exact (hKeys key).1 ⟨_, hEach key⟩
  · intro hGrounded
    rcases exists_carry?_obj hCurrent hPrevious hMembers
        fun key => (hKeys key).2 (hGrounded key) with
      ⟨after, hCarry⟩
    exact ⟨_, hCarry⟩

/- Edits between two objects whose members have names need an
   object, and fail where there is none. -/
theorem needsGround_of_named
    (hCurrent : Keyed.Sorted current)
    (hPrevious : Keyed.Sorted previous)
    (hNames :
      ∀ key,
        (current.lookup key).isSome ∨
            (previous.lookup key).isSome →
          Pointer.isMemberName key = true)
    {slot : Option Json}
    (hSlot : ∀ members, slot ≠ some (.obj members)) :
    NeedsGround
      (valueEdits [] (.obj current) (some (.obj previous)))
      slot := by
  cases hEdits :
      valueEdits [] (.obj current) (some (.obj previous)) with
  | nil => exact needsGround_nil slot
  | cons edit rest =>
      have hEdit :
          edit ∈
            valueEdits [] (.obj current)
              (some (.obj previous)) := by
        rw [hEdits]
        exact List.mem_cons_self
      rcases (mem_valueEdits_obj_iff hCurrent hPrevious).1
        hEdit with ⟨key, inner, hInner, rfl⟩
      have hThere :
          (current.lookup key).isSome ∨
            (previous.lookup key).isSome := by
        cases hNow : current.lookup key with
        | some _ => exact Or.inl rfl
        | none =>
            cases hThen : previous.lookup key with
            | some _ => exact Or.inr rfl
            | none =>
                rw [hNow, hThen] at hInner
                cases hInner
      refine iff_of_false ?_ ?_
      · rintro ⟨made, hCarry⟩
        rw [carry?, Edit.onSlot?_of_not_obj hSlot rfl
          (hNames key hThere)] at hCarry
        cases hCarry
      · intro hGrounded
        exact Edit.not_grounded_of_not_obj hSlot rfl
          (hGrounded _ List.mem_cons_self)

end Objects

------------------------------------------------------------
-- Patches of a Document
------------------------------------------------------------

/- Above each mutable part of a document with metadata there
   is an object. -/
theorem exists_above_root
    {document : Json}
    (hMetadata : document.HasMetadata)
    {root : List String}
    (hRoot : root ∈ mutableRoots) :
    root ≠ [] ∧
      ∃ members,
        document.at? root.dropLast = some (.obj members) := by
  rcases hMetadata with ⟨info, hInfo⟩
  simp only [mutableRoots, List.mem_cons, List.not_mem_nil,
    or_false] at hRoot
  rcases hRoot with rfl | rfl | rfl
  · refine ⟨List.cons_ne_nil _ _, info, ?_⟩
    rw [← hInfo]
    exact Json.at?_singleton "metadata" document
  · refine ⟨List.cons_ne_nil _ _, info, ?_⟩
    rw [← hInfo]
    exact Json.at?_singleton "metadata" document
  · refine ⟨List.cons_ne_nil _ _, ?_⟩
    cases document with
    | obj members => exact ⟨members, rfl⟩
    | _ => cases hInfo

/- Edits of a document are grounded when those of each mutable
   part are. -/
theorem grounded_edits_iff
    {current previous document : Json}
    (hMetadata : document.HasMetadata) :
    Grounded (edits current previous) (some document) ↔
      ∀ root, root ∈ mutableRoots →
        Grounded
          (rootEdits [] (current.at? root) (previous.at? root))
          (document.at? root) := by
  have hBelow :
      ∀ root, root ∈ mutableRoots → ∀ inner : Edit,
        (inner.below root).Grounded (some document) ↔
          inner.Grounded (document.at? root) := by
    intro root hRoot inner
    rcases exists_above_root hMetadata hRoot with
      ⟨hNe, members, hAbove⟩
    by_cases hPath : inner.path = []
    · refine iff_of_true (fun _ => ⟨members, ?_⟩)
        (Edit.grounded_of_whole _ hPath)
      rw [Edit.below, hPath, List.append_nil]
      exact hAbove
    · have hInside :
          document.at? (root ++ inner.path).dropLast =
            (document.at? root).bind
              (Json.at? inner.path.dropLast) := by
        rw [List.dropLast_append_of_ne_nil hPath,
          Json.at?_append]
      simp only [Edit.Grounded, Edit.below, Option.bind_some,
        hInside, ne_eq, List.append_eq_nil_iff, hNe, hPath,
        false_and, not_false_eq_true, true_implies]
  constructor
  · intro hGrounded root hRoot inner hInner
    refine (hBelow root hRoot inner).1 (hGrounded _ ?_)
    refine List.mem_flatMap.2 ⟨root, hRoot, ?_⟩
    rw [rootEdits_eq_below]
    exact List.mem_map.2 ⟨inner, hInner, rfl⟩
  · intro hRoots edit hEdit
    rcases List.mem_flatMap.1 hEdit with
      ⟨root, hRoot, hMember⟩
    rw [rootEdits_eq_below] at hMember
    rcases List.mem_map.1 hMember with ⟨inner, hInner, rfl⟩
    exact (hBelow root hRoot inner).2
      (hRoots root hRoot inner hInner)

/- A patch of edits that need their ground only is carried
   out exactly when it is there. -/
theorem exists_apply_iff_grounded
    {current previous document : Json}
    (hCurrent : current.IsCanonical)
    (hDocument : document.IsCanonical)
    (hMetadata : document.HasMetadata)
    (hRoots :
      ∀ root, root ∈ mutableRoots →
        NeedsGround
          (rootEdits [] (current.at? root) (previous.at? root))
          (document.at? root)) :
    (∃ after,
        Patch.apply
            ((edits current previous).map Edit.instruction)
            document = .ok after) ↔
      Grounded (edits current previous) (some document) := by
  rw [grounded_edits_iff hMetadata]
  constructor
  · rintro ⟨after, hApply⟩ root hRoot
    have hMade :=
      ((apply_edits_iff hCurrent hDocument hMetadata).1
        hApply).2.2.2 root hRoot
    exact (hRoots root hRoot).1 ⟨_, hMade⟩
  · intro hGrounded
    exact exists_apply_edits hCurrent hDocument hMetadata
      fun root hRoot =>
        (hRoots root hRoot).2 (hGrounded root hRoot)

end Diff

end Converge
