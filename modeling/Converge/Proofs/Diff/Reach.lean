import Converge.Proofs.Diff.Slot

/-
  Where the edits between two values lead.

  The edits between two objects are those of their members,
  each below its key, and leave members alone that neither
  object has. So what they make of a third object is told
  member by member. Applied to the earlier value, they make
  the later one of it.

  Main declarations:
    * `Diff.rootEdits_eq_below`: edits below a path
    * `Diff.carry?_obj_iff`: edits between two objects
    * `Diff.carry?_rootEdits`: the target is reached
-/

namespace Converge

open Json (IsCanonical)

/- The same edit below a path. -/
def Edit.below
    (front : List String)
    (edit : Edit) :
    Edit :=
  ⟨front ++ edit.path, edit.change⟩

namespace Diff

------------------------------------------------------------
-- Whole Values
------------------------------------------------------------

/- The edit that puts a value where another one may be. -/
def wholeEdits
    (path : List String)
    (current : Json) :
    Option Json → List Edit
  | none => [⟨path, .add current⟩]
  | some previous =>
      if current = previous then []
      else [⟨path, .replace current⟩]

/- Unless both are objects, a value is put as a whole. -/
theorem valueEdits_eq_wholeEdits
    (path : List String)
    {current : Json}
    {previous : Option Json}
    (hObjects :
      current.isObject = true →
        ∀ value, previous = some value →
          value.isObject = false) :
    valueEdits path current previous =
      wholeEdits path current previous := by
  cases previous with
  | none => cases current <;> simp only [valueEdits, wholeEdits]
  | some previous =>
      cases current with
      | obj current =>
          have hOther := hObjects rfl previous rfl
          cases previous with
          | obj previous => cases hOther
          | _ => simp only [valueEdits, wholeEdits]
      | _ => simp only [valueEdits, wholeEdits]

------------------------------------------------------------
-- Edits below a Path
------------------------------------------------------------

theorem wholeEdits_append
    (front path : List String)
    (current : Json)
    (previous : Option Json) :
    wholeEdits (front ++ path) current previous =
      (wholeEdits path current previous).map
        (Edit.below front) := by
  cases previous with
  | none => rfl
  | some previous =>
      simp only [wholeEdits]
      split <;> rfl

theorem removals_append
    (front path : List String)
    (current previous : List (String × Json)) :
    removals (front ++ path) current previous =
      (removals path current previous).map
        (Edit.below front) := by
  simp [removals, Edit.below]

/- The edits of a value that is put as a whole. -/
theorem valueEdits_append_of_whole
    (front path : List String)
    {current : Json}
    {previous : Option Json}
    (hObjects :
      current.isObject = true →
        ∀ value, previous = some value →
          value.isObject = false) :
    valueEdits (front ++ path) current previous =
      (valueEdits path current previous).map
        (Edit.below front) := by
  rw [valueEdits_eq_wholeEdits _ hObjects,
    valueEdits_eq_wholeEdits _ hObjects, wholeEdits_append]

mutual

/- A path only comes in front of the paths of edits. -/
theorem valueEdits_append
    (front path : List String) :
    ∀ (current : Json) (previous : Option Json),
      valueEdits (front ++ path) current previous =
        (valueEdits path current previous).map
          (Edit.below front)
  | .obj current, previous => by
      have hMembers := memberEdits_append front path current
      cases hPrevious : previous with
      | none =>
          exact valueEdits_append_of_whole front path
            fun _ _ h => nomatch h
      | some value =>
          cases value with
          | obj members =>
              simp only [valueEdits, List.map_append,
                hMembers members, removals_append]
          | _ =>
              exact valueEdits_append_of_whole front path
                fun _ _ h => Option.some.inj h ▸ rfl
  | .null, _ => valueEdits_append_of_whole front path nofun
  | .bool _, _ => valueEdits_append_of_whole front path nofun
  | .num _, _ => valueEdits_append_of_whole front path nofun
  | .str _, _ => valueEdits_append_of_whole front path nofun
  | .arr _, _ => valueEdits_append_of_whole front path nofun

theorem memberEdits_append
    (front path : List String) :
    ∀ current previous : List (String × Json),
      memberEdits (front ++ path) current previous =
        (memberEdits path current previous).map
          (Edit.below front)
  | [], _ => rfl
  | (key, value) :: rest, previous => by
      have hValue :=
        valueEdits_append front (path ++ [key]) value
          (previous.lookup key)
      have hRest := memberEdits_append front path rest previous
      simp only [memberEdits, List.append_assoc,
        List.map_append, hRest]
      rw [hValue]

end

/- Where nothing was before, a value is added. -/
theorem rootEdits_some_none
    (path : List String)
    (current : Json) :
    rootEdits path (some current) none =
      [⟨path, .add current⟩] := by
  cases current <;> rfl

/- The edits at a path are those of the place, below it. -/
theorem rootEdits_eq_below
    (path : List String)
    (current previous : Option Json) :
    rootEdits path current previous =
      (rootEdits [] current previous).map
        (Edit.below path) := by
  cases current with
  | none => cases previous <;> simp [rootEdits, Edit.below]
  | some current =>
      have h := valueEdits_append path [] current previous
      rwa [List.append_nil] at h

theorem valueEdits_singleton
    (key : String)
    (current : Json)
    (previous : Option Json) :
    valueEdits [key] current previous =
      (valueEdits [] current previous).map
        (Edit.under key) :=
  valueEdits_append [key] [] current previous

------------------------------------------------------------
-- Edits between Objects
------------------------------------------------------------

/- The edits of each member of two objects. -/
def plan
    (current previous : List (String × Json)) :
    List (String × List Edit) :=
  (current.map fun member =>
      (member.1,
        valueEdits [] member.2 (previous.lookup member.1))) ++
    (previous.filter fun member =>
      !Keyed.has member.1 current).map fun member =>
        (member.1, [⟨[], .remove⟩])

theorem valueEdits_obj
    (current previous : List (String × Json)) :
    valueEdits [] (.obj current) (some (.obj previous)) =
      planned (plan current previous) := by
  have hMembers :
      memberEdits [] current previous =
        planned (current.map fun member =>
          (member.1, valueEdits [] member.2
            (previous.lookup member.1))) := by
    induction current with
    | nil => rfl
    | cons member rest ih =>
        obtain ⟨key, value⟩ := member
        simp only [memberEdits, List.nil_append, ih,
          valueEdits_singleton]
        rfl
  have hRemovals :
      removals [] current previous =
        planned ((previous.filter fun member =>
          !Keyed.has member.1 current).map fun member =>
            (member.1, [⟨[], .remove⟩])) := by
    simp only [removals, planned, List.flatMap_map]
    induction (previous.filter fun member =>
      !Keyed.has member.1 current) with
    | nil => rfl
    | cons member rest ih =>
        simp only [List.map_cons, List.flatMap_cons, ih]
        rfl
  simp only [valueEdits, hMembers, hRemovals, plan, planned,
    List.flatMap_append]

/- A plan is the edits of each key that either object has. -/
theorem mem_plan_iff
    {current previous : List (String × Json)}
    (hCurrent : Keyed.Sorted current)
    (hPrevious : Keyed.Sorted previous)
    {entry : String × List Edit} :
    entry ∈ plan current previous ↔
      ((current.lookup entry.1).isSome ∨
          (previous.lookup entry.1).isSome) ∧
        entry.2 =
          rootEdits [] (current.lookup entry.1)
            (previous.lookup entry.1) := by
  obtain ⟨key, edits⟩ := entry
  simp only [plan, List.mem_append, List.mem_map,
    List.mem_filter, Prod.mk.injEq, Bool.not_eq_true']
  constructor
  · rintro (⟨member, hMember, rfl, rfl⟩ |
      ⟨member, ⟨hMember, hGone⟩, rfl, rfl⟩)
    · have hFound := hCurrent.lookup_of_mem hMember
      simp [hFound, rootEdits]
    · have hFound := hPrevious.lookup_of_mem hMember
      have hAbsent := Keyed.has_eq_false_iff.1 hGone
      simp [hFound, hAbsent, rootEdits]
  · rintro ⟨hThere, rfl⟩
    cases hNow : current.lookup key with
    | some value =>
        left
        exact ⟨(key, value), Keyed.mem_of_lookup hNow, rfl, rfl⟩
    | none =>
        right
        rw [hNow] at hThere
        rcases Option.isSome_iff_exists.1
            (hThere.resolve_left nofun) with ⟨value, hThen⟩
        refine ⟨(key, value), ⟨Keyed.mem_of_lookup hThen,
          Keyed.has_eq_false_iff.2 hNow⟩, rfl, ?_⟩
        rw [hThen, rootEdits]

theorem mem_keys_plan_iff
    {current previous : List (String × Json)}
    (hCurrent : Keyed.Sorted current)
    (hPrevious : Keyed.Sorted previous)
    (key : String) :
    key ∈ (plan current previous).map (fun entry => entry.1) ↔
      (current.lookup key).isSome ∨
        (previous.lookup key).isSome := by
  constructor
  · intro hKey
    rcases List.mem_map.1 hKey with ⟨entry, hEntry, rfl⟩
    exact ((mem_plan_iff hCurrent hPrevious).1 hEntry).1
  · intro hThere
    exact List.mem_map.2
      ⟨(key, rootEdits [] (current.lookup key)
          (previous.lookup key)),
        (mem_plan_iff hCurrent hPrevious).2 ⟨hThere, rfl⟩,
        rfl⟩

theorem nodup_plan
    {current previous : List (String × Json)}
    (hCurrent : Keyed.Sorted current)
    (hPrevious : Keyed.Sorted previous) :
    ((plan current previous).map fun entry =>
      entry.1).Nodup := by
  simp only [plan, List.map_append, List.map_map]
  refine List.nodup_append.2 ⟨hCurrent.nodup, ?_, ?_⟩
  · exact Keyed.Sorted.nodup
      (List.Pairwise.filter _ hPrevious)
  · intro key hNow other hGone hEq
    rcases List.mem_map.1 hNow with ⟨member, hMember, rfl⟩
    rcases List.mem_map.1 hGone with ⟨lost, hLost, rfl⟩
    have hAbsent := (List.mem_filter.1 hLost).2
    simp only [Bool.not_eq_true'] at hAbsent
    have hNone := Keyed.has_eq_false_iff.1 hAbsent
    have hFound := hCurrent.lookup_of_mem hMember
    simp only [Function.comp] at hEq
    rw [hEq, hNone] at hFound
    cases hFound

/- Edits between two objects act on each member of a third
   one as the edits between its values do. -/
theorem carry?_obj_iff
    {current previous members : List (String × Json)}
    (hCurrent : Keyed.Sorted current)
    (hPrevious : Keyed.Sorted previous)
    (hMembers : Keyed.Sorted members)
    {slot : Option Json} :
    carry? (valueEdits [] (.obj current) (some (.obj previous)))
        (some (.obj members)) =
          some slot ↔
      ∃ after,
        slot = some (.obj after) ∧ Keyed.Sorted after ∧
          ∀ key,
            carry?
                (rootEdits [] (current.lookup key)
                  (previous.lookup key))
                (members.lookup key) =
              some (after.lookup key) := by
  rw [valueEdits_obj,
    carry?_plan_iff _ (nodup_plan hCurrent hPrevious) hMembers]
  refine exists_congr fun after => and_congr_right fun _ =>
    and_congr_right fun _ => ?_
  have hKeys := mem_keys_plan_iff hCurrent hPrevious
  constructor
  · rintro ⟨hPlan, hSame⟩ key
    by_cases hThere :
        (current.lookup key).isSome ∨
          (previous.lookup key).isSome
    · exact hPlan
        (key, rootEdits [] (current.lookup key)
          (previous.lookup key))
        ((mem_plan_iff hCurrent hPrevious).2 ⟨hThere, rfl⟩)
    · rw [hSame key fun hKey => hThere ((hKeys key).1 hKey)]
      simp only [not_or, Option.not_isSome_iff_eq_none]
        at hThere
      rw [hThere.1, hThere.2]
      rfl
  · intro hSlots
    constructor
    · intro entry hEntry
      rw [((mem_plan_iff hCurrent hPrevious).1 hEntry).2]
      exact hSlots entry.1
    · intro key hKey
      rw [hKeys, not_or, Option.not_isSome_iff_eq_none,
        Option.not_isSome_iff_eq_none] at hKey
      have h := hSlots key
      rw [hKey.1, hKey.2] at h
      exact (Option.some.inj h).symm

------------------------------------------------------------
-- The Target
------------------------------------------------------------

theorem carry?_wholeEdits
    (current : Json)
    (previous : Option Json) :
    carry? (wholeEdits [] current previous) previous =
      some (some current) := by
  cases previous with
  | none => rfl
  | some previous =>
      simp only [wholeEdits]
      split
      · rename_i h
        rw [h]
        rfl
      · rfl

theorem carry?_valueEdits_of_whole
    {current : Json}
    {previous : Option Json}
    (hObjects :
      current.isObject = true →
        ∀ value, previous = some value →
          value.isObject = false) :
    carry? (valueEdits [] current previous) previous =
      some (some current) := by
  rw [valueEdits_eq_wholeEdits _ hObjects, carry?_wholeEdits]

mutual

/- The edits from one value to another make the other one of
   it. -/
theorem carry?_valueEdits :
    ∀ (current : Json) (previous : Option Json),
      current.IsCanonical →
      (∀ value, previous = some value → value.IsCanonical) →
        carry? (valueEdits [] current previous) previous =
          some (some current)
  | .obj current, previous, hCurrent, hPrevious => by
      cases previous with
      | none =>
          exact carry?_valueEdits_of_whole
            fun _ _ h => nomatch h
      | some value =>
          cases value with
          | obj members =>
              have hMembers := hPrevious _ rfl
              have hRest := carry?_memberEdits current
                (fun member hMember =>
                  hCurrent.member
                    (hCurrent.sorted.lookup_of_mem hMember))
                hMembers
              apply (carry?_obj_iff hCurrent.sorted
                hMembers.sorted hMembers.sorted).2
              refine ⟨current, rfl, hCurrent.sorted, ?_⟩
              intro key
              cases hNow : current.lookup key with
              | some value =>
                  exact hRest (key, value)
                    (Keyed.mem_of_lookup hNow)
              | none => cases members.lookup key <;> rfl
          | _ =>
              exact carry?_valueEdits_of_whole
                fun _ _ h => Option.some.inj h ▸ rfl
  | .null, _, _, _ => carry?_valueEdits_of_whole nofun
  | .bool _, _, _, _ => carry?_valueEdits_of_whole nofun
  | .num _, _, _, _ => carry?_valueEdits_of_whole nofun
  | .str _, _, _, _ => carry?_valueEdits_of_whole nofun
  | .arr _, _, _, _ => carry?_valueEdits_of_whole nofun

theorem carry?_memberEdits :
    ∀ (current : List (String × Json))
      {previous : List (String × Json)},
      (∀ member, member ∈ current → member.2.IsCanonical) →
      IsCanonical (.obj previous) →
        ∀ member, member ∈ current →
          carry?
              (valueEdits [] member.2
                (previous.lookup member.1))
              (previous.lookup member.1) =
            some (some member.2)
  | [], _, _, _, _, hMember => by cases hMember
  | (key, value) :: rest, previous, hCurrent, hPrevious,
      member, hMember => by
      rcases List.mem_cons.1 hMember with rfl | hMember
      · exact carry?_valueEdits value (previous.lookup key)
          (hCurrent _ List.mem_cons_self)
          fun _ hFound => hPrevious.member hFound
      · exact carry?_memberEdits rest
          (fun other hOther =>
            hCurrent other (List.mem_cons_of_mem _ hOther))
          hPrevious member hMember

end

/- The edits from one place to another make the other one of
   it. -/
theorem carry?_rootEdits
    {current previous : Option Json}
    (hCurrent :
      ∀ value, current = some value → value.IsCanonical)
    (hPrevious :
      ∀ value, previous = some value → value.IsCanonical) :
    carry? (rootEdits [] current previous) previous =
      some current := by
  cases current with
  | some current =>
      exact carry?_valueEdits current previous
        (hCurrent current rfl) hPrevious
  | none => cases previous <;> rfl

------------------------------------------------------------
-- No Edits
------------------------------------------------------------

theorem removals_self
    (path : List String)
    (members : List (String × Json)) :
    removals path members members = [] := by
  have hNone :
      (members.filter fun member =>
        !Keyed.has member.1 members) = [] := by
    apply List.filter_eq_nil_iff.2
    intro member hMember hAbsent
    have hHas : Keyed.has member.1 members = true :=
      List.any_eq_true.2 ⟨member, hMember, by simp⟩
    rw [hHas] at hAbsent
    cases hAbsent
  rw [removals, hNone]
  rfl

mutual

/- Nothing makes a value of itself. -/
theorem valueEdits_self
    (path : List String) :
    ∀ value : Json, value.IsCanonical →
      valueEdits path value (some value) = []
  | .obj members, h => by
      have hMembers :
          ∀ member, member ∈ members →
            member.2.IsCanonical ∧
              members.lookup member.1 = some member.2 := by
        intro member hMember
        have hFound := h.sorted.lookup_of_mem hMember
        exact ⟨h.member hFound, hFound⟩
      rw [valueEdits, removals_self,
        memberEdits_of_found path members members hMembers]
      rfl
  | .null, _ => by simp [valueEdits]
  | .bool _, _ => by simp [valueEdits]
  | .num _, _ => by simp [valueEdits]
  | .str _, _ => by simp [valueEdits]
  | .arr _, _ => by simp [valueEdits]

/- Members that are there already are not edited. -/
theorem memberEdits_of_found
    (path : List String) :
    ∀ current previous : List (String × Json),
      (∀ member, member ∈ current →
        member.2.IsCanonical ∧
          previous.lookup member.1 = some member.2) →
        memberEdits path current previous = []
  | [], _, _ => by rw [memberEdits]
  | (key, value) :: rest, previous, h => by
      have hFirst := h (key, value) List.mem_cons_self
      have hRest := memberEdits_of_found path rest previous
        fun other hOther =>
          h other (List.mem_cons_of_mem _ hOther)
      rw [memberEdits, hFirst.2, hRest, List.append_nil]
      exact valueEdits_self (path ++ [key]) value hFirst.1

end

/- The same for places that may be empty. -/
theorem rootEdits_self
    (path : List String)
    {slot : Option Json}
    (hSlot :
      ∀ value, slot = some value → value.IsCanonical) :
    rootEdits path slot slot = [] := by
  cases slot with
  | none => rfl
  | some value =>
      exact valueEdits_self path value (hSlot value rfl)

end Diff

end Converge
