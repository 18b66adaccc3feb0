import Converge.Diff
import Converge.Proofs.Json.Patch

/-
  What edits do to a place that may hold a value.

  A place is a member that is there or not. An edit of an
  empty path changes the place itself; any other edit changes
  the value it holds and fails when there is none. Edits
  below different members of an object do not meet, so a
  sequence of them comes down to one sequence for each
  member.

  Key definitions:
    * `Edit.instruction`: the instruction of an edit
    * `Edit.onSlot?`, `Diff.carry?`: edits of a place
    * `Edit.under`: an edit below a member

  Main declarations:
    * `Diff.apply_instructions_iff`: a patch is its edits
    * `Diff.carry?_plan_iff`: edits below several members
-/

namespace Converge

------------------------------------------------------------
-- Edits of a Place
------------------------------------------------------------

/- What a change makes of its own place. -/
def Change.onSlot? :
    Change → Option Json → Option (Option Json)
  | .add value, _ => some (some value)
  | .replace value, some _ => some (some value)
  | .replace _, none => none
  | .remove, some _ => some none
  | .remove, none => none

/- What a change at a path makes of a value. -/
def Change.within?
    (path : List String)
    (document : Json) :
    Change → Option Json
  | .add value => Instruction.add? path value document
  | .replace value =>
      Instruction.replace? path value document
  | .remove => Instruction.remove? path document

namespace Edit

/- The instruction of an edit. -/
def instruction (edit : Edit) : Instruction :=
  match edit.change with
  | .add value => .add edit.path value
  | .replace value => .replace edit.path value
  | .remove => .remove edit.path

/- What an edit makes of a place. -/
def onSlot? : Edit → Option Json → Option (Option Json)
  | ⟨[], change⟩, slot => change.onSlot? slot
  | ⟨_ :: _, _⟩, none => none
  | ⟨key :: path, change⟩, some document =>
      (change.within? (key :: path) document).map some

/- The same edit below a member. -/
def under
    (key : String)
    (edit : Edit) :
    Edit :=
  ⟨key :: edit.path, edit.change⟩

/- An instruction succeeds with what its edit makes of the
   value. -/
theorem apply_instruction_iff
    {edit : Edit}
    (hPath : edit.path ≠ [])
    {document after : Json} :
    edit.instruction.apply document = .ok after ↔
      edit.onSlot? (some document) = some (some after) := by
  obtain ⟨path, change⟩ := edit
  cases path with
  | nil => exact absurd rfl hPath
  | cons key path =>
      cases change <;>
        simp only [instruction, Instruction.apply,
          Instruction.orFault_eq_ok_iff, onSlot?,
          Change.within?, Option.map_eq_some_iff,
          Option.some.injEq, exists_eq_right]

/- An edit below the top leaves a value behind. -/
theorem onSlot?_ne_none
    {edit : Edit}
    (hPath : edit.path ≠ [])
    {slot : Option Json} :
    edit.onSlot? slot ≠ some none := by
  obtain ⟨path, change⟩ := edit
  cases path with
  | nil => exact absurd rfl hPath
  | cons key path => cases slot <;> simp [onSlot?]

end Edit

------------------------------------------------------------
-- Edits below a Member
------------------------------------------------------------

/- A change deep inside of an object happens inside of one
   of its members. -/
theorem Instruction.atParent?_cons
    (change : String → Json → Option Json)
    (key token : String)
    (path : Pointer)
    (members : List (String × Json)) :
    atParent? change (key :: token :: path) (.obj members) =
      (members.lookup key).bind fun inner =>
        (atParent? change (token :: path) inner).map
          fun changed =>
            .obj (Keyed.put key changed members) := by
  cases hLast : (token :: path).getLast? with
  | none => simp at hLast
  | some last =>
      have hLast' :
          (key :: token :: path).getLast? = some last := by
        simpa using hLast
      simp only [atParent?, hLast, hLast', List.dropLast,
        Pointer.modify?]
      cases members.lookup key with
      | none => rfl
      | some inner =>
          cases hChanged :
              Pointer.modify? (change last)
                (token :: path).dropLast inner <;>
            simp [hChanged]

theorem Change.within?_cons
    (change : Change)
    (key token : String)
    (path : List String)
    {members : List (String × Json)}
    (hSorted : Keyed.Sorted members) :
    change.within? (key :: token :: path) (.obj members) =
      (members.lookup key).bind fun inner =>
        (change.within? (token :: path) inner).map
          fun changed =>
            .obj (Keyed.insert key changed members) := by
  cases hInner : members.lookup key with
  | none =>
      cases change <;>
        simp [within?, Instruction.add?, Instruction.remove?,
          Instruction.replace?, Instruction.atParent?_cons,
          Pointer.modify?, hInner]
  | some inner =>
      have hThere : (members.lookup key).isSome := by
        rw [hInner]
        rfl
      have hPut := hSorted.put_eq_insert hThere
      cases change with
      | add value =>
          simp [within?, Instruction.add?,
            Instruction.atParent?_cons, hInner, hPut]
      | remove =>
          simp [within?, Instruction.remove?,
            Instruction.atParent?_cons, hInner, hPut]
      | replace value =>
          simp only [within?, Instruction.replace?]
          rw [Pointer.modify?]
          cases hChanged :
              Pointer.modify? (fun _ => some value)
                (token :: path) inner <;>
            simp [hInner, hPut, hChanged]

/- A change of a member. -/
theorem Change.within?_singleton
    (change : Change)
    (key : String)
    {members : List (String × Json)}
    (hSorted : Keyed.Sorted members) :
    change.within? [key] (.obj members) =
      (change.onSlot? (members.lookup key)).map fun slot =>
        .obj (Keyed.assign key slot members) := by
  cases change with
  | add value => rfl
  | remove =>
      simp only [within?, Instruction.remove?,
        Instruction.atParent?, List.getLast?_singleton,
        List.dropLast, Pointer.modify?,
        Instruction.removeChild?, Keyed.has_eq_isSome]
      cases members.lookup key <;> rfl
  | replace value =>
      cases hInner : members.lookup key with
      | none =>
          simp [within?, Instruction.replace?,
            Pointer.modify?, hInner, onSlot?]
      | some inner =>
          have hThere : (members.lookup key).isSome := by
            rw [hInner]
            rfl
          simp [within?, Instruction.replace?,
            Pointer.modify?, hInner, onSlot?, Keyed.assign,
            hSorted.put_eq_insert hThere]

/- An edit below a member is an edit of that member. -/
theorem Edit.onSlot?_under
    (key : String)
    (edit : Edit)
    {members : List (String × Json)}
    (hSorted : Keyed.Sorted members) :
    (edit.under key).onSlot? (some (.obj members)) =
      (edit.onSlot? (members.lookup key)).map fun slot =>
        some (.obj (Keyed.assign key slot members)) := by
  obtain ⟨path, change⟩ := edit
  cases path with
  | nil =>
      simp only [under, onSlot?,
        change.within?_singleton key hSorted, Option.map_map]
      rfl
  | cons token path =>
      simp only [under, onSlot?,
        change.within?_cons key token path hSorted]
      cases members.lookup key with
      | none => rfl
      | some inner =>
          simp only [Option.bind_some, Option.map_map]
          rfl

namespace Diff

------------------------------------------------------------
-- Sequences of Edits
------------------------------------------------------------

/- What edits make of a place, one after the other. -/
def carry? :
    List Edit → Option Json → Option (Option Json)
  | [], slot => some slot
  | edit :: rest, slot =>
      (edit.onSlot? slot).bind (carry? rest)

theorem carry?_append
    (first second : List Edit)
    (slot : Option Json) :
    carry? (first ++ second) slot =
      (carry? first slot).bind (carry? second) := by
  induction first generalizing slot with
  | nil => rfl
  | cons edit rest ih =>
      simp only [List.cons_append, carry?, Option.bind_assoc]
      congr 1
      funext next
      exact ih next

/- Edits below a member are edits of that member. -/
theorem carry?_under
    (key : String)
    (edits : List Edit)
    {members : List (String × Json)}
    (hSorted : Keyed.Sorted members) :
    carry? (edits.map (Edit.under key)) (some (.obj members)) =
      (carry? edits (members.lookup key)).map fun slot =>
        some (.obj (Keyed.assign key slot members)) := by
  induction edits generalizing members with
  | nil =>
      simp [carry?, hSorted.assign_lookup key]
  | cons edit rest ih =>
      simp only [List.map_cons, carry?,
        edit.onSlot?_under key hSorted]
      cases edit.onSlot? (members.lookup key) with
      | none => rfl
      | some slot =>
          have hRest := ih (hSorted.assign key slot)
          simp only [Option.map_some, Option.bind_some]
          rw [hRest, Keyed.lookup_assign, if_pos rfl]
          congr 1
          funext last
          rw [hSorted.assign_assign key slot last]

/- A patch succeeds with what its edits make of the value. -/
theorem applyFrom_instructions_iff
    (position : Nat)
    (edits : List Edit)
    (hPaths : ∀ edit, edit ∈ edits → edit.path ≠ [])
    {document after : Json} :
    Patch.applyFrom position (edits.map Edit.instruction)
        document = .ok after ↔
      carry? edits (some document) = some (some after) := by
  induction edits generalizing position document with
  | nil => simp [Patch.applyFrom, carry?]
  | cons edit rest ih =>
      have hPath := hPaths edit List.mem_cons_self
      have hOthers :
          ∀ other, other ∈ rest → other.path ≠ [] :=
        fun other hOther =>
          hPaths other (List.mem_cons_of_mem _ hOther)
      simp only [List.map_cons, Patch.applyFrom, carry?]
      cases hApply : edit.instruction.apply document with
      | ok next =>
          have hSlot :=
            (Edit.apply_instruction_iff hPath).1 hApply
          rw [hSlot]
          exact ih (position + 1) hOthers
      | error fault =>
          cases hSlot : edit.onSlot? (some document) with
          | none => simp
          | some slot =>
              cases slot with
              | none =>
                  exact absurd hSlot
                    (Edit.onSlot?_ne_none hPath)
              | some next =>
                  have hOk :=
                    (Edit.apply_instruction_iff hPath).2 hSlot
                  rw [hOk] at hApply
                  cases hApply

theorem apply_instructions_iff
    (edits : List Edit)
    (hPaths : ∀ edit, edit ∈ edits → edit.path ≠ [])
    {document after : Json} :
    Patch.apply (edits.map Edit.instruction) document =
        .ok after ↔
      carry? edits (some document) = some (some after) :=
  applyFrom_instructions_iff 0 edits hPaths

------------------------------------------------------------
-- Edits below Several Members
------------------------------------------------------------

/- The edits below the members of a plan. -/
def planned (plan : List (String × List Edit)) : List Edit :=
  plan.flatMap fun entry => entry.2.map (Edit.under entry.1)

/- Edits below different members succeed when those of each
   member do, and leave all other members alone. -/
theorem carry?_plan_iff
    (plan : List (String × List Edit))
    (hNodup : (plan.map fun entry => entry.1).Nodup)
    {members : List (String × Json)}
    (hSorted : Keyed.Sorted members)
    {slot : Option Json} :
    carry? (planned plan) (some (.obj members)) = some slot ↔
      ∃ after,
        slot = some (.obj after) ∧ Keyed.Sorted after ∧
          (∀ entry, entry ∈ plan →
            carry? entry.2 (members.lookup entry.1) =
              some (after.lookup entry.1)) ∧
          ∀ key, key ∉ plan.map (fun entry => entry.1) →
            after.lookup key = members.lookup key := by
  induction plan generalizing members with
  | nil =>
      simp only [planned, List.flatMap_nil, carry?,
        List.map_nil, List.not_mem_nil, not_false_eq_true,
        forall_const, false_implies, true_and,
        Option.some.injEq]
      constructor
      · intro h
        exact ⟨members, h.symm, hSorted, fun _ => rfl⟩
      · rintro ⟨after, hSlot, hAfter, hSame⟩
        rw [hSlot, hSorted.ext hAfter fun key =>
          (hSame key).symm]
  | cons entry rest ih =>
      obtain ⟨first, edits⟩ := entry
      simp only [List.map_cons, List.nodup_cons] at hNodup
      have hSplit :
          planned ((first, edits) :: rest) =
            edits.map (Edit.under first) ++ planned rest :=
        rfl
      rw [hSplit, carry?_append, carry?_under first edits hSorted]
      cases hFirst : carry? edits (members.lookup first) with
      | none =>
          constructor
          · intro h
            cases h
          · rintro ⟨after, _, _, hPlan, _⟩
            have h := hPlan (first, edits) List.mem_cons_self
            rw [hFirst] at h
            cases h
      | some found =>
          have hOther :
              ∀ entry, entry ∈ rest → entry.1 ≠ first := by
            intro entry hEntry hEq
            exact hNodup.1
              (List.mem_map.2 ⟨entry, hEntry, hEq⟩)
          simp only [Option.map_some, Option.bind_some]
          rw [ih hNodup.2 (hSorted.assign first found)]
          constructor
          · rintro ⟨after, hSlot, hAfter, hPlan, hSame⟩
            refine ⟨after, hSlot, hAfter, ?_, ?_⟩
            · intro entry hEntry
              rcases List.mem_cons.1 hEntry with rfl | hEntry
              · rw [hFirst, hSame first hNodup.1]
                simp
              · have h := hPlan entry hEntry
                rwa [Keyed.lookup_assign,
                  if_neg (hOther entry hEntry)] at h
            · intro key hKey
              simp only [List.map_cons, List.mem_cons,
                not_or] at hKey
              rw [hSame key hKey.2, Keyed.lookup_assign,
                if_neg hKey.1]
          · rintro ⟨after, hSlot, hAfter, hPlan, hSame⟩
            refine ⟨after, hSlot, hAfter, ?_, ?_⟩
            · intro entry hEntry
              rw [Keyed.lookup_assign,
                if_neg (hOther entry hEntry)]
              exact hPlan entry
                (List.mem_cons_of_mem _ hEntry)
            · intro key hKey
              rw [Keyed.lookup_assign]
              by_cases hEq : key = first
              · have h :=
                  hPlan (first, edits) List.mem_cons_self
                rw [hFirst] at h
                rw [if_pos hEq, hEq]
                exact (Option.some.inj h).symm
              · rw [if_neg hEq]
                apply hSame
                simp only [List.map_cons, List.mem_cons,
                  not_or]
                exact ⟨hEq, hKey⟩

end Diff

end Converge
