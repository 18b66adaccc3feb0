import Mathlib.Data.List.Basic
import Converge.Proofs.Keyed
import Converge.Proofs.Json.Patch

/-
  What a patch document leaves alone.

  An instruction changes the place that it names, and with it
  what lies inside and what it lies inside of. Any other
  place that is reached by member keys holds what it held,
  whatever the values on the way are.

  Key definitions:
    * `Pointer.Apart`: places neither of which holds the other
    * `Instruction.Spares`: instructions that name no place
      that holds a given one or is inside it

  Main declarations:
    * `Pointer.at?_of_modify?`: changes of one place
    * `Instruction.at?_of_apply`
    * `Patch.at?_of_apply`
-/

namespace Converge

------------------------------------------------------------
-- Changes of One Place
------------------------------------------------------------

namespace Pointer

/- Neither of two places is the other one or inside it. -/
def Apart
    (pointer : Pointer)
    (path : List String) :
    Prop :=
  ¬pointer <+: path ∧ ¬path <+: pointer

/- A change of one place leaves another one alone that is not
   around it, when it leaves alone what of this is inside. -/
theorem at?_of_modify?
    {change : Json → Option Json}
    {pointer : Pointer}
    {path : List String}
    (hOutside : ¬path <+: pointer)
    (hInside :
      ∀ rest value changed,
        path = pointer ++ rest →
          change value = some changed →
            changed.at? rest = value.at? rest)
    {document after : Json}
    (hAfter : modify? change pointer document = some after) :
    after.at? path = document.at? path := by
  induction pointer generalizing path document after with
  | nil => exact hInside path document after rfl hAfter
  | cons token rest ih =>
      cases path with
      | nil => exact absurd List.nil_prefix hOutside
      | cons key keys =>
          cases document with
          | obj members =>
              rcases Option.bind_eq_some_iff.1 hAfter with
                ⟨value, hValue, hRest⟩
              rcases Option.bind_eq_some_iff.1 hRest with
                ⟨changed, hChanged, hMade⟩
              cases hMade
              simp only [Json.at?, Json.member?]
              by_cases hKey : key = token
              · subst hKey
                rw [Keyed.lookup_put_self, hValue]
                refine ih ?_ ?_ hChanged
                · exact mt (List.prefix_cons_inj key).2
                    hOutside
                · rintro inner value changed rfl hInner
                  exact hInside inner value changed rfl
                    hInner
              · rw [Keyed.lookup_put_of_ne hKey]
          | arr items =>
              simp only [modify?, Option.bind_eq_bind,
                Option.bind_eq_some_iff] at hAfter
              rcases hAfter with
                ⟨_, _, _, _, _, _, hMade⟩
              cases hMade
              rfl
          | _ => cases hAfter

end Pointer

------------------------------------------------------------
-- Instructions
------------------------------------------------------------

namespace Instruction

/- Adding a child changes no other member. -/
theorem at?_of_addChild?
    {token key : String}
    (hKey : key ≠ token)
    {value container changed : Json}
    (hChanged :
      addChild? token value container = some changed)
    (keys : List String) :
    changed.at? (key :: keys) =
      container.at? (key :: keys) := by
  cases container with
  | obj members =>
      cases hChanged
      simp only [Json.at?, Json.member?, Keyed.lookup_insert,
        if_neg hKey]
  | arr items =>
      simp only [addChild?] at hChanged
      split at hChanged
      · cases hChanged
        rfl
      · rcases Option.map_eq_some_iff.1 hChanged with
          ⟨position, _, rfl⟩
        rfl
  | _ => cases hChanged

/- Nor does removing one. -/
theorem at?_of_removeChild?
    {token key : String}
    (hKey : key ≠ token)
    {container changed : Json}
    (hChanged : removeChild? token container = some changed)
    (keys : List String) :
    changed.at? (key :: keys) =
      container.at? (key :: keys) := by
  cases container with
  | obj members =>
      simp only [removeChild?] at hChanged
      split at hChanged
      · cases hChanged
        simp only [Json.at?, Json.member?, Keyed.lookup_erase,
          if_neg hKey]
      · cases hChanged
  | arr items =>
      rcases Option.map_eq_some_iff.1 hChanged with
        ⟨position, _, rfl⟩
      rfl
  | _ => cases hChanged

section Places

variable {target path : List String}
variable {value document after : Json}

/- A container may hold both places, so it is the child that
   tells them apart. -/
theorem at?_of_atParent?
    {change : String → Json → Option Json}
    (hChange :
      ∀ token key container changed,
        key ≠ token →
          change token container = some changed →
            ∀ keys,
              changed.at? (key :: keys) =
                container.at? (key :: keys))
    (hApart : Pointer.Apart target path)
    (hAfter : atParent? change target document = some after) :
    after.at? path = document.at? path := by
  simp only [atParent?] at hAfter
  split at hAfter
  next => cases hAfter
  next token hToken =>
    have hTarget : target.dropLast ++ [token] = target :=
      List.dropLast_append_getLast? token hToken
    have hOutside : ¬path <+: target.dropLast := fun hAbove =>
      hApart.2 (hAbove.trans (List.dropLast_prefix target))
    refine Pointer.at?_of_modify? hOutside ?_ hAfter
    intro rest container changed hPath hChanged
    cases rest with
    | nil =>
        rw [List.append_nil] at hPath
        exact absurd (hPath ▸ List.prefix_rfl) hOutside
    | cons key keys =>
        refine hChange _ _ _ _ ?_ hChanged keys
        rintro rfl
        -- otherwise the target holds the place
        refine hApart.1 ⟨keys, ?_⟩
        rw [hPath, ← hTarget, List.append_assoc]
        simp

theorem at?_of_add?
    (hApart : Pointer.Apart target path)
    (hAfter : add? target value document = some after) :
    after.at? path = document.at? path := by
  simp only [add?] at hAfter
  split at hAfter
  next hWhole =>
    rw [List.isEmpty_iff.1 hWhole] at hApart
    exact absurd List.nil_prefix hApart.1
  next =>
    refine at?_of_atParent? ?_ hApart hAfter
    intro _ _ _ _ hKey hChanged
    exact at?_of_addChild? hKey hChanged

theorem at?_of_remove?
    (hApart : Pointer.Apart target path)
    (hAfter : remove? target document = some after) :
    after.at? path = document.at? path := by
  refine at?_of_atParent? ?_ hApart hAfter
  intro _ _ _ _ hKey hChanged
  exact at?_of_removeChild? hKey hChanged

theorem at?_of_replace?
    (hApart : Pointer.Apart target path)
    (hAfter : replace? target value document = some after) :
    after.at? path = document.at? path := by
  refine Pointer.at?_of_modify? hApart.2 ?_ hAfter
  intro rest _ _ hPath
  exact absurd ⟨rest, hPath.symm⟩ hApart.1

end Places

/- No place that an instruction changes holds a path or is
   inside it. -/
def Spares (path : List String) : Instruction → Prop
  | .add target _ => Pointer.Apart target path
  | .remove target => Pointer.Apart target path
  | .replace target _ => Pointer.Apart target path
  | .move source target =>
      Pointer.Apart source path ∧ Pointer.Apart target path
  | .copy _ target => Pointer.Apart target path
  | .test _ _ => True

/- An instruction leaves a place alone that it spares. -/
theorem at?_of_apply
    {instruction : Instruction}
    {path : List String}
    (hSpares : instruction.Spares path)
    {document after : Json}
    (hApply : instruction.apply document = .ok after) :
    after.at? path = document.at? path := by
  cases instruction with
  | add target value =>
      exact at?_of_add? hSpares (orFault_eq_ok_iff.1 hApply)
  | remove target =>
      exact at?_of_remove? hSpares
        (orFault_eq_ok_iff.1 hApply)
  | replace target value =>
      exact at?_of_replace? hSpares
        (orFault_eq_ok_iff.1 hApply)
  | move source target =>
      simp only [apply] at hApply
      split at hApply
      · cases hApply
      · rcases Result.bind_eq_ok_iff.1 hApply with
          ⟨value, _, hApply⟩
        rcases Result.bind_eq_ok_iff.1 hApply with
          ⟨removed, hRemoved, hApply⟩
        have hAdded :=
          at?_of_add? hSpares.2 (orFault_eq_ok_iff.1 hApply)
        exact hAdded.trans
          (at?_of_remove? hSpares.1
            (orFault_eq_ok_iff.1 hRemoved))
  | copy source target =>
      simp only [apply] at hApply
      rcases Result.bind_eq_ok_iff.1 hApply with
        ⟨value, _, hApply⟩
      exact at?_of_add? hSpares (orFault_eq_ok_iff.1 hApply)
  | test target value =>
      simp only [apply] at hApply
      rcases Result.bind_eq_ok_iff.1 hApply with
        ⟨found, _, hApply⟩
      split at hApply
      · cases hApply
        rfl
      · cases hApply

end Instruction

------------------------------------------------------------
-- Documents
------------------------------------------------------------

namespace Patch

theorem at?_of_applyFrom
    {patch : Patch}
    {path : List String}
    (hSpares :
      ∀ instruction ∈ patch, instruction.Spares path)
    {position : Nat}
    {document after : Json}
    (hApply : applyFrom position patch document = .ok after) :
    after.at? path = document.at? path := by
  induction patch generalizing position document with
  | nil =>
      cases hApply
      rfl
  | cons instruction rest ih =>
      rw [List.forall_mem_cons] at hSpares
      simp only [applyFrom] at hApply
      split at hApply
      next middle hMiddle =>
        exact (ih hSpares.2 hApply).trans
          (Instruction.at?_of_apply hSpares.1 hMiddle)
      next => cases hApply

/- A document leaves a place alone that each instruction
   spares. -/
theorem at?_of_apply
    {patch : Patch}
    {path : List String}
    (hSpares :
      ∀ instruction ∈ patch, instruction.Spares path)
    {document after : Json}
    (hApply : patch.apply document = .ok after) :
    after.at? path = document.at? path :=
  at?_of_applyFrom hSpares hApply

end Patch

end Converge
