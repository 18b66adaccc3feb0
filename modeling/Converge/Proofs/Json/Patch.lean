import Converge.Json.Patch
import Converge.Proofs.Json.Canonical
import Converge.Proofs.Result

/-
  Patches keep values canonical.

  Key definitions:
    * `Instruction.IsCanonical`: what it puts is canonical

  Main declarations:
    * `Instruction.apply_isCanonical`
    * `Patch.apply_isCanonical`
    * `Patch.read?_isCanonical`: what is read is canonical
-/

namespace Converge

open Json (IsCanonical)

------------------------------------------------------------
-- Pointers
------------------------------------------------------------

/- What a pointer leads to is canonical. -/
theorem Pointer.resolve?_isCanonical
    (pointer : Pointer) :
    ∀ {value found : Json},
      IsCanonical value →
        Pointer.resolve? pointer value = some found →
          IsCanonical found := by
  induction pointer with
  | nil =>
      intro value found h hFound
      cases hFound
      exact h
  | cons token rest ih =>
      intro value found h hFound
      simp only [Pointer.resolve?] at hFound
      rcases Option.bind_eq_some_iff.1 hFound with
        ⟨inner, hInner, hRest⟩
      refine ih ?_ hRest
      cases value with
      | obj members => exact h.member hInner
      | arr items =>
          simp only [child?] at hInner
          rcases Option.bind_eq_some_iff.1 hInner with
            ⟨position, _, hItem⟩
          exact Json.isCanonical_arr_iff.1 h inner
            (List.mem_of_getElem? hItem)
      | _ => cases hInner

/- Changing a value inside a canonical one keeps the whole
   canonical. -/
theorem Pointer.modify?_isCanonical
    {change : Json → Option Json}
    (hChange :
      ∀ {value changed : Json},
        IsCanonical value → change value = some changed →
          IsCanonical changed)
    (pointer : Pointer) :
    ∀ {value changed : Json},
      IsCanonical value →
        Pointer.modify? change pointer value = some changed →
          IsCanonical changed := by
  induction pointer with
  | nil =>
      intro value changed h hChanged
      exact hChange h hChanged
  | cons token rest ih =>
      intro value changed h hChanged
      cases value with
      | obj members =>
          simp only [Pointer.modify?, Option.bind_eq_bind]
            at hChanged
          rcases Option.bind_eq_some_iff.1 hChanged with
            ⟨inner, hInner, hChanged⟩
          rcases Option.bind_eq_some_iff.1 hChanged with
            ⟨made, hMade, hResult⟩
          cases hResult
          have hThere : (members.lookup token).isSome := by
            rw [hInner]
            rfl
          rw [h.sorted.put_eq_insert hThere]
          exact h.insert token (ih (h.member hInner) hMade)
      | arr items =>
          simp only [Pointer.modify?, Option.bind_eq_bind]
            at hChanged
          rcases Option.bind_eq_some_iff.1 hChanged with
            ⟨position, _, hChanged⟩
          rcases Option.bind_eq_some_iff.1 hChanged with
            ⟨inner, hInner, hChanged⟩
          rcases Option.bind_eq_some_iff.1 hChanged with
            ⟨made, hMade, hResult⟩
          cases hResult
          have hItems := Json.isCanonical_arr_iff.1 h
          have hMadeCanonical :=
            ih (hItems inner (List.mem_of_getElem? hInner))
              hMade
          apply Json.isCanonical_arr_iff.2
          intro item hItem
          rcases List.mem_or_eq_of_mem_set hItem with hOld | hNew
          · exact hItems item hOld
          · rw [hNew]
            exact hMadeCanonical
      | _ => cases hChanged

------------------------------------------------------------
-- Instructions
------------------------------------------------------------

namespace Instruction

/- What an instruction puts is canonical. -/
def IsCanonical : Instruction → Prop
  | .add _ value => value.IsCanonical
  | .replace _ value => value.IsCanonical
  | .remove _ => True
  | .move _ _ => True
  | .copy _ _ => True
  | .test _ _ => True

theorem addChild?_isCanonical
    {token : String}
    {value container changed : Json}
    (hValue : value.IsCanonical)
    (h : container.IsCanonical)
    (hChanged :
      addChild? token value container = some changed) :
    changed.IsCanonical := by
  cases container with
  | obj members =>
      cases hChanged
      exact h.insert token hValue
  | arr items =>
      have hItems := Json.isCanonical_arr_iff.1 h
      simp only [addChild?] at hChanged
      split at hChanged
      · cases hChanged
        apply Json.isCanonical_arr_iff.2
        intro item hItem
        rcases List.mem_append.1 hItem with hItem | hItem
        · exact hItems item hItem
        · rw [List.mem_singleton.1 hItem]
          exact hValue
      · rcases Option.map_eq_some_iff.1 hChanged with
          ⟨position, _, rfl⟩
        apply Json.isCanonical_arr_iff.2
        intro item hItem
        rcases List.mem_append.1 hItem with hItem | hItem
        · exact hItems item (List.mem_of_mem_take hItem)
        · rcases List.mem_cons.1 hItem with rfl | hItem
          · exact hValue
          · exact hItems item (List.mem_of_mem_drop hItem)
  | _ => cases hChanged

theorem removeChild?_isCanonical
    {token : String}
    {container changed : Json}
    (h : container.IsCanonical)
    (hChanged : removeChild? token container = some changed) :
    changed.IsCanonical := by
  cases container with
  | obj members =>
      simp only [removeChild?] at hChanged
      split at hChanged
      · cases hChanged
        exact h.erase token
      · cases hChanged
  | arr items =>
      rcases Option.map_eq_some_iff.1 hChanged with
        ⟨position, _, rfl⟩
      apply Json.isCanonical_arr_iff.2
      intro item hItem
      exact Json.isCanonical_arr_iff.1 h item
        (List.mem_of_mem_eraseIdx hItem)
  | _ => cases hChanged

/- A change of a container changes one value inside the
   whole. -/
theorem atParent?_isCanonical
    {change : String → Json → Option Json}
    (hChange :
      ∀ {token : String} {value changed : Json},
        value.IsCanonical →
          change token value = some changed →
            changed.IsCanonical)
    {path : Pointer}
    {document changed : Json}
    (h : document.IsCanonical)
    (hChanged :
      atParent? change path document = some changed) :
    changed.IsCanonical := by
  simp only [atParent?] at hChanged
  split at hChanged
  · cases hChanged
  · exact Pointer.modify?_isCanonical hChange _ h hChanged

theorem add?_isCanonical
    {path : Pointer}
    {value document changed : Json}
    (hValue : value.IsCanonical)
    (h : document.IsCanonical)
    (hChanged : add? path value document = some changed) :
    changed.IsCanonical := by
  simp only [add?] at hChanged
  split at hChanged
  · cases hChanged
    exact hValue
  · exact atParent?_isCanonical
      (addChild?_isCanonical hValue) h hChanged

theorem remove?_isCanonical
    {path : Pointer}
    {document changed : Json}
    (h : document.IsCanonical)
    (hChanged : remove? path document = some changed) :
    changed.IsCanonical :=
  atParent?_isCanonical removeChild?_isCanonical h hChanged

theorem orFault_eq_ok_iff
    {fault : PatchFault}
    {made : Option Json}
    {value : Json} :
    orFault fault made = .ok value ↔ made = some value := by
  cases made <;> simp [orFault]

/- An instruction keeps a value canonical. -/
theorem apply_isCanonical
    {instruction : Instruction}
    (hInstruction : instruction.IsCanonical)
    {document after : Json}
    (h : document.IsCanonical)
    (hApply : instruction.apply document = .ok after) :
    after.IsCanonical := by
  cases instruction with
  | add path value =>
      exact add?_isCanonical hInstruction h
        (orFault_eq_ok_iff.1 hApply)
  | remove path =>
      exact remove?_isCanonical h (orFault_eq_ok_iff.1 hApply)
  | replace path value =>
      refine Pointer.modify?_isCanonical ?_ path h
        (orFault_eq_ok_iff.1 hApply)
      intro _ changed _ hChanged
      cases hChanged
      exact hInstruction
  | move source path =>
      simp only [apply] at hApply
      split at hApply
      · cases hApply
      · rcases Result.bind_eq_ok_iff.1 hApply with
          ⟨value, hValue, hApply⟩
        rcases Result.bind_eq_ok_iff.1 hApply with
          ⟨removed, hRemoved, hApply⟩
        have hFound := Pointer.resolve?_isCanonical source h
          (orFault_eq_ok_iff.1 hValue)
        have hLeft := remove?_isCanonical h
          (orFault_eq_ok_iff.1 hRemoved)
        exact add?_isCanonical hFound hLeft
          (orFault_eq_ok_iff.1 hApply)
  | copy source path =>
      simp only [apply] at hApply
      rcases Result.bind_eq_ok_iff.1 hApply with
        ⟨value, hValue, hApply⟩
      have hFound := Pointer.resolve?_isCanonical source h
        (orFault_eq_ok_iff.1 hValue)
      exact add?_isCanonical hFound h
        (orFault_eq_ok_iff.1 hApply)
  | test path value =>
      simp only [apply] at hApply
      rcases Result.bind_eq_ok_iff.1 hApply with
        ⟨found, _, hApply⟩
      split at hApply
      · cases hApply
        exact h
      · cases hApply

end Instruction

namespace Patch

/- A patch keeps a value canonical. -/
theorem applyFrom_isCanonical
    (patch : Patch) :
    ∀ {position : Nat} {document after : Json},
      (∀ instruction, instruction ∈ patch →
        instruction.IsCanonical) →
      document.IsCanonical →
        applyFrom position patch document = .ok after →
          after.IsCanonical := by
  induction patch with
  | nil =>
      intro position document after _ h hApply
      cases hApply
      exact h
  | cons instruction rest ih =>
      intro position document after hPatch h hApply
      simp only [applyFrom] at hApply
      split at hApply
      · rename_i next hNext
        have hFirst := Instruction.apply_isCanonical
          (hPatch instruction List.mem_cons_self) h hNext
        exact ih
          (fun other hOther =>
            hPatch other (List.mem_cons_of_mem _ hOther))
          hFirst hApply
      · cases hApply

theorem apply_isCanonical
    {patch : Patch}
    (hPatch :
      ∀ instruction, instruction ∈ patch →
        instruction.IsCanonical)
    {document after : Json}
    (h : document.IsCanonical)
    (hApply : patch.apply document = .ok after) :
    after.IsCanonical :=
  applyFrom_isCanonical patch hPatch h hApply

------------------------------------------------------------
-- Documents
------------------------------------------------------------

/- What is read of an instruction is canonical. -/
theorem instruction?_isCanonical
    {verb : String}
    {values : List Json}
    {instruction : Instruction}
    (hRead : instruction? verb values = some instruction) :
    instruction.IsCanonical := by
  unfold instruction? at hRead
  split at hRead
  all_goals
    first
    | rcases Option.map_eq_some_iff.1 hRead with ⟨_, _, rfl⟩
      first
      | exact Json.isCanonical_canonical _
      | exact trivial
    | rcases Option.bind_eq_some_iff.1 hRead with
        ⟨_, _, hRest⟩
      rcases Option.bind_eq_some_iff.1 hRest with
        ⟨_, _, hMade⟩
      cases hMade
      exact trivial
    | cases hRead

theorem readInstruction?_isCanonical
    {value : Json}
    {instruction : Instruction}
    (hRead : readInstruction? value = some instruction) :
    instruction.IsCanonical := by
  unfold readInstruction? at hRead
  split at hRead
  · simp only [Option.bind_eq_bind, Option.bind_eq_some_iff]
      at hRead
    rcases hRead with ⟨_, _, _, _, _, _, _, _, hMade⟩
    exact instruction?_isCanonical hMade
  · rcases Option.bind_eq_some_iff.1 hRead with
      ⟨_, _, hMade⟩
    exact instruction?_isCanonical hMade
  · cases hRead

/- So is what is read of a document. -/
theorem read?_isCanonical
    {text : String}
    {patch : Patch}
    (hRead : read? text = some patch) :
    ∀ instruction, instruction ∈ patch →
      instruction.IsCanonical := by
  intro instruction hInstruction
  rcases Option.bind_eq_some_iff.1 hRead with
    ⟨value, _, hItems⟩
  unfold ofJson? at hItems
  split at hItems
  · have hThere : some instruction ∈ patch.map some :=
      List.mem_map_of_mem hInstruction
    rw [← Result.mapM_eq_some_iff.1 hItems] at hThere
    rcases List.mem_map.1 hThere with ⟨item, _, hItem⟩
    exact readInstruction?_isCanonical hItem
  · cases hItems

end Patch

end Converge
