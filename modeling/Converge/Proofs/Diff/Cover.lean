import Converge.Proofs.Diff.Reach

/-
  Edits that overwrite other edits.

  Edits cover others when each of the others lies at or below
  the place of one of them. Edits towards a value make that
  value of any other one exactly when they cover the edits
  that it would take, so this tells what becomes of a value
  that is not the one the edits were made for.

  Key definitions:
    * `Diff.Covers`: edits at or above others

  Main declarations:
    * `Diff.covers_obj_iff`: covered member by member
    * `Diff.exists_carry?_obj`: members carried together
-/

namespace Converge

namespace Diff

/- Each of some edits lies at or below one of others. -/
def Covers (edits others : List Edit) : Prop :=
  ∀ other, other ∈ others →
    ∃ edit, edit ∈ edits ∧ edit.path <+: other.path

theorem Covers.refl (edits : List Edit) :
    Covers edits edits :=
  fun other hOther => ⟨other, hOther, List.prefix_rfl⟩

theorem covers_nil (edits : List Edit) :
    Covers edits [] :=
  fun _ h => nomatch h

/- Without edits nothing is covered. -/
theorem nil_covers_iff
    {others : List Edit} :
    Covers [] others ↔ others = [] := by
  constructor
  · intro h
    cases others with
    | nil => rfl
    | cons other rest =>
        rcases h other List.mem_cons_self with ⟨_, hNil, _⟩
        cases hNil
  · rintro rfl
    exact covers_nil []

/- An edit of a whole value covers everything. -/
theorem covers_of_whole
    {edits : List Edit}
    {edit : Edit}
    (hEdit : edit ∈ edits)
    (hPath : edit.path = [])
    (others : List Edit) :
    Covers edits others :=
  fun other _ => ⟨edit, hEdit, by simp [hPath]⟩

/- Edits between two objects are edits below a key of the
   values there. -/
theorem mem_valueEdits_obj_iff
    {current previous : List (String × Json)}
    (hCurrent : Keyed.Sorted current)
    (hPrevious : Keyed.Sorted previous)
    {edit : Edit} :
    edit ∈ valueEdits [] (.obj current) (some (.obj previous)) ↔
      ∃ key inner,
        inner ∈
            rootEdits [] (current.lookup key)
              (previous.lookup key) ∧
          edit = inner.under key := by
  rw [valueEdits_obj]
  constructor
  · intro hEdit
    rcases List.mem_flatMap.1 hEdit with ⟨entry, hEntry, hEdit⟩
    rcases List.mem_map.1 hEdit with ⟨inner, hInner, rfl⟩
    rw [((mem_plan_iff hCurrent hPrevious).1 hEntry).2]
      at hInner
    exact ⟨entry.1, inner, hInner, rfl⟩
  · rintro ⟨key, inner, hInner, rfl⟩
    apply List.mem_flatMap.2
    refine ⟨(key, rootEdits [] (current.lookup key)
      (previous.lookup key)), ?_,
      List.mem_map.2 ⟨inner, hInner, rfl⟩⟩
    apply (mem_plan_iff hCurrent hPrevious).2
    refine ⟨?_, rfl⟩
    -- A key that neither object has would have no edits.
    cases hNow : current.lookup key with
    | some _ => exact Or.inl rfl
    | none =>
        cases hThen : previous.lookup key with
        | some _ => exact Or.inr rfl
        | none =>
            rw [hNow, hThen] at hInner
            cases hInner

/- Edits between objects are covered member by member. -/
theorem covers_obj_iff
    {current previous other : List (String × Json)}
    (hCurrent : Keyed.Sorted current)
    (hPrevious : Keyed.Sorted previous)
    (hOther : Keyed.Sorted other) :
    Covers
        (valueEdits [] (.obj current) (some (.obj previous)))
        (valueEdits [] (.obj current) (some (.obj other))) ↔
      ∀ key,
        Covers
          (rootEdits [] (current.lookup key)
            (previous.lookup key))
          (rootEdits [] (current.lookup key)
            (other.lookup key)) := by
  constructor
  · intro hCovers key inner hInner
    rcases hCovers (inner.under key)
        ((mem_valueEdits_obj_iff hCurrent hOther).2
          ⟨key, inner, hInner, rfl⟩) with
      ⟨edit, hEdit, hPrefix⟩
    rcases (mem_valueEdits_obj_iff hCurrent hPrevious).1
        hEdit with ⟨editKey, editInner, hEditInner, rfl⟩
    rcases List.cons_prefix_cons.1 hPrefix with ⟨rfl, hBelow⟩
    exact ⟨editInner, hEditInner, hBelow⟩
  · intro hKeys edit hEdit
    rcases (mem_valueEdits_obj_iff hCurrent hOther).1 hEdit with
      ⟨key, inner, hInner, rfl⟩
    rcases hKeys key inner hInner with
      ⟨above, hAbove, hPrefix⟩
    exact ⟨above.under key,
      (mem_valueEdits_obj_iff hCurrent hPrevious).2
        ⟨key, above, hAbove, rfl⟩,
      List.cons_prefix_cons.2 ⟨rfl, hPrefix⟩⟩

/- No edit between two objects replaces them as a whole. -/
theorem not_covers_whole
    {current previous : List (String × Json)}
    (hCurrent : Keyed.Sorted current)
    (hPrevious : Keyed.Sorted previous)
    {others : List Edit}
    {other : Edit}
    (hOther : other ∈ others)
    (hPath : other.path = []) :
    ¬Covers
        (valueEdits [] (.obj current) (some (.obj previous)))
        others := by
  intro hCovers
  rcases hCovers other hOther with ⟨edit, hEdit, hPrefix⟩
  rcases (mem_valueEdits_obj_iff hCurrent hPrevious).1 hEdit
    with ⟨key, inner, _, rfl⟩
  rw [hPath] at hPrefix
  cases List.prefix_nil.1 hPrefix

/- Edits between two objects succeed on a third one when the
   edits of each member do. -/
theorem exists_carry?_obj
    {current previous members : List (String × Json)}
    (hCurrent : Keyed.Sorted current)
    (hPrevious : Keyed.Sorted previous)
    (hMembers : Keyed.Sorted members)
    (hKeys :
      ∀ key, ∃ slot,
        carry?
            (rootEdits [] (current.lookup key)
              (previous.lookup key))
            (members.lookup key) =
          some slot) :
    ∃ after,
      carry?
          (valueEdits [] (.obj current) (some (.obj previous)))
          (some (.obj members)) =
        some (some (.obj after)) := by
  let made := fun key =>
    (carry?
      (rootEdits [] (current.lookup key) (previous.lookup key))
      (members.lookup key)).getD none
  have hElsewhere :
      ∀ key,
        key ∉ (plan current previous).map
            (fun entry => entry.1) →
          made key = members.lookup key := by
    intro key hKey
    rw [mem_keys_plan_iff hCurrent hPrevious, not_or,
      Option.not_isSome_iff_eq_none,
      Option.not_isSome_iff_eq_none] at hKey
    simp only [made, hKey.1, hKey.2, rootEdits, carry?,
      Option.getD_some]
  rcases hMembers.exists_lookup _ made hElsewhere with
    ⟨after, hAfter, hLookup⟩
  refine ⟨after, (carry?_obj_iff hCurrent hPrevious
    hMembers).2 ⟨after, rfl, hAfter, ?_⟩⟩
  intro key
  rcases hKeys key with ⟨slot, hSlot⟩
  rw [hLookup key]
  simp only [made, hSlot, Option.getD_some]

/- Edits between two objects fail where there is none, unless
   there are none. -/
theorem carry?_obj_none
    {current previous : List (String × Json)}
    {slot : Option Json}
    (hCurrent : Keyed.Sorted current)
    (hPrevious : Keyed.Sorted previous)
    (hCarry :
      carry?
          (valueEdits [] (.obj current) (some (.obj previous)))
          none =
        some slot) :
    valueEdits [] (.obj current) (some (.obj previous)) = [] ∧
      slot = none := by
  cases hEdits :
      valueEdits [] (.obj current) (some (.obj previous)) with
  | nil =>
      rw [hEdits] at hCarry
      cases hCarry
      exact ⟨rfl, rfl⟩
  | cons edit rest =>
      have hEdit :
          edit ∈
            valueEdits [] (.obj current)
              (some (.obj previous)) := by
        rw [hEdits]
        exact List.mem_cons_self
      rcases (mem_valueEdits_obj_iff hCurrent hPrevious).1
        hEdit with ⟨key, inner, _, rfl⟩
      rw [hEdits] at hCarry
      cases hCarry

end Diff

end Converge
