import Converge.Json.Record
import Converge.Proofs.Json.Reader
import Converge.Proofs.Keyed
import Converge.Proofs.Result

/-
  Spelled values, seen through the values they denote.

  What denotes an array or an object spells its items or its
  members, in their order. So a record in a text has the
  fields of the object that the text denotes, and each of
  them is spelled.

  Main declarations:
    * `Written.exists_items`: the items of an array
    * `Written.exists_record?`: the fields of an object
-/

namespace Converge

------------------------------------------------------------
-- Fields by Name
------------------------------------------------------------

/- Members that agree up to what is made of their values have
   fields that agree in the same way. -/
theorem Record.exists_byName?
    {α β γ : Type}
    {f : α → γ}
    {g : β → γ}
    {left : List (String × α)}
    {right : List (String × β)}
    (hSame : Keyed.mapValues f left = Keyed.mapValues g right)
    {names : List String}
    {fields : List (Option β)}
    (hFields : byName? names right = some fields) :
    ∃ found, byName? names left = some found ∧
      found.map (Option.map f) = fields.map (Option.map g) := by
  induction names generalizing fields with
  | nil =>
      cases hFields
      exact ⟨[], rfl, rfl⟩
  | cons name names ih =>
      simp only [byName?, List.mapM_cons, Option.pure_def,
        Option.bind_eq_bind, Option.bind_eq_some_iff]
        at hFields ih ⊢
      rcases hFields with ⟨slot, hSlot, others, hOthers, hAll⟩
      cases hAll
      have hUnique := congrArg (Keyed.unique? name) hSame
      rw [Keyed.unique?_mapValues, Keyed.unique?_mapValues,
        hSlot, Option.map_some, Option.map_eq_some_iff]
        at hUnique
      rcases hUnique with ⟨first, hFirst, hSlots⟩
      rcases ih hOthers with ⟨found, hFound, hRest⟩
      refine ⟨first :: found,
        ⟨first, hFirst, found, hFound, rfl⟩, ?_⟩
      rw [List.map_cons, List.map_cons, hSlots, hRest]

namespace Json

namespace Written

variable {limit : Nat} {spelled : Written}

------------------------------------------------------------
-- Containers
------------------------------------------------------------

/- Members that denote members have names. -/
theorem exists_named?
    {written : List (Option String × Written)}
    {members : List (String × Json)}
    (hMembers :
      (written.mapM
        fun (member : Option String × Written) => do
          return (← member.1, ← value? limit member.2)) =
        some members) :
    ∃ inner, named? written = some inner ∧
      Keyed.mapValues (value? limit) inner =
        Keyed.mapValues some members := by
  induction written generalizing members with
  | nil =>
      cases hMembers
      exact ⟨[], rfl, rfl⟩
  | cons first rest ih =>
      obtain ⟨key, value⟩ := first
      simp only [List.mapM_cons, Option.pure_def,
        Option.bind_eq_bind, Option.bind_eq_some_iff,
        Option.some.injEq] at hMembers ih
      rcases hMembers with
        ⟨_, ⟨name, rfl, found, hFound, rfl⟩,
          others, hOthers, rfl⟩
      rcases ih hOthers with ⟨inner, hNamed, hInner⟩
      refine ⟨(name, value) :: inner, ?_, ?_⟩
      · rw [named?] at hNamed
        simp [named?, hNamed]
      · rw [Keyed.mapValues, Keyed.mapValues] at hInner
        simp only [Keyed.mapValues, List.map_cons]
        rw [hFound, hInner]

/- What denotes an array spells its items. -/
theorem exists_items
    {items : List Json}
    (h : spelled.value? (limit + 1) = some (.arr items)) :
    ∃ inner, spelled = .arr inner ∧
      inner.map (value? limit) = items.map some := by
  cases spelled with
  | arr inner =>
      rw [value?, Option.map_eq_some_iff] at h
      rcases h with ⟨_, hItems, hEq⟩
      cases hEq
      exact ⟨inner, rfl, Result.mapM_eq_some_iff.1 hItems⟩
  | obj written =>
      rw [value?, Option.map_eq_some_iff] at h
      rcases h with ⟨_, _, h⟩
      cases h
  | null | bool | num | str | meaningless =>
      simp [value?] at h

/- What denotes an object spells the fields that the object
   has. -/
theorem exists_record?
    {members : List (String × Json)}
    (h : spelled.value? (limit + 1) = some (.obj members))
    {names : List String}
    {fields : List (Option Json)}
    (hFields : Record.byName? names members = some fields) :
    ∃ found, spelled.record? names = some found ∧
      found.map (Option.map (value? limit)) =
        fields.map (Option.map some) := by
  cases spelled with
  | obj written =>
      rw [value?, Option.map_eq_some_iff] at h
      rcases h with ⟨_, hMembers, hEq⟩
      cases hEq
      rcases exists_named? hMembers with
        ⟨inner, hNamed, hInner⟩
      rw [record?, hNamed, Option.bind_some]
      exact Record.exists_byName? hInner hFields
  | arr items =>
      rw [value?, Option.map_eq_some_iff] at h
      rcases h with ⟨_, _, h⟩
      cases h
  | null | bool | num | str | meaningless =>
      simp [value?] at h

end Written

end Json

end Converge
