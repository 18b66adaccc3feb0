import Converge.Proofs.Keyed
import Converge.Schema.Reading

/-
  Results that succeed under a condition and fail otherwise.

  Reading and checking go through the parts of a value and
  stop at the first defect. A whole is read exactly when each
  of its parts is, so the conditions are conjunctions that
  follow the shape of the reader.

  Key definitions:
    * `Outcome`: a value under a condition, a fault otherwise
    * `Outcome.bind`, `Outcome.eachItem`,
      `Outcome.eachEntry`: conditions of a whole
-/

namespace Converge

/- A result is a value when a condition holds, and a fault
   when it does not. -/
structure Outcome
    {ε α : Type}
    (condition : Prop)
    (value : α)
    (result : Except ε α) : Prop where
  ok : condition → result = .ok value
  fault : ¬condition → ∃ fault, result = .error fault

namespace Outcome

variable {ε α β γ : Type}
variable {condition : Prop} {value : α}
variable {result : Except ε α}

/- What holds without conditions. -/
theorem of_ok (h : result = .ok value) :
    Outcome True value result :=
  ⟨fun _ => h, fun hNot => absurd trivial hNot⟩

/- What always fails. -/
theorem of_error
    {fault : ε}
    (h : result = .error fault)
    (hNot : ¬condition) :
    Outcome condition value result :=
  ⟨fun hHolds => absurd hHolds hNot, fun _ => ⟨fault, h⟩⟩

theorem congr
    {other : Prop}
    (h : Outcome condition value result)
    (hIff : condition ↔ other) :
    Outcome other value result :=
  ⟨fun hOther => h.ok (hIff.2 hOther),
    fun hNot => h.fault fun hHolds => hNot (hIff.1 hHolds)⟩

/- The condition is the one under which there is a value. -/
theorem exists_ok_iff
    (h : Outcome condition value result) :
    (∃ found, result = .ok found) ↔ condition := by
  constructor
  · rintro ⟨found, hFound⟩
    by_cases hHolds : condition
    · exact hHolds
    · rcases h.fault hHolds with ⟨fault, hFault⟩
      rw [hFound] at hFault
      cases hFault
  · intro hHolds
    exact ⟨value, h.ok hHolds⟩

/- No other value is ever read. -/
theorem eq_of_ok
    {found : α}
    (h : Outcome condition value result)
    (hFound : result = .ok found) :
    found = value := by
  have hHolds := h.exists_ok_iff.1 ⟨found, hFound⟩
  exact Except.ok.inj (hFound.symm.trans (h.ok hHolds))

theorem map
    (h : Outcome condition value result)
    (f : α → β) :
    Outcome condition (f value) (result.map f) := by
  constructor
  · intro hHolds
    rw [h.ok hHolds]
    rfl
  · intro hNot
    rcases h.fault hNot with ⟨fault, hFault⟩
    exact ⟨fault, by rw [hFault]; rfl⟩

/- Two steps succeed when both do. -/
theorem bind
    {other : Prop}
    {outcome : β}
    {next : α → Except ε β}
    (h : Outcome condition value result)
    (hNext : Outcome other outcome (next value)) :
    Outcome (condition ∧ other) outcome (result >>= next) := by
  constructor
  · rintro ⟨hHolds, hOther⟩
    rw [h.ok hHolds]
    exact hNext.ok hOther
  · intro hNot
    by_cases hHolds : condition
    · rw [h.ok hHolds]
      exact hNext.fault fun hOther => hNot ⟨hHolds, hOther⟩
    · rcases h.fault hHolds with ⟨fault, hFault⟩
      exact ⟨fault, by rw [hFault]; rfl⟩

------------------------------------------------------------
-- Lists and Maps
------------------------------------------------------------

section Containers

variable {holds : β → Prop} {made : β → Tree}
variable {read : FieldPath → Tree → Except SchemaError α}
variable {value : β → α}

/- A list is read when each of its items is. -/
theorem eachItem
    (hRead :
      ∀ path item,
        Outcome (holds item) (value item)
          (read path (made item)))
    (path : FieldPath)
    (position : Nat)
    (items : List β) :
    Outcome (∀ item, item ∈ items → holds item)
      (items.map value)
      (Reading.eachItem read path position
        (items.map made)) := by
  induction items generalizing position with
  | nil =>
      refine (of_ok rfl).congr ?_
      simp
  | cons item rest ih =>
      have hRest := (ih (position + 1)).map fun others =>
        value item :: others
      refine ((hRead (path.item position) item).bind
        hRest).congr ?_
      exact List.forall_mem_cons.symm

/- A map is read when each of its values is. -/
theorem eachEntry
    (hRead :
      ∀ path item,
        Outcome (holds item) (value item)
          (read path (made item)))
    (path : FieldPath)
    (entries : List (String × β)) :
    Outcome (∀ entry, entry ∈ entries → holds entry.2)
      (Keyed.mapValues value entries)
      (Reading.eachEntry read path
        (Keyed.mapValues made entries)) := by
  induction entries with
  | nil =>
      refine (of_ok rfl).congr ?_
      simp
  | cons entry rest ih =>
      have hRest := ih.map fun others =>
        (entry.1, value entry.2) :: others
      refine ((hRead (path.entry entry.1) entry.2).bind
        hRest).congr ?_
      simp only [List.mem_cons, forall_eq_or_imp]

variable {check : FieldPath → Tree → Except SchemaError Unit}

/- A list passes a check when each of its items does. -/
theorem checkEachItem
    (hCheck :
      ∀ path item,
        Outcome (holds item) () (check path (made item)))
    (path : FieldPath)
    (position : Nat)
    (items : List β) :
    Outcome (∀ item, item ∈ items → holds item) ()
      (Reading.checkEachItem check path position
        (items.map made)) := by
  induction items generalizing position with
  | nil =>
      refine (of_ok rfl).congr ?_
      simp
  | cons item rest ih =>
      refine ((hCheck (path.item position) item).bind
        (ih (position + 1))).congr ?_
      exact List.forall_mem_cons.symm

/- A map passes a check when each of its values does. -/
theorem checkEachEntry
    (hCheck :
      ∀ path item,
        Outcome (holds item) () (check path (made item)))
    (path : FieldPath)
    (entries : List (String × β)) :
    Outcome (∀ entry, entry ∈ entries → holds entry.2) ()
      (Reading.checkEachEntry check path
        (Keyed.mapValues made entries)) := by
  induction entries with
  | nil =>
      refine (of_ok rfl).congr ?_
      simp
  | cons entry rest ih =>
      refine ((hCheck (path.entry entry.1) entry.2).bind
        ih).congr ?_
      simp only [List.mem_cons, forall_eq_or_imp]

end Containers

end Outcome

end Converge
