/-
  Results of several steps, taken apart.

  Key definitions:
    * `Result.FailsBy`: how a result may fail
    * `Result.Agree`: the same value, or none on either side

  Main declarations:
    * `Result.bind_eq_ok_iff`: both steps succeeded
    * `Result.map_eq_ok_iff`: there is a value to map
    * `Result.FailsBy.bind`: how two steps may fail
    * `Result.Agree.bind`: steps that agree
    * `Result.mapError_ok`, `Result.mapError_error`: faults
      are converted
    * `Result.mapM_eq_some_iff`, `Result.mapM_map_eq_some`:
      every step succeeded
-/

namespace Converge

namespace Result

variable {ε α β : Type}

/- Two steps succeed when both do. -/
theorem bind_eq_ok_iff
    {first : Except ε α}
    {next : α → Except ε β}
    {value : β} :
    first >>= next = .ok value ↔
      ∃ middle, first = .ok middle ∧ next middle = .ok value := by
  cases first with
  | error fault =>
      constructor
      · intro h
        cases h
      · rintro ⟨_, h, _⟩
        cases h
  | ok middle =>
      constructor
      · intro h
        exact ⟨middle, rfl, h⟩
      · rintro ⟨_, h, hNext⟩
        cases h
        exact hNext

/- A value is mapped when there is one. -/
theorem map_eq_ok_iff
    {result : Except ε α}
    {f : α → β}
    {value : β} :
    result.map f = .ok value ↔
      ∃ found, result = .ok found ∧ f found = value := by
  cases result with
  | error fault =>
      constructor
      · intro h
        cases h
      · rintro ⟨_, h, _⟩
        cases h
  | ok found =>
      constructor
      · intro h
        exact ⟨found, rfl, Except.ok.inj h⟩
      · rintro ⟨_, h, hValue⟩
        cases h
        exact congrArg Except.ok hValue

theorem eq_ok_of_toOption
    {result : Except ε α}
    {value : α}
    (h : result.toOption = some value) :
    result = .ok value := by
  cases result with
  | error fault => cases h
  | ok found =>
      cases h
      rfl

/- Faults are converted, values are kept. -/
@[simp] theorem mapError_error
    {δ : Type}
    (convert : ε → δ)
    (fault : ε) :
    (Except.error fault : Except ε α).mapError convert =
      .error (convert fault) :=
  rfl

@[simp] theorem mapError_ok
    {δ : Type}
    (convert : ε → δ)
    (value : α) :
    (Except.ok value).mapError convert = .ok value :=
  rfl

/- A list is read when each of its items is. -/
theorem mapM_eq_some_iff
    {read : α → Option β}
    {items : List α}
    {made : List β} :
    items.mapM read = some made ↔
      items.map read = made.map some := by
  induction items generalizing made with
  | nil =>
      cases made <;> simp
  | cons item rest ih =>
      simp only [List.mapM_cons, Option.pure_def,
        Option.bind_eq_bind, Option.bind_eq_some_iff, ih]
      cases made with
      | nil => simp
      | cons first others =>
          simp only [List.map_cons, List.cons.injEq]
          constructor
          · rintro ⟨_, hFirst, _, hOthers, hMade⟩
            cases hMade
            exact ⟨hFirst, hOthers⟩
          · rintro ⟨hFirst, hOthers⟩
            exact ⟨first, hFirst, others, hOthers, rfl⟩

theorem exists_of_mapM
    {read : α → Option β}
    {items : List α}
    {made : List β}
    (hRead : items.mapM read = some made)
    {item : α}
    (hItem : item ∈ items) :
    ∃ value, read item = some value := by
  have hThere : read item ∈ items.map read :=
    List.mem_map_of_mem hItem
  rw [mapM_eq_some_iff.1 hRead] at hThere
  rcases List.mem_map.1 hThere with ⟨value, _, hValue⟩
  exact ⟨value, hValue.symm⟩

/- A list is read back when each of its items is. -/
theorem mapM_map_eq_some
    {γ : Type}
    {write : α → β}
    {read : β → Option γ}
    {value : α → γ}
    (items : List α)
    (hRead :
      ∀ item, item ∈ items →
        read (write item) = some (value item)) :
    (items.map write).mapM read = some (items.map value) := by
  rw [mapM_eq_some_iff, List.map_map, List.map_map]
  exact List.map_congr_left hRead

/- A list is read as another one, when what is read agrees
   item by item. -/
theorem mapM_of_map_eq
    {γ δ : Type}
    {left : α → δ}
    {right : β → δ}
    {read : α → Option γ}
    {value : β → γ}
    (hRead :
      ∀ item other, left item = right other →
        read item = some (value other))
    {items : List α}
    {others : List β}
    (hSame : items.map left = others.map right) :
    items.mapM read = some (others.map value) := by
  rw [mapM_eq_some_iff, List.map_map]
  induction items generalizing others with
  | nil =>
      rw [List.map_eq_nil_iff.1 hSame.symm]
      rfl
  | cons item items ih =>
      rcases List.map_eq_cons_iff.1 hSame.symm with
        ⟨other, rest, rfl, hOther, hRest⟩
      rw [List.map_cons, List.map_cons,
        hRead item other hOther.symm, ih hRest.symm]
      rfl

------------------------------------------------------------
-- Ways to Fail
------------------------------------------------------------

/- A result is a value, or a fault of a certain sort. -/
def FailsBy
    (lapse : ε → Prop)
    (result : Except ε α) :
    Prop :=
  ∀ fault, result = .error fault → lapse fault

section Ways

variable {lapse : ε → Prop}

theorem failsBy_ok (value : α) :
    FailsBy lapse (.ok value) :=
  fun _ hFault => nomatch hFault

theorem failsBy_error
    {fault : ε}
    (hLapse : lapse fault) :
    FailsBy lapse (.error fault : Except ε α) := by
  intro other hOther
  cases hOther
  exact hLapse

theorem FailsBy.mono
    {other : ε → Prop}
    {result : Except ε α}
    (h : FailsBy lapse result)
    (hOther : ∀ fault, lapse fault → other fault) :
    FailsBy other result :=
  fun fault hFault => hOther fault (h fault hFault)

/- Two steps fail as the first one does, or as the second
   one after it. -/
theorem FailsBy.bind
    {first : Except ε α}
    {next : α → Except ε β}
    (hFirst : FailsBy lapse first)
    (hNext :
      ∀ value, first = .ok value →
        FailsBy lapse (next value)) :
    FailsBy lapse (first >>= next) := by
  intro fault hFault
  cases hResult : first with
  | error other =>
      rw [hResult] at hFault
      cases hFault
      exact hFirst fault hResult
  | ok value =>
      rw [hResult] at hFault
      exact hNext value hResult fault hFault

theorem FailsBy.map
    {result : Except ε α}
    (h : FailsBy lapse result)
    (f : α → β) :
    FailsBy lapse (result.map f) := by
  intro fault hFault
  cases hResult : result with
  | error other =>
      rw [hResult] at hFault
      cases hFault
      exact h fault hResult
  | ok value =>
      rw [hResult] at hFault
      cases hFault

/- What fails in no way succeeds. -/
theorem FailsBy.exists_ok
    {result : Except ε α}
    (h : FailsBy lapse result)
    (hNever : ∀ fault, ¬lapse fault) :
    ∃ value, result = .ok value := by
  cases result with
  | ok value => exact ⟨value, rfl⟩
  | error fault => exact absurd (h fault rfl) (hNever fault)

end Ways

------------------------------------------------------------
-- Results That Agree
------------------------------------------------------------

/- Two results have the same value, or both failed. -/
def Agree (left right : Except ε α) : Prop :=
  ∀ value, left = .ok value ↔ right = .ok value

section Agreeing

variable {left right : Except ε α}

theorem Agree.refl (result : Except ε α) :
    Agree result result :=
  fun _ => Iff.rfl

theorem agree_error
    (fault other : ε) :
    Agree (.error fault : Except ε α) (.error other) :=
  fun _ => iff_of_false (by simp) (by simp)

/- Results agree when their steps do. -/
theorem Agree.bind
    {next other : α → Except ε β}
    (hFirst : Agree left right)
    (hNext : ∀ value, Agree (next value) (other value)) :
    Agree (left >>= next) (right >>= other) := by
  intro value
  rw [bind_eq_ok_iff, bind_eq_ok_iff]
  exact exists_congr fun middle =>
    and_congr (hFirst middle) (hNext middle value)

theorem Agree.map
    (h : Agree left right)
    (f : α → β) :
    Agree (left.map f) (right.map f) := by
  intro value
  rw [map_eq_ok_iff, map_eq_ok_iff]
  exact exists_congr fun found =>
    and_congr_left fun _ => h found

end Agreeing

end Result

end Converge
