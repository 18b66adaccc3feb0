import Converge.Keyed

/-
  Entries addressed by a key, seen through `List.lookup`.

  Every change of entries is described by what it does to
  the values found at keys. Entries in key order are
  determined by these values, so two sorted lists that answer
  alike are the same list.

  Main declarations:
    * `Keyed.lookup_insert`, `Keyed.lookup_erase`
    * `Keyed.Sorted.ext`
    * `Keyed.assign`: sets or removes the value of a key
    * `Keyed.Sorted.sort_eq`, `Keyed.lookup_sort`
-/

namespace Converge

namespace Keyed

------------------------------------------------------------
-- Presence
------------------------------------------------------------

section Presence

variable {κ : Type} [DecidableEq κ]
variable {α β : Type}

/- A key is there when some value is found. -/
theorem has_eq_isSome
    (key : κ)
    (entries : List (κ × α)) :
    has key entries = (entries.lookup key).isSome := by
  induction entries with
  | nil => rfl
  | cons entry rest ih =>
      obtain ⟨first, value⟩ := entry
      simp only [has, List.any_cons] at ih ⊢
      by_cases h : first = key
      · subst h
        simp
      · have h' : (key == first) = false := by
          simpa using Ne.symm h
        simp [List.lookup_cons, h, h', ih]

/- A key without a value is not there. -/
theorem has_eq_false_iff
    {key : κ}
    {entries : List (κ × α)} :
    has key entries = false ↔ entries.lookup key = none := by
  rw [has_eq_isSome]
  cases entries.lookup key <;> simp

/- What is found at a key stands among the entries. -/
theorem mem_of_lookup
    {key : κ}
    {value : α}
    {entries : List (κ × α)}
    (h : entries.lookup key = some value) :
    (key, value) ∈ entries := by
  induction entries with
  | nil => simp at h
  | cons entry rest ih =>
      obtain ⟨first, old⟩ := entry
      by_cases hKey : key = first
      · subst hKey
        simp at h
        simp [h]
      · have hKey' : (key == first) = false := by
          simpa using hKey
        simp only [List.lookup_cons, hKey'] at h
        exact List.mem_cons_of_mem _ (ih h)

/- Where no key repeats, each entry is found at its key. -/
theorem lookup_of_mem
    {entries : List (κ × α)}
    (hNodup : (entries.map fun entry => entry.1).Nodup)
    {entry : κ × α}
    (hEntry : entry ∈ entries) :
    entries.lookup entry.1 = some entry.2 := by
  induction entries with
  | nil => cases hEntry
  | cons head rest ih =>
      simp only [List.map_cons, List.nodup_cons] at hNodup
      rcases List.mem_cons.1 hEntry with rfl | hRest
      · exact List.lookup_cons_self
      · have hNe : entry.1 ≠ head.1 := fun hEq =>
          hNodup.1 (List.mem_map.2 ⟨entry, hRest, hEq⟩)
        have hNe' : (entry.1 == head.1) = false := by
          simpa using hNe
        rw [List.lookup_cons, hNe']
        exact ih hNodup.2 hRest

/- Nothing is found at a key that no entry has. -/
theorem lookup_eq_none_of_forall_ne
    {key : κ}
    {entries : List (κ × α)}
    (h : ∀ entry ∈ entries, entry.1 ≠ key) :
    entries.lookup key = none := by
  induction entries with
  | nil => rfl
  | cons entry rest ih =>
      obtain ⟨first, value⟩ := entry
      have hFirst : (key == first) = false := by
        simpa using Ne.symm (h (first, value) (by simp))
      simp only [List.lookup_cons, hFirst]
      exact ih fun entry hEntry =>
        h entry (List.mem_cons_of_mem _ hEntry)

omit [DecidableEq κ] in
theorem mapValues_mapValues
    {γ : Type}
    (f : α → β)
    (g : β → γ)
    (entries : List (κ × α)) :
    mapValues g (mapValues f entries) =
      mapValues (fun value => g (f value)) entries := by
  simp [mapValues]

@[simp] theorem lookup_mapValues
    (f : α → β)
    (key : κ)
    (entries : List (κ × α)) :
    (mapValues f entries).lookup key =
      (entries.lookup key).map f := by
  induction entries with
  | nil => rfl
  | cons entry rest ih =>
      obtain ⟨first, value⟩ := entry
      simp only [mapValues, List.map_cons] at ih ⊢
      cases h : key == first <;> simp [List.lookup_cons, h, ih]

theorem valuesAt_mapValues
    (f : α → β)
    (key : κ)
    (entries : List (κ × α)) :
    valuesAt key (mapValues f entries) =
      (valuesAt key entries).map f := by
  simp [valuesAt, mapValues, List.filter_map,
    Function.comp_def]

/- What becomes of the values becomes of the one of a key. -/
theorem unique?_mapValues
    (f : α → β)
    (key : κ)
    (entries : List (κ × α)) :
    unique? key (mapValues f entries) =
      (unique? key entries).map fun slot => slot.map f := by
  simp only [unique?, valuesAt_mapValues]
  rcases valuesAt key entries with
    _ | ⟨first, _ | ⟨second, rest⟩⟩ <;> rfl

omit [DecidableEq κ] in
theorem mapValues_id (entries : List (κ × α)) :
    mapValues id entries = entries :=
  List.map_id' entries

@[simp] theorem lookup_erase
    (key other : κ)
    (entries : List (κ × α)) :
    (erase key entries).lookup other =
      if other = key then none else entries.lookup other := by
  induction entries with
  | nil => simp [erase]
  | cons entry rest ih =>
      obtain ⟨first, value⟩ := entry
      simp only [erase] at ih ⊢
      by_cases hFirst : first = key
      · subst hFirst
        by_cases hOther : other = first
        · simpa [hOther] using ih
        · have hOther' : (other == first) = false := by
            simpa using hOther
          simpa [hOther, List.lookup_cons, hOther'] using ih
      · rw [List.filter_cons_of_pos (by simpa using hFirst)]
        by_cases hOther : other = first
        · subst hOther
          simp [hFirst]
        · have hOther' : (other == first) = false := by
            simpa using hOther
          simpa [List.lookup_cons, hOther'] using ih

/- When no key repeats, the values of a key are the one that
   is found. -/
theorem unique?_of_nodup
    {entries : List (κ × α)}
    (hNodup : (entries.map fun entry => entry.1).Nodup)
    (key : κ) :
    unique? key entries = some (entries.lookup key) := by
  have hValues :
      valuesAt key entries =
        (entries.lookup key).toList := by
    induction entries with
    | nil => rfl
    | cons entry rest ih =>
        obtain ⟨first, value⟩ := entry
        have hParts := List.nodup_cons.1 hNodup
        have hRest := ih hParts.2
        simp only [valuesAt] at hRest ⊢
        by_cases hFirst : first = key
        · subst hFirst
          have hAbsent : rest.lookup first = none := by
            apply lookup_eq_none_of_forall_ne
            intro entry hEntry hEq
            exact hParts.1
              (List.mem_map.2 ⟨entry, hEntry, hEq⟩)
          simpa [hAbsent] using hRest
        · have hFirst' : (key == first) = false := by
            simpa using Ne.symm hFirst
          simpa [hFirst, List.lookup_cons, hFirst'] using hRest
  rw [unique?, hValues]
  cases entries.lookup key <;> rfl

/- An entry is the one that was set, or was there before. -/
theorem mem_put
    {key : κ}
    {value : α}
    {entry : κ × α}
    {entries : List (κ × α)}
    (h : entry ∈ put key value entries) :
    entry = (key, value) ∨ entry ∈ entries := by
  induction entries with
  | nil =>
      left
      simpa [put] using h
  | cons head rest ih =>
      obtain ⟨first, old⟩ := head
      simp only [put] at h
      split at h
      · rename_i hFirst
        rcases List.mem_cons.1 h with h | h
        · exact Or.inl (hFirst ▸ h)
        · exact Or.inr (List.mem_cons_of_mem _ h)
      · rcases List.mem_cons.1 h with h | h
        · exact Or.inr (h ▸ List.mem_cons_self)
        · exact (ih h).imp_right (List.mem_cons_of_mem _)

/- Keys that do not repeat do not repeat once an entry is set
   or taken away. -/
theorem nodup_put
    {entries : List (κ × α)}
    (hNodup : (entries.map fun entry => entry.1).Nodup)
    (key : κ)
    (value : α) :
    ((put key value entries).map fun entry =>
      entry.1).Nodup := by
  induction entries with
  | nil => simp [put]
  | cons entry rest ih =>
      obtain ⟨first, old⟩ := entry
      rw [List.map_cons, List.nodup_cons] at hNodup
      simp only [put]
      split
      · exact List.nodup_cons.2 hNodup
      · rename_i hFirst
        refine List.nodup_cons.2 ⟨?_, ih hNodup.2⟩
        intro hAgain
        rcases List.mem_map.1 hAgain with
          ⟨entry, hEntry, hSame⟩
        rcases mem_put hEntry with rfl | hRest
        · exact hFirst hSame.symm
        · exact hNodup.1
            (List.mem_map.2 ⟨entry, hRest, hSame⟩)

theorem nodup_erase
    {entries : List (κ × α)}
    (hNodup : (entries.map fun entry => entry.1).Nodup)
    (key : κ) :
    ((erase key entries).map fun entry => entry.1).Nodup :=
  hNodup.sublist (List.filter_sublist.map _)

end Presence

------------------------------------------------------------
-- Sorted Entries
------------------------------------------------------------

section Order

variable {α : Type}
variable {entries : List (String × α)}

@[simp] theorem lookup_insert
    (key other : String)
    (value : α)
    (entries : List (String × α)) :
    (insert key value entries).lookup other =
      if other = key then some value
      else entries.lookup other := by
  induction entries with
  | nil =>
      by_cases h : other = key
      · simp [insert, h]
      · have h' : (other == key) = false := by simpa using h
        simp [insert, h, List.lookup_cons, h']
  | cons entry rest ih =>
      obtain ⟨first, old⟩ := entry
      by_cases hOther : other = key
      · subst hOther
        simp only [insert]
        split
        · simp
        · split
          · simp
          · rename_i hFirst
            have hFirst' : (other == first) = false := by
              simpa using hFirst
            simpa [List.lookup_cons, hFirst'] using ih
      · have hOther' : (other == key) = false := by
          simpa using hOther
        simp only [insert]
        split
        · simp [List.lookup_cons, hOther']
        · split
          · rename_i hFirst
            subst hFirst
            simp [List.lookup_cons, hOther']
          · simp only [List.lookup_cons, ih, hOther, if_false]

theorem Sorted.head_lt
    {key : String}
    {value : α}
    (hSorted : Sorted ((key, value) :: entries))
    {entry : String × α}
    (hEntry : entry ∈ entries) :
    key < entry.1 :=
  (List.pairwise_cons.1 hSorted).1 entry hEntry

theorem Sorted.tail
    {entry : String × α}
    (hSorted : Sorted (entry :: entries)) :
    Sorted entries :=
  (List.pairwise_cons.1 hSorted).2

theorem Sorted.erase
    (hSorted : Sorted entries)
    (key : String) :
    Sorted (Keyed.erase key entries) :=
  List.Pairwise.filter _ hSorted

/- The first key of sorted entries does not stand again. -/
theorem Sorted.lookup_tail_eq_none
    {key : String}
    {value : α}
    (hSorted : Sorted ((key, value) :: entries)) :
    entries.lookup key = none := by
  apply lookup_eq_none_of_forall_ne
  intro entry hEntry hEq
  have hLess := hSorted.head_lt hEntry
  rw [hEq] at hLess
  exact String.lt_irrefl key hLess

theorem Sorted.nodup
    (hSorted : Sorted entries) :
    (entries.map fun entry => entry.1).Nodup := by
  induction entries with
  | nil => exact List.nodup_nil
  | cons entry rest ih =>
      refine List.nodup_cons.2 ⟨?_, ih hSorted.tail⟩
      intro hMember
      rcases List.mem_map.1 hMember with
        ⟨other, hOther, hEq⟩
      have hLess := hSorted.head_lt hOther
      rw [hEq] at hLess
      exact String.lt_irrefl _ hLess

/- Each of sorted entries is found at its key. -/
theorem Sorted.lookup_of_mem
    (hSorted : Sorted entries)
    {entry : String × α}
    (hEntry : entry ∈ entries) :
    entries.lookup entry.1 = some entry.2 :=
  Keyed.lookup_of_mem hSorted.nodup hEntry

/- Sorted entries are determined by what is found at keys. -/
theorem Sorted.ext
    {left right : List (String × α)}
    (hLeft : Sorted left)
    (hRight : Sorted right)
    (hSame : ∀ key, left.lookup key = right.lookup key) :
    left = right := by
  induction left generalizing right with
  | nil =>
      cases right with
      | nil => rfl
      | cons head rest =>
          have h := hSame head.1
          rw [List.lookup_cons_self] at h
          cases h
  | cons head tail ih =>
      obtain ⟨key, value⟩ := head
      cases right with
      | nil =>
          have h := hSame key
          rw [List.lookup_cons_self] at h
          cases h
      | cons other rest =>
          obtain ⟨otherKey, otherValue⟩ := other
          have hKey : key = otherKey := by
            -- A smaller first key would stand on one side only.
            by_cases hLess : key < otherKey
            · have hFound := hSame key
              have hMember :
                  (key, value) ∈
                    (otherKey, otherValue) :: rest :=
                mem_of_lookup (by simpa using hFound.symm)
              rcases List.mem_cons.1 hMember with h | h
              · exact congrArg Prod.fst h
              · exact absurd
                  (String.lt_trans hLess (hRight.head_lt h))
                  (String.lt_irrefl key)
            · have hFound := hSame otherKey
              have hMember :
                  (otherKey, otherValue) ∈
                    (key, value) :: tail :=
                mem_of_lookup (by simpa using hFound)
              rcases List.mem_cons.1 hMember with h | h
              · exact (congrArg Prod.fst h).symm
              · exact absurd (hLeft.head_lt h) hLess
          subst hKey
          have hValue : value = otherValue := by
            simpa using hSame key
          subst hValue
          have hTails :
              ∀ query,
                tail.lookup query = rest.lookup query := by
            intro query
            by_cases hQuery : query = key
            · rw [hQuery, hLeft.lookup_tail_eq_none,
                hRight.lookup_tail_eq_none]
            · have hQuery' : (query == key) = false := by
                simpa using hQuery
              simpa [List.lookup_cons, hQuery'] using hSame query
          rw [ih hLeft.tail hRight.tail hTails]

/- An entry before all others is inserted in front. -/
theorem Sorted.insert_eq_cons
    {key : String}
    {value : α}
    (hSorted : Sorted ((key, value) :: entries)) :
    Keyed.insert key value entries =
      (key, value) :: entries := by
  apply Sorted.ext (hSorted.tail.insert key value) hSorted
  intro query
  by_cases h : query = key
  · simp [h]
  · have h' : (query == key) = false := by simpa using h
    simp [h, List.lookup_cons, h']

/- Sorting changes nothing once entries are sorted. -/
theorem Sorted.sort_eq
    (hSorted : Sorted entries) :
    sort entries = entries := by
  induction entries with
  | nil => rfl
  | cons entry rest ih =>
      obtain ⟨key, value⟩ := entry
      have hAbsent : has key rest = false :=
        has_eq_false_iff.2 hSorted.lookup_tail_eq_none
      simp only [sort, hAbsent, ih hSorted.tail]
      exact hSorted.insert_eq_cons

/- Sorting keeps what is found at keys, where none of them
   repeats. -/
theorem lookup_sort
    (hNodup : (entries.map fun entry => entry.1).Nodup)
    (key : String) :
    (sort entries).lookup key = entries.lookup key := by
  induction entries with
  | nil => rfl
  | cons entry rest ih =>
      obtain ⟨first, value⟩ := entry
      simp only [List.map_cons, List.nodup_cons] at hNodup
      have hAbsent : has first rest = false := by
        apply has_eq_false_iff.2
        apply lookup_eq_none_of_forall_ne
        intro other hOther hEq
        exact hNodup.1 (List.mem_map.2 ⟨other, hOther, hEq⟩)
      simp only [sort, hAbsent, Bool.false_eq_true, if_false,
        lookup_insert, ih hNodup.2]
      by_cases hKey : key = first
      · simp [hKey]
      · have hKey' : (key == first) = false := by
          simpa using hKey
        simp [hKey, List.lookup_cons, hKey']

/- In sorted entries, a value that is there is replaced in
   its place. -/
theorem Sorted.put_eq_insert
    (hSorted : Sorted entries)
    {key : String}
    (hThere : (entries.lookup key).isSome)
    (value : α) :
    put key value entries = Keyed.insert key value entries := by
  induction entries with
  | nil => simp at hThere
  | cons entry rest ih =>
      obtain ⟨first, old⟩ := entry
      by_cases hFirst : first = key
      · subst hFirst
        simp only [put, Keyed.insert, String.lt_irrefl,
          if_true, if_false]
      · have hFirst' : (key == first) = false := by
          simpa using Ne.symm hFirst
        have hRest : (rest.lookup key).isSome := by
          simpa [List.lookup_cons, hFirst'] using hThere
        rcases Option.isSome_iff_exists.1 hRest with
          ⟨found, hFound⟩
        have hLess : first < key :=
          hSorted.head_lt (mem_of_lookup hFound)
        have hNotLess : ¬key < first := fun h =>
          String.lt_irrefl key (String.lt_trans h hLess)
        simp [put, Keyed.insert, hFirst, hNotLess,
          Ne.symm hFirst, ih hSorted.tail hRest]

------------------------------------------------------------
-- Setting or Removing
------------------------------------------------------------

/- Sets the value of a key, or removes it. -/
def assign
    (key : String)
    (slot : Option α)
    (entries : List (String × α)) :
    List (String × α) :=
  match slot with
  | some value => insert key value entries
  | none => Keyed.erase key entries

@[simp] theorem lookup_assign
    (key other : String)
    (slot : Option α)
    (entries : List (String × α)) :
    (assign key slot entries).lookup other =
      if other = key then slot else entries.lookup other := by
  cases slot <;> simp [assign]

theorem Sorted.assign
    (hSorted : Sorted entries)
    (key : String)
    (slot : Option α) :
    Sorted (Keyed.assign key slot entries) := by
  cases slot with
  | none => exact hSorted.erase key
  | some value => exact hSorted.insert key value

/- Stating the value that is there changes nothing. -/
theorem Sorted.assign_lookup
    (hSorted : Sorted entries)
    (key : String) :
    Keyed.assign key (entries.lookup key) entries =
      entries := by
  apply (hSorted.assign key _).ext hSorted
  intro query
  by_cases h : query = key <;> simp [h]

/- Only the last of two values of a key counts. -/
theorem Sorted.assign_assign
    (hSorted : Sorted entries)
    (key : String)
    (first second : Option α) :
    Keyed.assign key second
        (Keyed.assign key first entries) =
      Keyed.assign key second entries := by
  apply ((hSorted.assign key first).assign key second).ext
    (hSorted.assign key second)
  intro query
  by_cases h : query = key <;> simp [h]

/- Sorted entries can be given any value at finitely many
   keys. -/
theorem Sorted.exists_lookup
    (hSorted : Sorted entries)
    (keys : List String)
    (found : String → Option α)
    (hElsewhere :
      ∀ key, key ∉ keys → found key = entries.lookup key) :
    ∃ after : List (String × α),
      Sorted after ∧ ∀ key, after.lookup key = found key := by
  induction keys generalizing entries with
  | nil =>
      exact ⟨entries, hSorted, fun key =>
        (hElsewhere key List.not_mem_nil).symm⟩
  | cons first rest ih =>
      apply ih (hSorted.assign first (found first))
      intro key hKey
      rw [lookup_assign]
      by_cases hFirst : key = first
      · rw [if_pos hFirst, hFirst]
      · rw [if_neg hFirst]
        exact hElsewhere key (by simp [hFirst, hKey])

end Order

end Keyed

end Converge
