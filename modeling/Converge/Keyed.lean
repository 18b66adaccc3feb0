/-
  Lists of entries addressed by a key.

  Two disciplines are used: entries that keep the order in
  which their keys first appeared (`put`), and entries kept
  in increasing order of text keys (`insert`).

  Key definitions:
    * `Keyed.put`: set an entry, keeping its place
    * `Keyed.insert`: set an entry, keeping the key order
    * `Keyed.unique?`: a value whose key does not repeat
    * `Keyed.Sorted`: keys increase strictly
    * `SortedMap`: entries together with that order
-/

namespace Converge

namespace Keyed

variable {κ : Type} [DecidableEq κ]
variable {α β : Type}

------------------------------------------------------------
-- Entries in Order of Appearance
------------------------------------------------------------

/- Whether some entry has the key. -/
def has
    (key : κ)
    (entries : List (κ × α)) :
    Bool :=
  entries.any fun entry => entry.1 = key

/- Sets an entry in its place, or appends it. -/
def put
    (key : κ)
    (value : α) :
    List (κ × α) → List (κ × α)
  | [] => [(key, value)]
  | (first, old) :: rest =>
      if first = key then (first, value) :: rest
      else (first, old) :: put key value rest

/- Removes every entry with the key. -/
def erase
    (key : κ)
    (entries : List (κ × α)) :
    List (κ × α) :=
  entries.filter fun entry => entry.1 ≠ key

/- The values of all entries with the key, in order. -/
def valuesAt
    (key : κ)
    (entries : List (κ × α)) :
    List α :=
  (entries.filter fun entry => entry.1 = key).map
    fun entry => entry.2

/- The value of a key: absent, or there exactly once. -/
def unique?
    (key : κ)
    (entries : List (κ × α)) :
    Option (Option α) :=
  match valuesAt key entries with
  | [] => some none
  | [value] => some (some value)
  | _ => none

omit [DecidableEq κ] in
/- Applies a function to every value. -/
def mapValues
    (f : α → β)
    (entries : List (κ × α)) :
    List (κ × β) :=
  entries.map fun entry => (entry.1, f entry.2)

theorem lookup_put_self
    (key : κ)
    (value : α)
    (entries : List (κ × α)) :
    (put key value entries).lookup key = some value := by
  induction entries with
  | nil => simp [put]
  | cons entry rest ih =>
      obtain ⟨first, old⟩ := entry
      by_cases h : first = key
      · simp [put, h]
      · have h' : (key == first) = false := by
          simpa using Ne.symm h
        simp [put, h, List.lookup_cons, h', ih]

theorem lookup_put_of_ne
    {key other : κ}
    (hne : other ≠ key)
    (value : α)
    (entries : List (κ × α)) :
    (put key value entries).lookup other =
      entries.lookup other := by
  have h₀ : (other == key) = false := by simpa using hne
  induction entries with
  | nil => simp [put, List.lookup_cons, h₀]
  | cons entry rest ih =>
      obtain ⟨first, old⟩ := entry
      by_cases h : first = key
      · subst h
        simp [put, List.lookup_cons, h₀]
      · by_cases h' : other = first
        · subst h'
          simp [put, h]
        · have h'' : (other == first) = false := by
            simpa using h'
          simp [put, h, List.lookup_cons, h'', ih]

------------------------------------------------------------
-- Entries in Key Order
------------------------------------------------------------

/- The keys increase strictly, so no key repeats. -/
def Sorted (entries : List (String × α)) : Prop :=
  entries.Pairwise fun left right => left.1 < right.1

instance (entries : List (String × α)) :
    Decidable (Sorted entries) :=
  inferInstanceAs (Decidable (List.Pairwise _ _))

/- Sets an entry at the place its key has in the order. -/
def insert
    (key : String)
    (value : α) :
    List (String × α) → List (String × α)
  | [] => [(key, value)]
  | (first, old) :: rest =>
      if key < first then
        (key, value) :: (first, old) :: rest
      else if key = first then
        (key, value) :: rest
      else
        (first, old) :: insert key value rest

/- Puts entries in key order; the last entry of a repeated
   key is the one that counts. -/
def sort : List (String × α) → List (String × α)
  | [] => []
  | (key, value) :: rest =>
      if has key rest then sort rest
      else insert key value (sort rest)

theorem mem_insert
    {key : String}
    {value : α}
    {entry : String × α}
    {entries : List (String × α)}
    (h : entry ∈ insert key value entries) :
    entry = (key, value) ∨ entry ∈ entries := by
  induction entries with
  | nil =>
      left
      simpa [insert] using h
  | cons head rest ih =>
      obtain ⟨first, old⟩ := head
      simp only [insert] at h
      split at h
      · rcases List.mem_cons.1 h with h | h
        · exact Or.inl h
        · exact Or.inr h
      · split at h
        · rcases List.mem_cons.1 h with h | h
          · exact Or.inl h
          · exact Or.inr (List.mem_cons_of_mem _ h)
        · rcases List.mem_cons.1 h with h | h
          · exact Or.inr (h ▸ List.mem_cons_self)
          · rcases ih h with h | h
            · exact Or.inl h
            · exact Or.inr (List.mem_cons_of_mem _ h)

theorem Sorted.insert
    {entries : List (String × α)}
    (hSorted : Sorted entries)
    (key : String)
    (value : α) :
    Sorted (Keyed.insert key value entries) := by
  induction entries with
  | nil => simp [Keyed.insert, Sorted]
  | cons head rest ih =>
      obtain ⟨first, old⟩ := head
      have hHead := (List.pairwise_cons.1 hSorted).1
      have hRest : Sorted rest :=
        (List.pairwise_cons.1 hSorted).2
      simp only [Keyed.insert]
      split
      · rename_i hLess
        refine List.pairwise_cons.2 ⟨?_, hSorted⟩
        intro entry hEntry
        rcases List.mem_cons.1 hEntry with rfl | hEntry
        · exact hLess
        · exact String.lt_trans hLess (hHead entry hEntry)
      · rename_i hNotLess
        split
        · rename_i hEq
          subst hEq
          exact List.pairwise_cons.2 ⟨hHead, hRest⟩
        · rename_i hNe
          refine List.pairwise_cons.2 ⟨?_, ih hRest⟩
          intro entry hEntry
          rcases mem_insert hEntry with rfl | hEntry
          · have hLe : first ≤ key := String.not_lt.1 hNotLess
            by_cases hLt : first < key
            · exact hLt
            · exact absurd
                (String.le_antisymm
                  (String.not_lt.1 hLt) hLe)
                hNe
          · exact hHead entry hEntry

theorem sorted_sort (entries : List (String × α)) :
    Sorted (sort entries) := by
  induction entries with
  | nil => exact List.Pairwise.nil
  | cons head rest ih =>
      obtain ⟨key, value⟩ := head
      simp only [sort]
      split
      · exact ih
      · exact ih.insert key value

theorem Sorted.mapValues
    {entries : List (String × α)}
    (hSorted : Sorted entries)
    (f : α → β) :
    Sorted (Keyed.mapValues f entries) := by
  simp only [Sorted, Keyed.mapValues, List.pairwise_map]
  exact hSorted

end Keyed

------------------------------------------------------------
-- Sorted Maps
------------------------------------------------------------

/- Entries in increasing key order. -/
structure SortedMap (α : Type) where
  entries : List (String × α)
  sorted : Keyed.Sorted entries

namespace SortedMap

variable {α β : Type}

@[ext] theorem ext
    {left right : SortedMap α}
    (h : left.entries = right.entries) :
    left = right := by
  cases left
  cases right
  cases h
  rfl

instance [DecidableEq α] : DecidableEq (SortedMap α) :=
  fun left right =>
    if h : left.entries = right.entries then
      isTrue (ext h)
    else
      isFalse fun hEq => h (hEq ▸ rfl)

/- The map without entries. -/
def empty : SortedMap α :=
  ⟨[], List.Pairwise.nil⟩

instance : Inhabited (SortedMap α) :=
  ⟨empty⟩

def isEmpty (map : SortedMap α) : Bool :=
  map.entries.isEmpty

def find?
    (map : SortedMap α)
    (key : String) :
    Option α :=
  map.entries.lookup key

/- Collects entries; the last one of a repeated key counts. -/
def ofList (entries : List (String × α)) : SortedMap α :=
  ⟨Keyed.sort entries, Keyed.sorted_sort entries⟩

def mapValues
    (f : α → β)
    (map : SortedMap α) :
    SortedMap β :=
  ⟨Keyed.mapValues f map.entries, map.sorted.mapValues f⟩

end SortedMap

end Converge
