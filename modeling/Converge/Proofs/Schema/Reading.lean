import Converge.Proofs.Result
import Converge.Proofs.Tree.Same
import Converge.Schema.Reading

/-
  Reading and checking lists and maps, part by part.

  A list or a map is checked by checking its parts, and is
  read by reading them. What holds of each part holds of the
  whole: a check that is passed, the ways in which reading
  may fail, and the tree that is made of what was read.

  Main declarations:
    * `Reading.checkItems_eq_ok_iff`,
      `Reading.checkEntries_eq_ok_iff`
    * `Reading.failsBy_eachItem`, `Reading.failsBy_eachEntry`
    * `Reading.exists_of_eachItem`,
      `Reading.exists_of_entries`
    * `Reading.eachItem_eq_ok_iff`,
      `Reading.entries_eq_ok_iff`
    * `Reading.exists_eachItem`, `Reading.exists_entries`
-/

namespace Converge

namespace Reading

------------------------------------------------------------
-- Checks
------------------------------------------------------------

section Checks

variable {check : FieldPath → Tree → Except SchemaError Unit}
variable {path : FieldPath}

/- A list passes a check when each of its items does. -/
theorem checkEachItem_eq_ok_iff
    {position : Nat}
    {items : List Tree} :
    checkEachItem check path position items = .ok () ↔
      ∀ offset item, items[offset]? = some item →
        check (path.item (position + offset)) item =
          .ok () := by
  induction items generalizing position with
  | nil => simp [checkEachItem]
  | cons first rest ih =>
      simp only [checkEachItem, Result.bind_eq_ok_iff, ih]
      constructor
      · rintro ⟨_, hFirst, hRest⟩ offset item hItem
        cases offset with
        | zero =>
            cases hItem
            exact hFirst
        | succ offset =>
            have hLater := hRest offset item hItem
            rw [Nat.add_right_comm] at hLater
            exact hLater
      · intro hAll
        refine ⟨(), hAll 0 first rfl, ?_⟩
        intro offset item hItem
        have hLater := hAll (offset + 1) item hItem
        rw [Nat.add_right_comm]
        exact hLater

/- A map passes a check when each of its values does. -/
theorem checkEachEntry_eq_ok_iff
    {entries : ConfigMap} :
    checkEachEntry check path entries = .ok () ↔
      ∀ entry, entry ∈ entries →
        check (path.entry entry.1) entry.2 = .ok () := by
  induction entries with
  | nil => simp [checkEachEntry]
  | cons first rest ih =>
      simp only [checkEachEntry, Result.bind_eq_ok_iff, ih,
        List.mem_cons, forall_eq_or_imp]
      constructor
      · rintro ⟨_, hFirst, hRest⟩
        exact ⟨hFirst, hRest⟩
      · rintro ⟨hFirst, hRest⟩
        exact ⟨(), hFirst, hRest⟩

theorem checkItems_eq_ok_iff
    {tree : Tree} :
    checkItems check path tree = .ok () ↔
      ∃ items, tree = .list items ∧
        checkEachItem check path 0 items = .ok () := by
  cases tree <;> simp [checkItems]

theorem checkEntries_eq_ok_iff
    {tree : Tree} :
    checkEntries check path tree = .ok () ↔
      ∃ entries, tree = .map entries ∧
        checkEachEntry check path entries = .ok () := by
  cases tree <;> simp [checkEntries]

theorem checkElement_eq_ok_iff
    {tree : Tree} :
    checkElement path tree = .ok () ↔
      ∃ content, tree = .str content := by
  cases tree <;> simp [checkElement]

/- A block is a map that is read. -/
theorem block_eq_ok_iff
    {α : Type}
    {read : FieldPath → ConfigMap → Except SchemaError α}
    {tree : Tree}
    {value : α} :
    block read path tree = .ok value ↔
      ∃ entries, tree = .map entries ∧
        read path entries = .ok value := by
  cases tree <;> simp [block]

end Checks

------------------------------------------------------------
-- Reading
------------------------------------------------------------

section Reads

variable {α : Type}
variable {read : FieldPath → Tree → Except SchemaError α}
variable {path : FieldPath}

/- Reading a list fails as reading one of its items does. -/
theorem failsBy_eachItem
    {lapse : SchemaError → Prop}
    {position : Nat}
    {items : List Tree}
    (hRead :
      ∀ offset item, items[offset]? = some item →
        Result.FailsBy lapse
          (read (path.item (position + offset)) item)) :
    Result.FailsBy lapse
      (eachItem read path position items) := by
  induction items generalizing position with
  | nil => exact Result.failsBy_ok _
  | cons first rest ih =>
      simp only [eachItem]
      refine (hRead 0 first rfl).bind fun value _ => ?_
      refine (ih ?_).bind fun others _ => Result.failsBy_ok _
      intro offset item hItem
      have hLater := hRead (offset + 1) item hItem
      rw [Nat.add_right_comm]
      exact hLater

/- Reading a map fails as reading one of its values does. -/
theorem failsBy_eachEntry
    {lapse : SchemaError → Prop}
    {entries : ConfigMap}
    (hRead :
      ∀ entry, entry ∈ entries →
        Result.FailsBy lapse
          (read (path.entry entry.1) entry.2)) :
    Result.FailsBy lapse (eachEntry read path entries) := by
  induction entries with
  | nil => exact Result.failsBy_ok _
  | cons first rest ih =>
      simp only [eachEntry]
      refine (hRead first List.mem_cons_self).bind
        fun value _ => ?_
      refine (ih ?_).bind fun others _ => Result.failsBy_ok _
      intro entry hEntry
      exact hRead entry (List.mem_cons_of_mem _ hEntry)

/- Checking a list fails as checking one of its items does. -/
theorem failsBy_checkEachItem
    {check : FieldPath → Tree → Except SchemaError Unit}
    {lapse : SchemaError → Prop}
    {position : Nat}
    {items : List Tree}
    (hCheck :
      ∀ offset item, items[offset]? = some item →
        Result.FailsBy lapse
          (check (path.item (position + offset)) item)) :
    Result.FailsBy lapse
      (checkEachItem check path position items) := by
  induction items generalizing position with
  | nil => exact Result.failsBy_ok _
  | cons first rest ih =>
      simp only [checkEachItem]
      refine (hCheck 0 first rfl).bind fun _ _ => ih ?_
      intro offset item hItem
      have hLater := hCheck (offset + 1) item hItem
      rw [Nat.add_right_comm]
      exact hLater

/- Checking a map fails as checking one of its values does. -/
theorem failsBy_checkEachEntry
    {check : FieldPath → Tree → Except SchemaError Unit}
    {lapse : SchemaError → Prop}
    {entries : ConfigMap}
    (hCheck :
      ∀ entry, entry ∈ entries →
        Result.FailsBy lapse
          (check (path.entry entry.1) entry.2)) :
    Result.FailsBy lapse
      (checkEachEntry check path entries) := by
  induction entries with
  | nil => exact Result.failsBy_ok _
  | cons first rest ih =>
      simp only [checkEachEntry]
      refine (hCheck first List.mem_cons_self).bind
        fun _ _ => ih ?_
      intro entry hEntry
      exact hCheck entry (List.mem_cons_of_mem _ hEntry)

/- A list is read when at each position an item is read into
   the value there. -/
theorem eachItem_eq_ok_iff
    {position : Nat}
    {items : List Tree}
    {values : List α} :
    eachItem read path position items = .ok values ↔
      ∀ offset : Nat,
        Option.Rel
          (fun item value =>
            read (path.item (position + offset)) item =
              .ok value)
          items[offset]? values[offset]? := by
  induction items generalizing position values with
  | nil =>
      cases values with
      | nil => simp [eachItem]
      | cons value values =>
          refine iff_of_false (by simp [eachItem]) fun hAll => ?_
          cases hAll 0
  | cons first rest ih =>
      simp only [eachItem, Result.bind_eq_ok_iff]
      constructor
      · rintro ⟨value, hFirst, others, hOthers, hValues⟩
        cases hValues
        intro offset
        cases offset with
        | zero => exact .some hFirst
        | succ offset =>
            have hLater := ih.1 hOthers offset
            rw [Nat.add_right_comm] at hLater
            exact hLater
      · intro hAll
        cases values with
        | nil => cases hAll 0
        | cons value others =>
            have hFirst := hAll 0
            cases hFirst with
            | some hFirst =>
                refine ⟨value, hFirst, others, ih.2 ?_, rfl⟩
                intro offset
                have hLater := hAll (offset + 1)
                rw [Nat.add_right_comm]
                exact hLater

/- Of a list that was read each item was. -/
theorem exists_of_eachItem
    {position : Nat}
    {items : List Tree}
    {values : List α}
    (hValues :
      eachItem read path position items = .ok values) :
    ∀ offset item, items[offset]? = some item →
      ∃ value,
        read (path.item (position + offset)) item =
          .ok value := by
  intro offset item hItem
  have hRead := eachItem_eq_ok_iff.1 hValues offset
  rw [hItem] at hRead
  generalize values[offset]? = value at hRead
  cases hRead with
  | some hValue => exact ⟨_, hValue⟩

theorem exists_of_eachEntry
    {entries : ConfigMap}
    {values : List (String × α)}
    (hValues : eachEntry read path entries = .ok values) :
    ∀ entry, entry ∈ entries →
      ∃ value,
        read (path.entry entry.1) entry.2 = .ok value := by
  induction entries generalizing values with
  | nil => simp
  | cons first rest ih =>
      simp only [eachEntry, Result.bind_eq_ok_iff] at hValues
      rcases hValues with ⟨value, hFirst, others, hOthers, _⟩
      rw [List.forall_mem_cons]
      exact ⟨⟨value, hFirst⟩, ih hOthers⟩

/- Of a map that was read each value was. -/
theorem exists_of_entries
    {entries : ConfigMap}
    {map : SortedMap α}
    (hMap :
      Reading.entries read path (some (.map entries)) =
        .ok map) :
    ∀ entry, entry ∈ entries →
      ∃ value,
        read (path.entry entry.1) entry.2 = .ok value := by
  cases hValues : eachEntry read path entries with
  | error fault =>
      rw [Reading.entries, hValues] at hMap
      cases hMap
  | ok values => exact exists_of_eachEntry hValues

------------------------------------------------------------
-- Maps, Key by Key
------------------------------------------------------------

/- A map is read when under each of its keys the value is. -/
theorem lookup_of_eachEntry
    {entries : ConfigMap}
    {values : List (String × α)}
    (hValues : eachEntry read path entries = .ok values) :
    (values.map fun entry => entry.1) =
        (entries.map fun entry => entry.1) ∧
      ∀ key,
        Option.Rel
          (fun tree value =>
            read (path.entry key) tree = .ok value)
          (entries.lookup key) (values.lookup key) := by
  induction entries generalizing values with
  | nil =>
      cases hValues
      exact ⟨rfl, fun _ => .none⟩
  | cons first rest ih =>
      obtain ⟨name, tree⟩ := first
      simp only [eachEntry, Result.bind_eq_ok_iff] at hValues
      rcases hValues with
        ⟨value, hFirst, others, hOthers, hMade⟩
      cases hMade
      rcases ih hOthers with ⟨hNames, hFound⟩
      refine ⟨by simp only [List.map_cons, hNames], ?_⟩
      intro key
      by_cases hKey : key = name
      · subst hKey
        simp only [List.lookup_cons_self]
        exact .some hFirst
      · have hKey' : (key == name) = false := by
          simpa using hKey
        simp only [List.lookup_cons, hKey']
        exact hFound key

theorem lookup_of_entries
    {entries : ConfigMap}
    {map : SortedMap α}
    (hKeys : (entries.map fun entry => entry.1).Nodup)
    (hMap :
      Reading.entries read path (some (.map entries)) =
        .ok map)
    (key : String) :
    Option.Rel
      (fun tree value =>
        read (path.entry key) tree = .ok value)
      (entries.lookup key) (map.find? key) := by
  rcases Result.map_eq_ok_iff.1 hMap with
    ⟨values, hValues, rfl⟩
  rcases lookup_of_eachEntry hValues with ⟨hNames, hFound⟩
  have hNodup : (values.map fun entry => entry.1).Nodup :=
    hNames ▸ hKeys
  change Option.Rel _ _ ((Keyed.sort values).lookup key)
  rw [Keyed.lookup_sort hNodup]
  exact hFound key

/- A map without repeated keys is read into the one map that
   has, under each key, what is read there. -/
theorem entries_eq_ok_iff
    {entries : ConfigMap}
    {map : SortedMap α}
    (hKeys : (entries.map fun entry => entry.1).Nodup) :
    Reading.entries read path (some (.map entries)) =
        .ok map ↔
      ∀ key,
        Option.Rel
          (fun tree value =>
            read (path.entry key) tree = .ok value)
          (entries.lookup key) (map.find? key) := by
  constructor
  · exact lookup_of_entries hKeys
  · intro hFound
    have hNever :
        Result.FailsBy (fun _ => False)
          (Reading.entries read path (some (.map entries))) := by
      refine (failsBy_eachEntry fun entry hEntry => ?_).map _
      have hEntryFound := hFound entry.1
      rw [Keyed.lookup_of_mem hKeys hEntry] at hEntryFound
      generalize map.find? entry.1 = found at hEntryFound
      cases hEntryFound with
      | some hRead =>
          rw [hRead]
          exact Result.failsBy_ok _
    rcases hNever.exists_ok fun _ h => h with
      ⟨other, hOther⟩
    have hSame : other = map := by
      refine SortedMap.ext
        (other.sorted.ext map.sorted fun key => ?_)
      have hLeft := lookup_of_entries hKeys hOther key
      have hRight := hFound key
      simp only [SortedMap.find?] at hLeft hRight
      generalize other.entries.lookup key = left at hLeft ⊢
      generalize map.entries.lookup key = right at hRight ⊢
      generalize entries.lookup key = tree at hLeft hRight
      cases hLeft with
      | none =>
          cases hRight
          rfl
      | some hLeft =>
          cases hRight with
          | some hRight =>
              rw [hLeft] at hRight
              rw [Except.ok.inj hRight]
    rw [← hSame]
    exact hOther

------------------------------------------------------------
-- What Was Read
------------------------------------------------------------

variable {made : α → Tree}

/- A list is read into values that make the same list, when
   each of its items is. -/
theorem exists_eachItem
    {position : Nat}
    {items : List Tree}
    (hRead :
      ∀ offset item, items[offset]? = some item →
        ∃ value,
          read (path.item (position + offset)) item =
              .ok value ∧
            Tree.same (made value) item = true) :
    ∃ values,
      eachItem read path position items = .ok values ∧
        Tree.sameItems (values.map made) items = true := by
  induction items generalizing position with
  | nil => exact ⟨[], rfl, by simp [Tree.sameItems]⟩
  | cons first rest ih =>
      rcases hRead 0 first rfl with ⟨value, hFirst, hSame⟩
      have hLater :
          ∀ offset item, rest[offset]? = some item →
            ∃ value,
              read (path.item (position + 1 + offset)) item =
                  .ok value ∧
                Tree.same (made value) item = true := by
        intro offset item hItem
        rw [Nat.add_right_comm]
        exact hRead (offset + 1) item hItem
      rcases ih hLater with ⟨values, hValues, hOthers⟩
      refine ⟨value :: values, ?_, ?_⟩
      · rw [Nat.add_zero] at hFirst
        simp only [eachItem, hFirst, hValues]
        rfl
      · simp only [List.map_cons, Tree.sameItems, hSame,
          hOthers, Bool.and_self]

/- A map is read into values under the same keys that make the
   same trees, when each of its values is. -/
theorem exists_eachEntry
    {entries : ConfigMap}
    (hRead :
      ∀ entry, entry ∈ entries →
        ∃ value,
          read (path.entry entry.1) entry.2 = .ok value ∧
            Tree.same (made value) entry.2 = true) :
    ∃ values,
      eachEntry read path entries = .ok values ∧
        (values.map fun entry => entry.1) =
          (entries.map fun entry => entry.1) ∧
        ∀ key,
          Tree.SameAnswer ((values.lookup key).map made)
            (entries.lookup key) := by
  induction entries with
  | nil => exact ⟨[], rfl, rfl, fun _ => .none⟩
  | cons first rest ih =>
      obtain ⟨name, tree⟩ := first
      rcases hRead (name, tree) List.mem_cons_self with
        ⟨value, hFirst, hSame⟩
      rcases ih fun entry hEntry =>
          hRead entry (List.mem_cons_of_mem _ hEntry) with
        ⟨values, hValues, hKeys, hFound⟩
      refine ⟨(name, value) :: values, ?_, ?_, ?_⟩
      · simp only [eachEntry, hFirst, hValues]
        rfl
      · simp only [List.map_cons, hKeys]
      · intro key
        by_cases hKey : key = name
        · subst hKey
          simp only [List.lookup_cons_self]
          exact .some hSame
        · have hKey' : (key == name) = false := by
            simpa using hKey
          simp only [List.lookup_cons, hKey']
          exact hFound key

/- A map without repeated keys is read into values that make
   the same map. -/
theorem exists_entries
    {entries : ConfigMap}
    (hKeys : (entries.map fun entry => entry.1).Nodup)
    (hRead :
      ∀ entry, entry ∈ entries →
        ∃ value,
          read (path.entry entry.1) entry.2 = .ok value ∧
            Tree.same (made value) entry.2 = true) :
    ∃ map,
      Reading.entries read path (some (.map entries)) =
          .ok map ∧
        Tree.sameMaps (Keyed.mapValues made map.entries)
          entries = true := by
  rcases exists_eachEntry hRead with
    ⟨values, hValues, hNames, hFound⟩
  refine ⟨SortedMap.ofList values, ?_, ?_⟩
  · simp only [Reading.entries, hValues]
    rfl
  · have hSorted := Keyed.sorted_sort values
    have hNodup :
        (values.map fun entry => entry.1).Nodup :=
      hNames ▸ hKeys
    refine Tree.sameMaps_of_lookup
      (hSorted.mapValues made).nodup hKeys fun key => ?_
    rw [Keyed.lookup_mapValues]
    change Tree.SameAnswer
      (((Keyed.sort values).lookup key).map made) _
    rw [Keyed.lookup_sort hNodup]
    exact hFound key

end Reads

end Reading

end Converge
