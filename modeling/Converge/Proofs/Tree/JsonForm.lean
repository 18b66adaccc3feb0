import Converge.Proofs.Json.Reader
import Converge.Proofs.Keyed
import Converge.Tree.Basic

/-
  Trees survive their JSON form.

  Where no map repeats a key, nothing is erased from the
  members that are read, and every entry is found in its
  place. The nesting of the form is that of the tree.

  Key definitions:
    * `Tree.depth`: levels of lists and maps
    * `Tree.Nests`: distinct keys, within a limit of levels

  Main declarations:
    * `Tree.mapOfJson?_mapToJson`: a map is read back
    * `Tree.hasDistinctKeys_of_ofJson?`: no key of what is read
      repeats
    * `Tree.fits_mapToJson`: the nesting of its form
-/

namespace Converge

/- Nothing is erased at a key that no entry has. -/
theorem Keyed.erase_of_forall_ne
    {α : Type}
    {key : String}
    {entries : List (String × α)}
    (hNe : ∀ entry, entry ∈ entries → entry.1 ≠ key) :
    erase key entries = entries := by
  apply List.filter_eq_self.2
  intro entry hEntry
  exact decide_eq_true (hNe entry hEntry)

namespace Tree

open Json (Fits)

------------------------------------------------------------
-- Reading Back
------------------------------------------------------------

mutual

/- A tree is read back from its form. -/
theorem ofJson?_toJson :
    ∀ tree : Tree, tree.HasDistinctKeys →
      ofJson? tree.toJson = some tree
  | .null, _ => rfl
  | .bool _, _ => rfl
  | .str _, _ => rfl
  | .int value, _ => by
      rw [toJson, Json.ofInt64, ofJson?,
        Number.toInt64?_ofInt64, Option.map_some]
  | .list items, hKeys => by
      rw [toJson, ofJson?, ofItems?_itemsToJson items hKeys,
        Option.map_some]
  | .map entries, hKeys => by
      rw [toJson, ofJson?,
        ofMembers?_entriesToJson entries hKeys.1 hKeys.2,
        Option.map_some]

theorem ofItems?_itemsToJson :
    ∀ items : List Tree, ItemsHaveDistinctKeys items →
      ofItems? (itemsToJson items) = some items
  | [], _ => rfl
  | item :: items, hKeys => by
      rw [itemsToJson, ofItems?, ofJson?_toJson item hKeys.1,
        ofItems?_itemsToJson items hKeys.2]
      rfl

theorem ofMembers?_entriesToJson :
    ∀ entries : ConfigMap,
      (entries.map fun entry => entry.1).Nodup →
        EntriesHaveDistinctKeys entries →
          ofMembers? (entriesToJson entries) = some entries
  | [], _, _ => rfl
  | (key, value) :: entries, hNodup, hKeys => by
      have hHead := List.nodup_cons.1 hNodup
      have hNe :
          ∀ entry, entry ∈ entries → entry.1 ≠ key := by
        intro entry hEntry hSame
        exact hHead.1 (List.mem_map.2 ⟨entry, hEntry, hSame⟩)
      rw [entriesToJson, ofMembers?,
        ofJson?_toJson value hKeys.1,
        ofMembers?_entriesToJson entries hHead.2 hKeys.2]
      simp only [Option.bind_eq_bind, Option.bind_some,
        Keyed.lookup_eq_none_of_forall_ne hNe,
        Option.getD_none, Keyed.erase_of_forall_ne hNe]
      rfl

end

/- A map is read back from its form, with its entries in
   their order. -/
theorem mapOfJson?_mapToJson
    {entries : ConfigMap}
    (hKeys : (Tree.map entries).HasDistinctKeys) :
    mapOfJson? (mapToJson entries) = some entries := by
  have hRead := ofJson?_toJson (.map entries) hKeys
  rw [toJson] at hRead
  rw [mapOfJson?, mapToJson, hRead]
  rfl

------------------------------------------------------------
-- Distinct Keys
------------------------------------------------------------

theorem itemsHaveDistinctKeys_iff
    {items : List Tree} :
    ItemsHaveDistinctKeys items ↔
      ∀ item, item ∈ items → item.HasDistinctKeys := by
  induction items with
  | nil => simp [ItemsHaveDistinctKeys]
  | cons item rest ih =>
      rw [ItemsHaveDistinctKeys, ih, List.forall_mem_cons]

theorem entriesHaveDistinctKeys_iff
    {entries : ConfigMap} :
    EntriesHaveDistinctKeys entries ↔
      ∀ entry, entry ∈ entries → entry.2.HasDistinctKeys := by
  induction entries with
  | nil => simp [EntriesHaveDistinctKeys]
  | cons entry rest ih =>
      obtain ⟨key, value⟩ := entry
      rw [EntriesHaveDistinctKeys, ih, List.forall_mem_cons]

/- An entry is set before others, at the place of the first
   and with the value of the last of its key. -/
theorem hasDistinctKeys_cons_erase
    {key : String}
    {value : Tree}
    (hValue : value.HasDistinctKeys)
    {rest : ConfigMap}
    (hRest : (Tree.map rest).HasDistinctKeys) :
    (Tree.map
      ((key, (rest.lookup key).getD value) ::
        Keyed.erase key rest)).HasDistinctKeys := by
  have hValues := entriesHaveDistinctKeys_iff.1 hRest.2
  refine ⟨List.nodup_cons.2
    ⟨?_, Keyed.nodup_erase hRest.1 key⟩, ?_⟩
  · intro hMember
    rcases List.mem_map.1 hMember with ⟨entry, hEntry, hSame⟩
    have hOther := (List.mem_filter.1 hEntry).2
    exact of_decide_eq_true hOther hSame
  · apply entriesHaveDistinctKeys_iff.2
    intro entry hEntry
    rcases List.mem_cons.1 hEntry with rfl | hLater
    · cases hFound : rest.lookup key with
      | none => exact hValue
      | some found =>
          exact hValues (key, found)
            (Keyed.mem_of_lookup hFound)
    · exact hValues entry (List.mem_filter.1 hLater).1

mutual

/- No key of a tree that was read repeats. -/
theorem hasDistinctKeys_of_ofJson? :
    ∀ (value : Json) {tree : Tree},
      ofJson? value = some tree → tree.HasDistinctKeys
  | .null, _, hRead | .bool _, _, hRead
  | .str _, _, hRead => by
      cases hRead
      trivial
  | .num number, _, hRead => by
      rcases Option.map_eq_some_iff.1 hRead with
        ⟨_, _, rfl⟩
      trivial
  | .arr items, _, hRead => by
      rcases Option.map_eq_some_iff.1 hRead with
        ⟨trees, hTrees, rfl⟩
      exact itemsHaveDistinctKeys_of_ofItems? items hTrees
  | .obj members, _, hRead => by
      rcases Option.map_eq_some_iff.1 hRead with
        ⟨entries, hEntries, rfl⟩
      exact hasDistinctKeys_of_ofMembers? members hEntries

theorem itemsHaveDistinctKeys_of_ofItems? :
    ∀ (items : List Json) {trees : List Tree},
      ofItems? items = some trees →
        ItemsHaveDistinctKeys trees
  | [], _, hRead => by
      cases hRead
      trivial
  | item :: items, _, hRead => by
      rcases Option.bind_eq_some_iff.1 hRead with
        ⟨first, hFirst, hRest⟩
      rcases Option.bind_eq_some_iff.1 hRest with
        ⟨rest, hItems, hMade⟩
      cases hMade
      exact ⟨hasDistinctKeys_of_ofJson? item hFirst,
        itemsHaveDistinctKeys_of_ofItems? items hItems⟩

theorem hasDistinctKeys_of_ofMembers? :
    ∀ (members : List (String × Json)) {entries : ConfigMap},
      ofMembers? members = some entries →
        (Tree.map entries).HasDistinctKeys
  | [], _, hRead => by
      cases hRead
      exact ⟨List.nodup_nil, trivial⟩
  | (key, value) :: members, _, hRead => by
      rcases Option.bind_eq_some_iff.1 hRead with
        ⟨first, hFirst, hRest⟩
      rcases Option.bind_eq_some_iff.1 hRest with
        ⟨rest, hMembers, hMade⟩
      cases hMade
      exact hasDistinctKeys_cons_erase
        (hasDistinctKeys_of_ofJson? value hFirst)
        (hasDistinctKeys_of_ofMembers? members hMembers)

end

theorem hasDistinctKeys_of_mapOfJson?
    {value : Json}
    {entries : ConfigMap}
    (hRead : mapOfJson? value = some entries) :
    (Tree.map entries).HasDistinctKeys := by
  rcases Option.bind_eq_some_iff.1 hRead with
    ⟨tree, hTree, hMap⟩
  cases tree with
  | map found =>
      cases hMap
      exact hasDistinctKeys_of_ofJson? value hTree
  | null | bool | int | str | list => cases hMap

------------------------------------------------------------
-- Nesting
------------------------------------------------------------

mutual

/- Levels of lists and maps. -/
def depth : Tree → Nat
  | .list items => itemsDepth items + 1
  | .map entries => entriesDepth entries + 1
  | _ => 0

def itemsDepth : List Tree → Nat
  | [] => 0
  | item :: items => max (depth item) (itemsDepth items)

def entriesDepth : ConfigMap → Nat
  | [] => 0
  | (_, value) :: entries =>
      max (depth value) (entriesDepth entries)

end

theorem itemsDepth_le_iff
    {limit : Nat}
    {items : List Tree} :
    itemsDepth items ≤ limit ↔
      ∀ item, item ∈ items → item.depth ≤ limit := by
  induction items with
  | nil => simp [itemsDepth]
  | cons item rest ih =>
      rw [itemsDepth, Nat.max_le, ih, List.forall_mem_cons]

theorem entriesDepth_le_iff
    {limit : Nat}
    {entries : ConfigMap} :
    entriesDepth entries ≤ limit ↔
      ∀ entry, entry ∈ entries → entry.2.depth ≤ limit := by
  induction entries with
  | nil => simp [entriesDepth]
  | cons entry rest ih =>
      obtain ⟨key, value⟩ := entry
      rw [entriesDepth, Nat.max_le, ih, List.forall_mem_cons]

/- No key of a tree repeats, and it nests no deeper than a
   limit. -/
def Nests (limit : Nat) (tree : Tree) : Prop :=
  tree.HasDistinctKeys ∧ tree.depth ≤ limit

theorem Nests.mono
    {limit : Nat}
    {tree : Tree}
    (hNests : Nests limit tree)
    {higher : Nat}
    (hLimit : limit ≤ higher) :
    Nests higher tree :=
  ⟨hNests.1, Nat.le_trans hNests.2 hLimit⟩

/- A list nests one level deeper than its items. -/
theorem nests_list_iff
    {limit : Nat}
    {items : List Tree} :
    Nests (limit + 1) (.list items) ↔
      ∀ item, item ∈ items → Nests limit item := by
  rw [Nests, HasDistinctKeys, depth,
    itemsHaveDistinctKeys_iff, Nat.add_le_add_iff_right,
    itemsDepth_le_iff]
  constructor
  · rintro ⟨hKeys, hDepth⟩ item hItem
    exact ⟨hKeys item hItem, hDepth item hItem⟩
  · intro hItems
    exact ⟨fun item hItem => (hItems item hItem).1,
      fun item hItem => (hItems item hItem).2⟩

/- A map nests one level deeper than its values. -/
theorem nests_map_iff
    {limit : Nat}
    {entries : ConfigMap} :
    Nests (limit + 1) (.map entries) ↔
      (entries.map fun entry => entry.1).Nodup ∧
        ∀ entry, entry ∈ entries → Nests limit entry.2 := by
  rw [Nests, HasDistinctKeys, depth,
    entriesHaveDistinctKeys_iff, Nat.add_le_add_iff_right,
    entriesDepth_le_iff, and_assoc]
  constructor
  · rintro ⟨hNodup, hKeys, hDepth⟩
    exact ⟨hNodup, fun entry hEntry =>
      ⟨hKeys entry hEntry, hDepth entry hEntry⟩⟩
  · rintro ⟨hNodup, hEntries⟩
    exact ⟨hNodup,
      fun entry hEntry => (hEntries entry hEntry).1,
      fun entry hEntry => (hEntries entry hEntry).2⟩

mutual

/- The form of a tree nests no deeper than the tree. -/
theorem fits_toJson :
    ∀ (limit : Nat) (tree : Tree), tree.depth ≤ limit →
      Fits limit tree.toJson
  | _, .null, _ => by simp [Fits, toJson]
  | _, .bool _, _ => by simp [Fits, toJson]
  | _, .str _, _ => by simp [Fits, toJson]
  | _, .int _, _ => by
      simp [Fits, toJson, Json.ofInt64, Number.ofInt64]
  | 0, .list _, h => nomatch h
  | 0, .map _, h => nomatch h
  | limit + 1, .list items, h => by
      rw [depth] at h
      rw [toJson, Fits]
      exact fits_itemsToJson limit items
        (Nat.le_of_succ_le_succ h)
  | limit + 1, .map entries, h => by
      rw [depth] at h
      rw [toJson, Fits]
      exact fits_entriesToJson limit entries
        (Nat.le_of_succ_le_succ h)

theorem fits_itemsToJson :
    ∀ (limit : Nat) (items : List Tree),
      itemsDepth items ≤ limit →
        ∀ item, item ∈ itemsToJson items → Fits limit item
  | limit, [], _ => by simp [itemsToJson]
  | limit, item :: items, h => by
      rw [itemsDepth, Nat.max_le] at h
      rw [itemsToJson, List.forall_mem_cons]
      exact ⟨fits_toJson limit item h.1,
        fits_itemsToJson limit items h.2⟩

theorem fits_entriesToJson :
    ∀ (limit : Nat) (entries : ConfigMap),
      entriesDepth entries ≤ limit →
        ∀ member, member ∈ entriesToJson entries →
          Fits limit member.2
  | limit, [], _ => by simp [entriesToJson]
  | limit, (key, value) :: entries, h => by
      rw [entriesDepth, Nat.max_le] at h
      rw [entriesToJson, List.forall_mem_cons]
      exact ⟨fits_toJson limit value h.1,
        fits_entriesToJson limit entries h.2⟩

end

theorem fits_mapToJson
    {limit : Nat}
    {entries : ConfigMap}
    (hDepth : (Tree.map entries).depth ≤ limit) :
    Fits limit (mapToJson entries) := by
  have hFits := fits_toJson limit (.map entries) hDepth
  rwa [toJson] at hFits

end Tree

end Converge
