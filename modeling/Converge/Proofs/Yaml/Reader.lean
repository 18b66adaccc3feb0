import Converge.Proofs.Tree.JsonForm
import Converge.Yaml.Reader

/-
  No map of a YAML document repeats a key.

  A reader sets every entry before the ones that follow it,
  which erases its key from them. The proofs follow the fuel
  of the readers.

  Main declarations:
    * `Yaml.hasDistinctKeys_of_flowValue?`: values in brackets
    * `Yaml.hasDistinctKeys_of_node?`: blocks
    * `Yaml.hasDistinctKeys_of_read?`: documents
-/

namespace Converge

namespace Yaml

------------------------------------------------------------
-- Scalars
------------------------------------------------------------

theorem hasDistinctKeys_of_plainTree?
    {chars : List Char}
    {tree : Tree}
    (hRead : plainTree? chars = some tree) :
    tree.HasDistinctKeys := by
  simp only [plainTree?] at hRead
  split at hRead
  · cases hRead
    trivial
  · split at hRead
    · cases hRead
      trivial
    · split at hRead
      · cases hRead
        trivial
      · split at hRead
        · split at hRead
          · cases hRead
          · split at hRead
            · cases hRead
            · cases hRead
              trivial
        · split at hRead
          · cases hRead
          · cases hRead
            trivial

------------------------------------------------------------
-- Brackets
------------------------------------------------------------

theorem hasDistinctKeys_singleton
    {value : Tree}
    (hValue : value.HasDistinctKeys)
    (key : String) :
    (Tree.map [(key, value)]).HasDistinctKeys :=
  ⟨List.pairwise_singleton _ _, hValue, trivial⟩

/- The entries of a map, once the first of them was read. -/
def flowAfter?
    (fuel : Nat)
    (key : String)
    (value : Tree)
    (rest : List Char) :
    Option (ConfigMap × List Char) :=
  match skipBlanks rest with
  | '\x7d' :: rest => some ([(key, value)], rest)
  | ',' :: rest =>
      match skipBlanks rest with
      | '\x7d' :: rest => some ([(key, value)], rest)
      | rest =>
          (flowEntries? fuel rest).bind fun (entries, rest) =>
            some (addFirst key value entries, rest)
  | _ => none

theorem hasDistinctKeys_of_flowAfter?
    {fuel : Nat}
    (hEntries :
      ∀ {chars rest : List Char} {entries : ConfigMap},
        flowEntries? fuel chars = some (entries, rest) →
          (Tree.map entries).HasDistinctKeys)
    {key : String}
    {value : Tree}
    (hValue : value.HasDistinctKeys)
    {chars rest : List Char}
    {entries : ConfigMap}
    (hRead :
      flowAfter? fuel key value chars =
        some (entries, rest)) :
    (Tree.map entries).HasDistinctKeys := by
  unfold flowAfter? at hRead
  split at hRead
  · cases hRead
    exact hasDistinctKeys_singleton hValue key
  · split at hRead
    · cases hRead
      exact hasDistinctKeys_singleton hValue key
    · rcases Option.bind_eq_some_iff.1 hRead with
        ⟨⟨others, _⟩, hOthers, hMade⟩
      cases hMade
      exact Tree.hasDistinctKeys_cons_erase hValue
        (hEntries hOthers)
  · cases hRead

mutual

theorem hasDistinctKeys_of_flowValue? :
    ∀ (fuel : Nat) {chars rest : List Char} {tree : Tree},
      flowValue? fuel chars = some (tree, rest) →
        tree.HasDistinctKeys
  | 0, _, _, _, hRead => by
      simp [flowValue?] at hRead
  | fuel + 1, chars, _, _, hRead => by
      rw [flowValue?] at hRead
      split at hRead
      · cases hRead
      · split at hRead
        · cases hRead
          trivial
        · rcases Option.map_eq_some_iff.1 hRead with
            ⟨⟨items, rest⟩, hItems, hMade⟩
          cases hMade
          exact itemsHaveDistinctKeys_of_flowItems? fuel
            hItems
      · split at hRead
        · cases hRead
          exact ⟨List.nodup_nil, trivial⟩
        · rcases Option.map_eq_some_iff.1 hRead with
            ⟨⟨entries, rest⟩, hEntries, hMade⟩
          cases hMade
          exact hasDistinctKeys_of_flowEntries? fuel hEntries
      · split at hRead
        · rcases Option.map_eq_some_iff.1 hRead with
            ⟨_, _, hMade⟩
          cases hMade
          trivial
        · split at hRead
          · rcases Option.map_eq_some_iff.1 hRead with
              ⟨value, hValue, hMade⟩
            cases hMade
            exact hasDistinctKeys_of_plainTree? hValue
          · cases hRead

theorem itemsHaveDistinctKeys_of_flowItems? :
    ∀ (fuel : Nat) {chars rest : List Char}
        {items : List Tree},
      flowItems? fuel chars = some (items, rest) →
        Tree.ItemsHaveDistinctKeys items
  | 0, _, _, _, hRead => by
      simp [flowItems?] at hRead
  | fuel + 1, chars, _, _, hRead => by
      rw [flowItems?] at hRead
      rcases Option.bind_eq_some_iff.1 hRead with
        ⟨⟨item, after⟩, hItem, hMore⟩
      have hFirst := hasDistinctKeys_of_flowValue? fuel hItem
      simp only at hMore
      split at hMore
      · cases hMore
        exact ⟨hFirst, trivial⟩
      · split at hMore
        · cases hMore
          exact ⟨hFirst, trivial⟩
        · rcases Option.bind_eq_some_iff.1 hMore with
            ⟨⟨others, left⟩, hOthers, hMade⟩
          cases hMade
          exact ⟨hFirst,
            itemsHaveDistinctKeys_of_flowItems? fuel hOthers⟩
      · cases hMore

theorem hasDistinctKeys_of_flowEntries? :
    ∀ (fuel : Nat) {chars rest : List Char}
        {entries : ConfigMap},
      flowEntries? fuel chars = some (entries, rest) →
        (Tree.map entries).HasDistinctKeys
  | 0, _, _, _, hRead => by
      simp [flowEntries?] at hRead
  | fuel + 1, chars, rest, entries, hRead => by
      have hOthers := @hasDistinctKeys_of_flowEntries? fuel
      rw [flowEntries?] at hRead
      rcases Option.bind_eq_some_iff.1 hRead with
        ⟨⟨key, after⟩, _, hMore⟩
      have hAfter :
          ∀ value left, value.HasDistinctKeys →
            flowAfter? fuel key value left =
                some (entries, rest) →
              (Tree.map entries).HasDistinctKeys :=
        fun value left hValue hLeft =>
          hasDistinctKeys_of_flowAfter? hOthers hValue hLeft
      simp only at hMore
      split at hMore
      all_goals
        rcases Option.bind_eq_some_iff.1 hMore with
          ⟨⟨value, left⟩, hValue, hRest⟩
        refine hAfter value left ?_ hRest
      · cases hValue
        trivial
      · cases hValue
        trivial
      · exact hasDistinctKeys_of_flowValue? fuel hValue

end

theorem hasDistinctKeys_of_flow?
    {chars : List Char}
    {tree : Tree}
    (hRead : flow? chars = some tree) :
    tree.HasDistinctKeys := by
  unfold flow? at hRead
  split at hRead
  · rename_i value rest hValue
    split at hRead
    · cases hRead
      exact hasDistinctKeys_of_flowValue? _ hValue
    · cases hRead
  · cases hRead

------------------------------------------------------------
-- Blocks
------------------------------------------------------------

theorem hasDistinctKeys_of_plain?
    {least : Nat}
    {text : List Char}
    {lines left : List Line}
    {tree : Tree}
    (hRead : plain? least text lines = some (tree, left)) :
    tree.HasDistinctKeys := by
  simp only [plain?] at hRead
  generalize
    (if beforeComment text = text then continued least lines
      else ([], lines)) = joined at hRead
  split at hRead
  · cases hRead
  · rcases Option.map_eq_some_iff.1 hRead with
      ⟨value, hValue, hMade⟩
    cases hMade
    exact hasDistinctKeys_of_plainTree? hValue

theorem hasDistinctKeys_of_inline?
    {least : Nat}
    {text : List Char}
    {lines left : List Line}
    {tree : Tree}
    (hRead : inline? least text lines = some (tree, left)) :
    tree.HasDistinctKeys := by
  unfold inline? at hRead
  split at hRead
  · rcases Option.map_eq_some_iff.1 hRead with ⟨_, _, hMade⟩
    cases hMade
    trivial
  · rcases Option.map_eq_some_iff.1 hRead with ⟨_, _, hMade⟩
    cases hMade
    trivial
  · split at hRead
    · rcases Option.bind_eq_some_iff.1 hRead with
        ⟨_, _, hMore⟩
      simp only at hMore
      split at hMore
      · cases hMore
        trivial
      · cases hMore
    · split at hRead
      · rcases Option.bind_eq_some_iff.1 hRead with
          ⟨value, hValue, hMade⟩
        cases hMade
        exact hasDistinctKeys_of_flow? hValue
      · split at hRead
        · exact hasDistinctKeys_of_plain? hRead
        · cases hRead

/- The entries of a block, once the first of them was
   read. -/
def entriesAfter?
    (fuel : Nat)
    (anyScalar : Bool)
    (indent : Nat)
    (key : String)
    (value : Tree)
    (rest : List Line) :
    Option (ConfigMap × List Line) :=
  (entries? fuel anyScalar indent rest).bind
    fun (entries, rest) =>
      some (addFirst key value entries, rest)

theorem hasDistinctKeys_of_entriesAfter?
    {fuel : Nat}
    {anyScalar : Bool}
    {indent : Nat}
    (hEntries :
      ∀ {lines left : List Line} {entries : ConfigMap},
        entries? fuel anyScalar indent lines =
            some (entries, left) →
          (Tree.map entries).HasDistinctKeys)
    {key : String}
    {value : Tree}
    (hValue : value.HasDistinctKeys)
    {lines left : List Line}
    {entries : ConfigMap}
    (hRead :
      entriesAfter? fuel anyScalar indent key value lines =
        some (entries, left)) :
    (Tree.map entries).HasDistinctKeys := by
  rcases Option.bind_eq_some_iff.1 hRead with
    ⟨⟨others, _⟩, hOthers, hMade⟩
  cases hMade
  exact Tree.hasDistinctKeys_cons_erase hValue
    (hEntries hOthers)

mutual

theorem hasDistinctKeys_of_node? :
    ∀ (fuel : Nat) {least : Nat} {lines left : List Line}
        {tree : Tree},
      node? fuel least lines = some (tree, left) →
        tree.HasDistinctKeys
  | 0, _, _, _, _, hRead => by
      simp [node?] at hRead
  | fuel + 1, _, _, _, _, hRead => by
      rw [node?] at hRead
      split at hRead
      · cases hRead
        trivial
      · split at hRead
        · cases hRead
          trivial
        · split at hRead
          · rcases Option.map_eq_some_iff.1 hRead with
              ⟨⟨items, rest⟩, hItems, hMade⟩
            cases hMade
            exact itemsHaveDistinctKeys_of_items? fuel hItems
          · split at hRead
            · rcases Option.map_eq_some_iff.1 hRead with
                ⟨⟨entries, rest⟩, hEntries, hMade⟩
              cases hMade
              exact hasDistinctKeys_of_entries? fuel hEntries
            · exact hasDistinctKeys_of_inline? hRead

theorem itemsHaveDistinctKeys_of_items? :
    ∀ (fuel : Nat) {indent : Nat} {lines left : List Line}
        {items : List Tree},
      items? fuel indent lines = some (items, left) →
        Tree.ItemsHaveDistinctKeys items
  | 0, _, _, _, _, hRead => by
      simp [items?] at hRead
  | fuel + 1, _, _, _, _, hRead => by
      rw [items?] at hRead
      split at hRead
      · cases hRead
        trivial
      · split at hRead
        · cases hRead
        · split at hRead
          · cases hRead
            trivial
          · split at hRead
            · cases hRead
              trivial
            · rcases Option.bind_eq_some_iff.1 hRead with
                ⟨⟨first, rest⟩, hFirst, hMore⟩
              rcases Option.bind_eq_some_iff.1 hMore with
                ⟨⟨others, left⟩, hOthers, hMade⟩
              cases hMade
              exact ⟨hasDistinctKeys_of_node? fuel hFirst,
                itemsHaveDistinctKeys_of_items? fuel hOthers⟩

theorem hasDistinctKeys_of_entries? :
    ∀ (fuel : Nat) {anyScalar : Bool} {indent : Nat}
        {lines left : List Line} {entries : ConfigMap},
      entries? fuel anyScalar indent lines =
          some (entries, left) →
        (Tree.map entries).HasDistinctKeys
  | 0, _, _, _, _, _, hRead => by
      simp [entries?] at hRead
  | fuel + 1, anyScalar, indent, lines, left, entries,
      hRead => by
      have hEmpty : (Tree.map []).HasDistinctKeys :=
        ⟨List.nodup_nil, trivial⟩
      have hOthers :=
        @hasDistinctKeys_of_entries? fuel anyScalar indent
      rw [entries?] at hRead
      split at hRead
      · cases hRead
        exact hEmpty
      · split at hRead
        · cases hRead
        · split at hRead
          · cases hRead
            exact hEmpty
          · rcases Option.bind_eq_some_iff.1 hRead with
              ⟨⟨key, text⟩, _, hMore⟩
            have hAfter :
                ∀ value rest, value.HasDistinctKeys →
                  entriesAfter? fuel anyScalar indent key
                      value rest =
                      some (entries, left) →
                    (Tree.map entries).HasDistinctKeys :=
              fun value rest hValue hRest =>
                hasDistinctKeys_of_entriesAfter? hOthers
                  hValue hRest
            simp only at hMore
            split at hMore
            · split at hMore
              · exact hAfter .null _ trivial hMore
              · split at hMore
                · rcases Option.bind_eq_some_iff.1 hMore with
                    ⟨⟨value, rest⟩, hValue, hRest⟩
                  refine hAfter value rest ?_ hRest
                  rcases Option.map_eq_some_iff.1 hValue with
                    ⟨⟨items, _⟩, hItems, hMade⟩
                  cases hMade
                  exact itemsHaveDistinctKeys_of_items? fuel
                    hItems
                · rcases Option.bind_eq_some_iff.1 hMore with
                    ⟨⟨value, rest⟩, hValue, hRest⟩
                  exact hAfter value rest
                    (hasDistinctKeys_of_node? fuel hValue)
                    hRest
            · rcases Option.bind_eq_some_iff.1 hMore with
                ⟨⟨value, rest⟩, hValue, hRest⟩
              exact hAfter value rest
                (hasDistinctKeys_of_inline? hValue) hRest

end

------------------------------------------------------------
-- Documents
------------------------------------------------------------

theorem hasDistinctKeys_of_readLines?
    {fuel : Nat}
    {lines : List Line}
    {config : ConfigMap}
    (hRead : readLines? fuel lines = some config) :
    (Tree.map config).HasDistinctKeys := by
  unfold readLines? at hRead
  split at hRead
  · cases hRead
    exact ⟨List.nodup_nil, trivial⟩
  · rename_i line rest _
    simp only at hRead
    split at hRead
    · rename_i entries left hValue
      have hEntries :
          (Tree.map entries).HasDistinctKeys := by
        split at hValue
        · rcases Option.map_eq_some_iff.1 hValue with
            ⟨⟨found, _⟩, hFound, hMade⟩
          cases hMade
          exact hasDistinctKeys_of_entries? fuel hFound
        · exact hasDistinctKeys_of_node? fuel hValue
      split at hRead
      · cases hRead
        exact hEntries
      · cases hRead
    · cases hRead

theorem hasDistinctKeys_of_read?
    {document : String}
    {config : ConfigMap}
    (hRead : read? document = some config) :
    (Tree.map config).HasDistinctKeys := by
  simp only [read?] at hRead
  generalize
    (if document.toList.head? = some '\ufeff' then
      document.toList.tail else document.toList) = chars
      at hRead
  split at hRead
  · rcases Option.bind_eq_some_iff.1 hRead with
      ⟨lines, _, hLines⟩
    exact hasDistinctKeys_of_readLines? hLines
  · cases hRead

end Yaml

end Converge
