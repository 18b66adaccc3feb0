import Converge.Proofs.Diff.Cover
import Converge.Proofs.Schema.WireForm

/-
  Edits between records, applied to what shows a record.

  Edits towards a record are made for one snapshot and meet
  what is stored, which may show another record by then. They
  always succeed on what shows the record they were made for.
  Where they succeed at all, they leave something that shows
  a record, and it is the wanted one exactly when they cover
  the edits from the stored record to the wanted one.

  Key definitions:
    * `Fields.isPatchable`: objects below are blocks or maps
    * `Carries`: what becomes of a stored value

  Main declarations:
    * `Shape.carries`, `Fields.carries`: by the declaration
-/

namespace Converge

open Diff (carry? rootEdits valueEdits Covers)

------------------------------------------------------------
-- Declarations
------------------------------------------------------------

mutual

/- A field that is written as an object is a block or a map
   of strings. -/
def Shape.isPatchable : Shape → Bool
  | .leaf _ => true
  | .blocks _ => true
  | .block fields => fields.isPatchable
  | .part fields => fields.isPatchable
  | .value _ => false
  | .blockMap _ => false
  | .observed _ => false

def Fields.isPatchable : Fields → Bool
  | .nil => true
  | .field _ _ shape rest =>
      shape.isPatchable && rest.isPatchable
  | .wireOnly _ _ rest => rest.isPatchable

end

/- What a client asks for can be patched. -/
theorem Kind.isPatchable_spec (kind : Kind) :
    kind.spec.isPatchable = true := by
  cases kind <;> decide +kernel

------------------------------------------------------------
-- Edits of Whole Values
------------------------------------------------------------

namespace Diff

theorem carry?_singleton
    (change : Change)
    (slot : Option Json) :
    carry? [⟨[], change⟩] slot = change.onSlot? slot := by
  simp only [carry?, Edit.onSlot?]
  cases change.onSlot? slot <;> rfl

/- Edits towards what is no object put it as a whole. -/
theorem rootEdits_of_whole
    {current : Option Json}
    (hWhole :
      ∀ value, current = some value →
        value.isObject = false)
    (previous : Option Json) :
    (current = previous ∧ rootEdits [] current previous = []) ∨
      (current ≠ previous ∧ ∃ change,
        rootEdits [] current previous = [⟨[], change⟩] ∧
          ∀ slot made, change.onSlot? slot = some made →
            made = current) := by
  cases current with
  | none =>
      cases previous with
      | none => exact Or.inl ⟨rfl, rfl⟩
      | some previous =>
          refine Or.inr ⟨(Option.some_ne_none _).symm, .remove,
            rfl, ?_⟩
          intro slot made hMade
          cases slot <;> cases hMade
          rfl
  | some current =>
      have hEdits :
          rootEdits [] (some current) previous =
            wholeEdits [] current previous :=
        valueEdits_eq_wholeEdits [] fun hObject => by
          rw [hWhole current rfl] at hObject
          cases hObject
      rw [hEdits]
      cases previous with
      | none =>
          refine Or.inr ⟨Option.some_ne_none _, .add current,
            rfl, ?_⟩
          intro slot made hMade
          cases hMade
          rfl
      | some previous =>
          by_cases hSame : current = previous
          · refine Or.inl ⟨congrArg some hSame, ?_⟩
            simp [wholeEdits, hSame]
          · refine Or.inr ⟨fun h => hSame (Option.some.inj h),
              .replace current, by simp [wholeEdits, hSame], ?_⟩
            intro slot made hMade
            cases slot <;> cases hMade
            rfl

/- Edits towards what is no object leave the stored value, or
   make the wanted one. -/
theorem carry?_of_whole
    {current previous stored made : Option Json}
    (hWhole :
      ∀ value, current = some value →
        value.isObject = false)
    (hCarry :
      carry? (rootEdits [] current previous) stored =
        some made) :
    (made = stored ∨ made = current) ∧
      (made = current ↔
        Covers (rootEdits [] current previous)
          (rootEdits [] current stored)) := by
  have hStored := rootEdits_of_whole hWhole stored
  rcases rootEdits_of_whole hWhole previous with
    ⟨_, hEdits⟩ | ⟨_, change, hEdits, hChange⟩
  · rw [hEdits] at hCarry ⊢
    cases hCarry
    rw [nil_covers_iff]
    refine ⟨Or.inl rfl, ?_⟩
    rcases hStored with ⟨hSame, hNil⟩ | ⟨hNe, _, hSome, _⟩
    · exact iff_of_true hSame.symm hNil
    · refine iff_of_false (Ne.symm hNe) ?_
      rw [hSome]
      exact List.cons_ne_nil _ _
  · rw [hEdits] at hCarry ⊢
    rw [carry?_singleton] at hCarry
    have hMade := hChange stored made hCarry
    refine ⟨Or.inr hMade, iff_of_true hMade ?_⟩
    exact covers_of_whole List.mem_cons_self rfl _

end Diff

------------------------------------------------------------
-- Stored Values
------------------------------------------------------------

/- What becomes of a place that shows a stored value, when
   edits towards a wanted one are applied. -/
structure Carries
    {α : Type}
    (write : α → Option Json)
    (shows : α → Option Json → Prop)
    (current stored : α)
    (slot : Option Json) : Prop where
  fresh :
    ∃ made,
      carry? (rootEdits [] (write current) (write stored))
        slot = some made
  shown :
    ∀ previous made,
      carry? (rootEdits [] (write current) (write previous))
          slot = some made →
        ∃ left, shows left made
  reaches_iff :
    ∀ previous made,
      carry? (rootEdits [] (write current) (write previous))
          slot = some made →
        (shows current made ↔
          Covers
            (rootEdits [] (write current) (write previous))
            (rootEdits [] (write current) (write stored)))

namespace Carries

variable {α : Type}
variable {write : α → Option Json}
variable {shows : α → Option Json → Prop}

/- Values that are never objects, and shown by their wire
   form alone. -/
theorem of_whole
    (hWhole :
      ∀ held value, write held = some value →
        value.isObject = false)
    (hCanonical :
      ∀ held value, write held = some value →
        value.IsCanonical)
    (hShows : ∀ held slot, shows held slot ↔ slot = write held)
    (current stored : α)
    {slot : Option Json}
    (hStored : shows stored slot) :
    Carries write shows current stored slot := by
  have hSlot := (hShows stored slot).1 hStored
  subst hSlot
  refine ⟨⟨write current, ?_⟩, ?_, ?_⟩
  · exact Diff.carry?_rootEdits (hCanonical current)
      (hCanonical stored)
  · intro previous made hCarry
    rcases (Diff.carry?_of_whole (hWhole current) hCarry).1
      with hMade | hMade
    · exact ⟨stored, (hShows _ _).2 hMade⟩
    · exact ⟨current, (hShows _ _).2 hMade⟩
  · intro previous made hCarry
    rw [hShows]
    exact (Diff.carry?_of_whole (hWhole current) hCarry).2

end Carries

------------------------------------------------------------
-- Maps of Strings
------------------------------------------------------------

namespace Leaf

/- A list of members that are strings. -/
theorem exists_mapValues_str
    {members : List (String × Json)}
    (hTexts :
      ∀ member, member ∈ members →
        ∃ content, member.2 = .str content) :
    ∃ contents, Keyed.mapValues Json.str contents = members := by
  induction members with
  | nil => exact ⟨[], rfl⟩
  | cons member rest ih =>
      rcases hTexts member List.mem_cons_self with
        ⟨content, hContent⟩
      rcases ih fun other hOther =>
          hTexts other (List.mem_cons_of_mem _ hOther) with
        ⟨contents, hContents⟩
      refine ⟨(member.1, content) :: contents, ?_⟩
      rw [← hContents]
      exact congrArg (· :: _) (Prod.ext rfl hContent.symm)

/- Sorted strings are a map of strings. -/
theorem exists_encodeTextMap
    {members : List (String × Json)}
    (hSorted : Keyed.Sorted members)
    (hTexts :
      ∀ key value, members.lookup key = some value →
        ∃ content, value = .str content) :
    ∃ map, encodeTextMap map = .obj members := by
  rcases exists_mapValues_str fun member hMember =>
      hTexts member.1 member.2
        (hSorted.lookup_of_mem hMember) with
    ⟨contents, rfl⟩
  have hContents : Keyed.Sorted contents := by
    simpa [Keyed.Sorted, Keyed.mapValues, List.pairwise_map]
      using hSorted
  exact ⟨⟨contents, hContents⟩, rfl⟩

/- What a map of strings holds at a key is a string. -/
theorem text_of_lookup
    {map : SortedMap String}
    {key : String}
    {value : Json}
    (hFound :
      (Keyed.mapValues Json.str map.entries).lookup key =
        some value) :
    ∃ content, value = .str content := by
  rw [Keyed.lookup_mapValues] at hFound
  rcases Option.map_eq_some_iff.1 hFound with
    ⟨content, _, rfl⟩
  exact ⟨content, rfl⟩

theorem sorted_texts (map : SortedMap String) :
    Keyed.Sorted (Keyed.mapValues Json.str map.entries) :=
  map.sorted.mapValues Json.str

theorem encode_textMap_of_ne_empty
    {map : SortedMap String}
    (hMap : map ≠ SortedMap.empty) :
    encode .textMap map =
      some (.obj (Keyed.mapValues Json.str map.entries)) := by
  have hEmpty : ¬map.isEmpty = true := fun h =>
    hMap (eq_empty_of_isEmpty h)
  simp only [encode, hEmpty]
  rfl

/- A member shows one value at most. -/
theorem shows_unique
    {leaf : Leaf}
    {left right : leaf.Val}
    {slot : Option Json}
    (hLeft : leaf.Shows left slot)
    (hRight : leaf.Shows right slot) :
    left = right := by
  have h := leaf.decode?_of_shows left hLeft
  rw [leaf.decode?_of_shows right hRight] at h
  exact (Option.some.inj h).symm

/- No edits make a member that is missing what it should
   be, where it was there before. -/
theorem carry?_missing_ne
    {current : Option Json}
    (hWhole :
      ∀ value, current = some value →
        value.isObject = false)
    (previous : Json) :
    carry? (rootEdits [] current (some previous)) none ≠
      some current := by
  cases current with
  | none =>
      intro hMade
      cases hMade
  | some current =>
      rw [rootEdits, Diff.valueEdits_eq_wholeEdits [] fun h => by
        rw [hWhole current rfl] at h
        cases h]
      simp only [Diff.wholeEdits]
      split <;>
        (intro hMade
         cases hMade)

theorem exists_lookup_of_ne_empty
    {map : SortedMap String}
    (hMap : map ≠ SortedMap.empty) :
    ∃ key value,
      (Keyed.mapValues Json.str map.entries).lookup key =
        some value := by
  cases hEntries : map.entries with
  | nil => exact absurd (SortedMap.ext hEntries) hMap
  | cons entry rest =>
      exact ⟨entry.1, .str entry.2, by
        simp [Keyed.mapValues]⟩

/- Edits towards a map of strings that is not empty, made for
   another such map, meet a third one. -/
theorem carry?_textMaps
    {current previous stored : SortedMap String}
    (hCurrent : current ≠ SortedMap.empty)
    (hPrevious : previous ≠ SortedMap.empty)
    {made : Option Json}
    (hCarry :
      carry?
          (rootEdits [] (encode .textMap current)
            (encode .textMap previous))
          (some (encodeTextMap stored)) =
        some made) :
    (∃ left, Leaf.Shows .textMap left made) ∧
      (Leaf.Shows .textMap current made ↔
        Covers
          (rootEdits [] (encode .textMap current)
            (encode .textMap previous))
          (rootEdits [] (encode .textMap current)
            (encode .textMap stored))) := by
  have hWhole :
      ∀ key value,
        (Keyed.mapValues Json.str current.entries).lookup key =
            some value →
          value.isObject = false := by
    intro key value hFound
    rcases text_of_lookup hFound with ⟨_, rfl⟩
    rfl
  rw [encode_textMap_of_ne_empty hCurrent,
    encode_textMap_of_ne_empty hPrevious] at hCarry ⊢
  rcases (Diff.carry?_obj_iff (sorted_texts current)
      (sorted_texts previous) (sorted_texts stored)).1 hCarry
    with ⟨after, rfl, hAfter, hKeys⟩
  have hEach := fun key =>
    Diff.carry?_of_whole (hWhole key) (hKeys key)
  constructor
  · have hTexts :
        ∀ key value, after.lookup key = some value →
          ∃ content, value = .str content := by
      intro key value hFound
      rcases (hEach key).1 with hSame | hSame
      · rw [hSame] at hFound
        exact text_of_lookup hFound
      · rw [hSame] at hFound
        exact text_of_lookup hFound
    rcases exists_encodeTextMap hAfter hTexts with
      ⟨left, hLeft⟩
    exact ⟨left, Or.inl (congrArg some hLeft.symm)⟩
  · have hReached :
        Leaf.Shows .textMap current (some (.obj after)) ↔
          ∀ key, after.lookup key =
            (Keyed.mapValues Json.str current.entries).lookup
              key := by
      constructor
      · rintro (hSame | ⟨hNone, _⟩)
        · cases hSame
          exact fun _ => rfl
        · cases hNone
      · intro hSame
        left
        rw [hAfter.ext (sorted_texts current) hSame]
        rfl
    rw [hReached]
    by_cases hStored : stored = SortedMap.empty
    · -- Some key was there before, and is missing now.
      subst hStored
      have hAdd :
          rootEdits []
              (some (.obj
                (Keyed.mapValues Json.str current.entries)))
              (encode .textMap SortedMap.empty) =
            [⟨[], .add (encodeTextMap current)⟩] := rfl
      rw [hAdd]
      refine iff_of_false ?_ (Diff.not_covers_whole
        (sorted_texts current) (sorted_texts previous)
        List.mem_cons_self rfl)
      intro hSame
      rcases exists_lookup_of_ne_empty hPrevious with
        ⟨key, value, hFound⟩
      have hKey := hKeys key
      rw [hFound, hSame key] at hKey
      exact carry?_missing_ne (hWhole key) value hKey
    · rw [encode_textMap_of_ne_empty hStored]
      refine Iff.trans (forall_congr' fun key =>
        (hEach key).2) ?_
      exact (Diff.covers_obj_iff (sorted_texts current)
        (sorted_texts previous) (sorted_texts stored)).symm

/- Edits made for the map of strings that is stored. -/
theorem exists_carry?_textMap
    (current stored : SortedMap String)
    {slot : Option Json}
    (hStored : Leaf.Shows .textMap stored slot) :
    ∃ made,
      carry?
          (rootEdits [] (encode .textMap current)
            (encode .textMap stored))
          slot =
        some made := by
  by_cases hEmpty : stored = SortedMap.empty
  · subst hEmpty
    have hNone :
        encode .textMap SortedMap.empty = none := rfl
    rw [hNone]
    cases encode .textMap current with
    | none => exact ⟨slot, rfl⟩
    | some value =>
        rw [Diff.rootEdits_some_none]
        exact ⟨some value, rfl⟩
  · have hSlot : slot = encode .textMap stored := by
      rcases hStored with hSlot | ⟨_, hNot⟩
      · rw [encode_textMap_of_ne_empty hEmpty]
        exact hSlot
      · exact absurd hNot hEmpty
    rw [hSlot]
    exact ⟨_, Diff.carry?_rootEdits
      (fun _ h => isCanonical_encode .textMap current h)
      fun _ h => isCanonical_encode .textMap stored h⟩

/- Edits between maps of strings leave a map of strings. -/
theorem carry?_textMap
    (current previous stored : SortedMap String)
    {slot made : Option Json}
    (hStored : Leaf.Shows .textMap stored slot)
    (hCarry :
      carry?
          (rootEdits [] (encode .textMap current)
            (encode .textMap previous))
          slot =
        some made) :
    (∃ left, Leaf.Shows .textMap left made) ∧
      (Leaf.Shows .textMap current made ↔
        Covers
          (rootEdits [] (encode .textMap current)
            (encode .textMap previous))
          (rootEdits [] (encode .textMap current)
            (encode .textMap stored))) := by
  have hWritten := Leaf.shows_encode .textMap current
  have hNone : encode .textMap SortedMap.empty = none := rfl
  by_cases hCurrent : current = SortedMap.empty
  · subst hCurrent
    have hWhole :
        ∀ value : Json, none = some value →
          value.isObject = false := nofun
    rw [hNone] at hCarry hWritten ⊢
    rcases Diff.rootEdits_of_whole hWhole
        (encode .textMap previous) with
      ⟨_, hEdits⟩ | ⟨_, change, hEdits, hChange⟩
    · -- Nothing changes, so all depends on what was stored.
      rw [hEdits] at hCarry ⊢
      cases hCarry
      refine ⟨⟨stored, hStored⟩, ?_⟩
      rw [Diff.nil_covers_iff]
      by_cases hEmpty : stored = SortedMap.empty
      · subst hEmpty
        exact iff_of_true hStored rfl
      · refine iff_of_false (fun hShows => hEmpty
          (shows_unique hStored hShows)) ?_
        rw [encode_textMap_of_ne_empty hEmpty]
        exact List.cons_ne_nil _ _
    · rw [hEdits, Diff.carry?_singleton] at hCarry
      have hMade := hChange slot made hCarry
      rw [hMade, hEdits]
      exact ⟨⟨_, hWritten⟩, iff_of_true hWritten
        (Diff.covers_of_whole List.mem_cons_self rfl _)⟩
  · have hSome := encode_textMap_of_ne_empty hCurrent
    by_cases hPrevious : previous = SortedMap.empty
    · subst hPrevious
      have hAdd :
          rootEdits [] (encode .textMap current)
              (encode .textMap SortedMap.empty) =
            [⟨[], .add (encodeTextMap current)⟩] := by
        rw [hSome, hNone]
        rfl
      rw [hAdd, Diff.carry?_singleton] at hCarry
      have hMade : made = encode .textMap current := by
        rw [hSome]
        exact (Option.some.inj hCarry).symm
      rw [hMade, hAdd]
      exact ⟨⟨_, hWritten⟩, iff_of_true hWritten
        (Diff.covers_of_whole List.mem_cons_self rfl _)⟩
    · rcases hStored with rfl | ⟨rfl, rfl⟩
      · exact carry?_textMaps hCurrent hPrevious hCarry
      · rw [hSome, encode_textMap_of_ne_empty hPrevious]
          at hCarry ⊢
        rcases Diff.carry?_obj_none (sorted_texts current)
          (sorted_texts previous) hCarry with ⟨hEdits, rfl⟩
        have hEmpty :
            Leaf.Shows .textMap SortedMap.empty none :=
          Or.inr ⟨rfl, rfl⟩
        refine ⟨⟨_, hEmpty⟩, iff_of_false (fun hShows =>
          hCurrent (shows_unique hShows hEmpty)) ?_⟩
        rw [rootEdits, hEdits, Diff.nil_covers_iff]
        exact List.cons_ne_nil _ _

theorem carries_textMap
    (current stored : SortedMap String)
    {slot : Option Json}
    (hStored : Leaf.Shows .textMap stored slot) :
    Carries (encode .textMap) (Leaf.Shows .textMap) current
      stored slot where
  fresh := exists_carry?_textMap current stored hStored
  shown previous _ hCarry :=
    (carry?_textMap current previous stored hStored hCarry).1
  reaches_iff previous _ hCarry :=
    (carry?_textMap current previous stored hStored hCarry).2

/- Only maps of strings are objects. -/
theorem isObject_encode_eq_false :
    ∀ {leaf : Leaf}, leaf ≠ .textMap →
      ∀ (held : leaf.Val) (value : Json),
        leaf.encode held = some value →
          value.isObject = false
  | .text, _, (content : String), _, h => by
      simp only [encode] at h
      split at h <;> cases h
      rfl
  | .requiredText, _, (content : String), _, h => by
      cases h
      rfl
  | .flag, _, (held : Bool), _, h => by
      simp only [encode] at h
      split at h <;> cases h
      rfl
  | .integer, _, (held : Int64), _, h => by
      simp only [encode] at h
      split at h <;> cases h
      rfl
  | .timestamp, _, (time : Option Timestamp), _, h => by
      rcases Option.map_eq_some_iff.1 h with ⟨_, _, rfl⟩
      rfl
  | .choice choices, _, (selected : Option (Choice choices)),
      _, h => by
      rcases Option.map_eq_some_iff.1 h with ⟨_, _, rfl⟩
      rfl
  | .requiredChoice _, _, _, _, h => by
      cases h
      rfl
  | .texts, _, (contents : List String), _, h => by
      simp only [encode] at h
      split at h <;> cases h
      rfl
  | .textMap, hLeaf, _, _, _ => absurd rfl hLeaf

/- Edits between values of a leaf, on what shows another. -/
theorem carries
    (leaf : Leaf)
    (current stored : leaf.Val)
    {slot : Option Json}
    (hStored : leaf.Shows stored slot) :
    Carries leaf.encode leaf.Shows current stored slot := by
  by_cases hLeaf : leaf = .textMap
  · subst hLeaf
    exact carries_textMap current stored hStored
  · exact .of_whole (isObject_encode_eq_false hLeaf)
      (fun held _ h => leaf.isCanonical_encode held h)
      (fun held slot => shows_iff hLeaf held slot) current
      stored hStored

end Leaf

------------------------------------------------------------
-- Records
------------------------------------------------------------

/- What becomes of members that show a record: `now` and
   `before` are what the wanted record and the shown one are
   written as. -/
structure CarriesMembers
    {α : Type}
    (names : List String)
    (writes shows : α → List (String × Json) → Prop)
    (current : α)
    (now before members : List (String × Json)) : Prop where
  fresh :
    ∀ name, name ∈ names →
      ∃ made,
        carry?
            (rootEdits [] (now.lookup name)
              (before.lookup name))
            (members.lookup name) =
          some made
  stale :
    ∀ previous snapshot after,
      writes previous snapshot →
      (∀ name, name ∈ names →
        carry?
            (rootEdits [] (now.lookup name)
              (snapshot.lookup name))
            (members.lookup name) =
          some (after.lookup name)) →
        (∃ left, shows left after) ∧
          (shows current after ↔
            ∀ name, name ∈ names →
              Covers
                (rootEdits [] (now.lookup name)
                  (snapshot.lookup name))
                (rootEdits [] (now.lookup name)
                  (before.lookup name)))

/- A member and those after it are carried side by side. -/
theorem Carries.cons
    {α β : Type}
    {write : α → Option Json}
    {show₁ : α → Option Json → Prop}
    {names : List String}
    {writes shows : β → List (String × Json) → Prop}
    {current stored : α}
    {currents : β}
    {wire : String}
    {now before members : List (String × Json)}
    (hFirst :
      Carries write show₁ current stored (members.lookup wire))
    (hRest :
      CarriesMembers names writes shows currents now before
        members)
    (hNow : now.lookup wire = write current)
    (hBefore : before.lookup wire = write stored) :
    CarriesMembers (wire :: names)
      (fun (held : α × β) members =>
        members.lookup wire = write held.1 ∧
          writes held.2 members)
      (fun (held : α × β) members =>
        show₁ held.1 (members.lookup wire) ∧
          shows held.2 members)
      (current, currents) now before members := by
  constructor
  · rw [List.forall_mem_cons, hNow, hBefore]
    exact ⟨hFirst.fresh, hRest.fresh⟩
  · rintro ⟨previous, previouss⟩ snapshot after
      ⟨hWritten, hSnapshot⟩ hAfter
    rw [List.forall_mem_cons, hNow, hWritten] at hAfter
    rcases hFirst.shown previous _ hAfter.1 with ⟨left, hLeft⟩
    rcases hRest.stale previouss snapshot after hSnapshot
      hAfter.2 with ⟨⟨lefts, hLefts⟩, hReaches⟩
    refine ⟨⟨(left, lefts), hLeft, hLefts⟩, ?_⟩
    rw [List.forall_mem_cons, hNow, hWritten, hBefore]
    exact and_congr
      (hFirst.reaches_iff previous _ hAfter.1) hReaches

/- Undeclared names are not written. -/
theorem Fields.lookup_canonicalMembers_eq_none
    {fields : Fields}
    (hWell : fields.isWellFormed = true)
    (record : fields.Rec)
    {name : String}
    (hName : name ∉ fields.wireNames) :
    (Json.canonicalMembers (fields.encode record)).lookup
        name = none := by
  rw [Fields.lookup_canonicalMembers_encode hWell record,
    fields.lookup_encode_eq_none record hName]
  rfl

/- Edits between objects that are written records, on what
   shows another record. -/
theorem Carries.of_members
    {fields : Fields}
    (hWell : fields.isWellFormed = true)
    (current stored : fields.Rec)
    {members : List (String × Json)}
    (hSorted : Keyed.Sorted members)
    (hMembers :
      CarriesMembers fields.wireNames fields.Writes
        fields.Shows current
        (Json.canonicalMembers (fields.encode current))
        (Json.canonicalMembers (fields.encode stored))
        members) :
    Carries
      (fun record =>
        some (.obj
          (Json.canonicalMembers (fields.encode record))))
      (fun record => ShowsObject (fields.Shows record))
      current stored (some (.obj members)) := by
  have hOrder := fun record : fields.Rec =>
    (Json.isCanonical_canonicalMembers
      (fields.encode record)).sorted
  have hAbsent :
      ∀ (record : fields.Rec) {name : String},
        name ∉ fields.wireNames →
          (Json.canonicalMembers
            (fields.encode record)).lookup name = none :=
    fun record _ hName =>
      Fields.lookup_canonicalMembers_eq_none hWell record hName
  have hStale :
      ∀ (previous : fields.Rec) (made : Option Json),
        carry?
            (valueEdits []
              (.obj (Json.canonicalMembers
                (fields.encode current)))
              (some (.obj (Json.canonicalMembers
                (fields.encode previous)))))
            (some (.obj members)) = some made →
          ∃ after,
            made = some (.obj after) ∧ Keyed.Sorted after ∧
              (∃ left, fields.Shows left after) ∧
              (fields.Shows current after ↔
                Covers
                  (valueEdits []
                    (.obj (Json.canonicalMembers
                      (fields.encode current)))
                    (some (.obj (Json.canonicalMembers
                      (fields.encode previous)))))
                  (valueEdits []
                    (.obj (Json.canonicalMembers
                      (fields.encode current)))
                    (some (.obj (Json.canonicalMembers
                      (fields.encode stored)))))) := by
    intro previous made hCarry
    rcases (Diff.carry?_obj_iff (hOrder current)
        (hOrder previous) hSorted).1 hCarry with
      ⟨after, hMade, hAfter, hKeys⟩
    rcases hMembers.stale previous _ after
        (fields.writes_encode previous hWell)
        (fun name _ => hKeys name) with ⟨hLeft, hReaches⟩
    refine ⟨after, hMade, hAfter, hLeft, hReaches.trans ?_⟩
    rw [Diff.covers_obj_iff (hOrder current)
      (hOrder previous) (hOrder stored)]
    constructor
    · intro hNames name
      by_cases hName : name ∈ fields.wireNames
      · exact hNames name hName
      · rw [hAbsent current hName, hAbsent stored hName]
        exact Diff.covers_nil _
    · intro hAll name _
      exact hAll name
  refine ⟨?_, ?_, ?_⟩
  · rcases Diff.exists_carry?_obj (hOrder current)
        (hOrder stored) hSorted fun name => by
          by_cases hName : name ∈ fields.wireNames
          · exact hMembers.fresh name hName
          · rw [hAbsent current hName, hAbsent stored hName]
            exact ⟨_, rfl⟩ with
      ⟨after, hAfter⟩
    exact ⟨_, hAfter⟩
  · intro previous made hCarry
    rcases hStale previous made hCarry with
      ⟨after, hMade, hAfter, ⟨left, hLeft⟩, _⟩
    exact ⟨left, after, hMade, hAfter, hLeft⟩
  · intro previous made hCarry
    rcases hStale previous made hCarry with
      ⟨after, hMade, hAfter, _, hReaches⟩
    refine Iff.trans ?_ hReaches
    constructor
    · rintro ⟨found, hFound, _, hShows⟩
      rw [hMade] at hFound
      cases hFound
      exact hShows
    · intro hShows
      exact ⟨after, hMade, hAfter, hShows⟩

/- What a field is written as is canonical. -/
theorem Shape.isCanonical_of_slot
    {shape : Shape}
    {held : shape.Val}
    {value : Json}
    (hSlot : shape.slot held = some value) :
    value.IsCanonical := by
  rcases Option.map_eq_some_iff.1 hSlot with ⟨json, _, rfl⟩
  exact Json.isCanonical_canonical json

/- Lists of blocks are never objects. -/
theorem Shape.isObject_of_slot_blocks
    (fields : Fields)
    (items : List fields.Rec)
    {value : Json}
    (hSlot : (Shape.blocks fields).slot items = some value) :
    value.isObject = false := by
  cases items with
  | nil => cases hSlot
  | cons item rest =>
      cases hSlot
      rfl

/- Edits that remove a block, if there was one. -/
theorem Shape.carry?_block_none
    {fields : Fields}
    {previous stored : Option fields.Rec}
    {slot made : Option Json}
    (hStored : (Shape.block fields).Shows stored slot)
    (hCarry :
      carry? (rootEdits [] none
          ((Shape.block fields).slot previous)) slot =
        some made) :
    (∃ left, (Shape.block fields).Shows left made) ∧
      (made = none ↔
        Covers
          (rootEdits [] none ((Shape.block fields).slot previous))
          (rootEdits [] none
            ((Shape.block fields).slot stored))) := by
  cases previous with
  | none =>
      cases hCarry
      refine ⟨⟨stored, hStored⟩, ?_⟩
      cases stored with
      | none => exact iff_of_true hStored (Diff.covers_nil _)
      | some record =>
          rcases hStored with ⟨members, rfl, _⟩
          exact iff_of_false nofun
            fun h => nomatch Diff.nil_covers_iff.1 h
  | some record =>
      have hMade : made = none := by
        cases slot <;> cases hCarry
        rfl
      subst hMade
      exact ⟨⟨none, rfl⟩, iff_of_true rfl
        (Diff.covers_of_whole List.mem_cons_self rfl _)⟩

/- Edits towards a block that is there. -/
theorem Shape.carry?_block_some
    {fields : Fields}
    (hWell : fields.isWellFormed = true)
    {current : fields.Rec}
    {previous stored : Option fields.Rec}
    {slot made : Option Json}
    (hStored : (Shape.block fields).Shows stored slot)
    (hInner :
      ∀ record, stored = some record →
        Carries
          (fun record =>
            some (.obj
              (Json.canonicalMembers (fields.encode record))))
          (fun record => ShowsObject (fields.Shows record))
          current record slot)
    (hCarry :
      carry?
          (rootEdits []
            ((Shape.block fields).slot (some current))
            ((Shape.block fields).slot previous))
          slot =
        some made) :
    (∃ left, (Shape.block fields).Shows left made) ∧
      ((Shape.block fields).Shows (some current) made ↔
        Covers
          (rootEdits []
            ((Shape.block fields).slot (some current))
            ((Shape.block fields).slot previous))
          (rootEdits []
            ((Shape.block fields).slot (some current))
            ((Shape.block fields).slot stored))) := by
  have hWritten :
      (Shape.block fields).Shows (some current)
        ((Shape.block fields).slot (some current)) :=
    (Shape.block fields).shows_encode (some current) hWell
  cases previous with
  | none =>
      cases hCarry
      exact ⟨⟨some current, hWritten⟩, iff_of_true hWritten
        (Diff.covers_of_whole List.mem_cons_self rfl _)⟩
  | some previous =>
      cases stored with
      | none =>
          -- There is no block, so no member can be changed.
          have hSlot : slot = none := hStored
          subst hSlot
          have hOrder := fun record : fields.Rec =>
            (Json.isCanonical_canonicalMembers
              (fields.encode record)).sorted
          rcases Diff.carry?_obj_none (hOrder current)
            (hOrder previous) hCarry with ⟨hEdits, rfl⟩
          refine ⟨⟨none, rfl⟩, iff_of_false ?_ ?_⟩
          · rintro ⟨_, hNone, _⟩
            cases hNone
          · intro hCovers
            have hNone :
                Covers []
                  (rootEdits []
                    ((Shape.block fields).slot (some current))
                    none) := by
              rw [← hEdits]
              exact hCovers
            exact List.cons_ne_nil _ _
              (Diff.nil_covers_iff.1 hNone)
      | some record =>
          have h := hInner record rfl
          rcases h.shown previous made hCarry with
            ⟨left, hLeft⟩
          exact ⟨⟨some left, hLeft⟩,
            h.reaches_iff previous made hCarry⟩

mutual

/- Edits between values of a field, on what shows another. -/
theorem Shape.carries :
    ∀ (shape : Shape) (current stored : shape.Val)
      {slot : Option Json},
      shape.isWellFormed = true → shape.isPatchable = true →
        shape.Shows stored slot →
          Carries shape.slot shape.Shows current stored slot
  | .leaf type, current, stored, slot, _, _, hStored => by
      have hSlot : (Shape.leaf type).slot = type.encode :=
        funext fun held => type.map_canonical_encode held
      rw [hSlot]
      exact type.carries current stored hStored
  | .blocks fields, current, stored, slot, _, _, hStored =>
      .of_whole
        (fun items _ hSlot =>
          Shape.isObject_of_slot_blocks fields items hSlot)
        (fun _ _ hSlot => Shape.isCanonical_of_slot hSlot)
        (fun _ _ => Iff.rfl) current stored hStored
  | .block fields, (current : Option fields.Rec),
      (stored : Option fields.Rec), slot, hWell, hPatchable,
      hStored => by
      have hInner :
          ∀ wanted record, stored = some record →
            Carries
              (fun record =>
                some (.obj (Json.canonicalMembers
                  (fields.encode record))))
              (fun record => ShowsObject (fields.Shows record))
              wanted record slot := by
        intro wanted record hRecord
        subst hRecord
        rcases hStored with ⟨members, rfl, hSorted, hShows⟩
        exact .of_members hWell wanted record hSorted
          (fields.carries wanted record hWell hPatchable
            (fields.writes_encode wanted hWell)
            (fields.writes_encode record hWell) hShows)
      cases current with
      | none =>
          refine ⟨?_, ?_, ?_⟩
          · cases stored with
            | none => exact ⟨slot, rfl⟩
            | some record =>
                rcases hStored with ⟨members, rfl, _⟩
                exact ⟨none, rfl⟩
          · intro previous made hCarry
            exact (Shape.carry?_block_none hStored hCarry).1
          · intro previous made hCarry
            exact (Shape.carry?_block_none hStored hCarry).2
      | some wanted =>
          refine ⟨?_, ?_, ?_⟩
          · cases stored with
            | none => exact ⟨(Shape.block fields).slot
                (some wanted), rfl⟩
            | some record => exact (hInner wanted record rfl).fresh
          · intro previous made hCarry
            exact (Shape.carry?_block_some hWell hStored
              (hInner wanted) hCarry).1
          · intro previous made hCarry
            exact (Shape.carry?_block_some hWell hStored
              (hInner wanted) hCarry).2
  | .part fields, current, stored, slot, hWell, hPatchable,
      hStored => by
      have hFields :=
        (Shape.isWellFormed_part_iff.1 hWell).1
      rcases hStored with ⟨members, rfl, hSorted, hShows⟩
      exact .of_members hFields current stored hSorted
        (fields.carries current stored hFields hPatchable
          (fields.writes_encode current hFields)
          (fields.writes_encode stored hFields) hShows)
  | .value _, _, _, _, _, hPatchable, _ => nomatch hPatchable
  | .blockMap _, _, _, _, _, hPatchable, _ =>
      nomatch hPatchable
  | .observed _, _, _, _, _, hPatchable, _ =>
      nomatch hPatchable

/- Edits of members between records, on members that show
   another. -/
theorem Fields.carries :
    ∀ (fields : Fields) (current stored : fields.Rec)
      {now before members : List (String × Json)},
      fields.isWellFormed = true → fields.isPatchable = true →
        fields.Writes current now →
          fields.Writes stored before →
            fields.Shows stored members →
              CarriesMembers fields.wireNames fields.Writes
                fields.Shows current now before members
  | .nil, _, _, _, _, _, _, _, _, _, _ => by
      refine ⟨nofun, ?_⟩
      intro _ _ after _ _
      exact ⟨⟨(), trivial⟩, iff_of_true trivial nofun⟩
  | .field _ _ shape rest, (current, currents),
      (stored, storeds), _, _, _, hWell, hPatchable, hNow,
      hBefore, hMembers => by
      have hParts := Fields.isWellFormed_field_iff.1 hWell
      simp only [Fields.isPatchable, Bool.and_eq_true]
        at hPatchable
      have hFirst := shape.carries current stored
        hParts.2.2.1 hPatchable.1 hMembers.1
      have hRest := rest.carries currents storeds
        hParts.2.2.2 hPatchable.2 hNow.2 hBefore.2 hMembers.2
      exact hFirst.cons hRest hNow.1 hBefore.1
  | .wireOnly _ type rest, (current, currents),
      (stored, storeds), _, _, _, hWell, hPatchable, hNow,
      hBefore, hMembers => by
      have hParts := Fields.isWellFormed_wireOnly_iff.1 hWell
      have hFirst := type.carries current stored hMembers.1
      have hRest := rest.carries currents storeds
        hParts.2.2 hPatchable hNow.2 hBefore.2 hMembers.2
      exact hFirst.cons hRest hNow.1 hBefore.1

end

end Converge
