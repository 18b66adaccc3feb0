import Converge.Proofs.Schema.LeafWire

/-
  Records survive their wire form.

  A stored object shows a record when it holds at each
  declared name what the field is written as. Members that
  are not declared do not matter, and a map of strings may be
  written although it is empty, as it is once its last entry
  was removed. What shows a record is read as that record.

  Key definitions:
    * `Shape.Shows`, `Fields.Shows`: a record on the wire

  Main declarations:
    * `Fields.shows_encode`: a record is shown when written
    * `Fields.decodes_of_shows`: a record is read back
-/

namespace Converge

open Json (IsCanonical)

------------------------------------------------------------
-- Showing a Record
------------------------------------------------------------

/- A leaf on the wire. An empty map of strings is left out,
   or written as an empty object. -/
def Leaf.Shows : (leaf : Leaf) → leaf.Val → Option Json → Prop
  | .textMap, (map : SortedMap String), slot =>
      slot = some (encodeTextMap map) ∨
        (slot = none ∧ map = SortedMap.empty)
  | .text, held, slot => slot = encode .text held
  | .requiredText, held, slot =>
      slot = encode .requiredText held
  | .flag, held, slot => slot = encode .flag held
  | .integer, held, slot => slot = encode .integer held
  | .timestamp, held, slot => slot = encode .timestamp held
  | .choice choices, held, slot =>
      slot = encode (.choice choices) held
  | .requiredChoice choices, held, slot =>
      slot = encode (.requiredChoice choices) held
  | .texts, held, slot => slot = encode .texts held

/- The wire form of a field as it is kept. -/
def Shape.slot
    (shape : Shape)
    (held : shape.Val) :
    Option Json :=
  (shape.encode held).map Json.canonical

/- A canonical object with certain members. -/
def ShowsObject
    (shows : List (String × Json) → Prop)
    (slot : Option Json) :
    Prop :=
  ∃ members,
    slot = some (.obj members) ∧ Keyed.Sorted members ∧
      shows members

mutual

/- A member shows the value of a field. -/
def Shape.Shows :
    (shape : Shape) → shape.Val → Option Json → Prop
  | .leaf type, held, slot => type.Shows held slot
  | .value need, held, slot => slot = need.encode held
  | .block _, none, slot => slot = none
  | .block fields, some record, slot =>
      ShowsObject (fields.Shows record) slot
  | .blocks fields, items, slot =>
      slot = (Shape.blocks fields).slot items
  | .blockMap fields, map, slot =>
      slot = (Shape.blockMap fields).slot map
  | .part fields, record, slot =>
      ShowsObject (fields.Shows record) slot
  | .observed _, none, slot => slot = none
  | .observed fields, some record, slot =>
      ShowsObject (fields.Shows record) slot

/- The members of an object show a record. -/
def Fields.Shows :
    (fields : Fields) →
      fields.Rec → List (String × Json) → Prop
  | .nil, _, _ => True
  | .field _ wire shape rest, (first, others), members =>
      shape.Shows first (members.lookup wire) ∧
        rest.Shows others members
  | .wireOnly wire type rest, (first, others), members =>
      type.Shows first (members.lookup wire) ∧
        rest.Shows others members

end

/- Unless it is a map, a leaf is shown by what it is written
   as alone. -/
theorem Leaf.shows_iff
    {leaf : Leaf}
    (hLeaf : leaf ≠ .textMap)
    (held : leaf.Val)
    (slot : Option Json) :
    leaf.Shows held slot ↔ slot = leaf.encode held := by
  cases leaf with
  | textMap => exact absurd rfl hLeaf
  | _ => exact Iff.rfl

theorem Leaf.shows_encode
    (leaf : Leaf)
    (held : leaf.Val) :
    leaf.Shows held (leaf.encode held) := by
  by_cases hLeaf : leaf = .textMap
  · subst hLeaf
    revert held
    intro (map : SortedMap String)
    by_cases hEmpty : map.isEmpty
    · right
      exact ⟨by simp only [encode, hEmpty, if_true],
        eq_empty_of_isEmpty hEmpty⟩
    · left
      simp only [encode, hEmpty]
      rfl
  · exact (shows_iff hLeaf held _).2 rfl

/- A leaf is read from what shows it. -/
theorem Leaf.decode?_of_shows
    (leaf : Leaf)
    (held : leaf.Val)
    {slot : Option Json}
    (h : leaf.Shows held slot) :
    leaf.decode? slot = some held := by
  by_cases hLeaf : leaf = .textMap
  · subst hLeaf
    rcases h with rfl | ⟨rfl, rfl⟩
    · exact decodeTextMap?_encodeTextMap held
    · rfl
  · rw [(shows_iff hLeaf held slot).1 h]
    exact leaf.decode?_encode held

------------------------------------------------------------
-- Written Members
------------------------------------------------------------

namespace Fields

/- Only declared names are written. -/
theorem lookup_encode_eq_none :
    ∀ (fields : Fields) (record : fields.Rec) {name : String},
      name ∉ fields.wireNames →
        (fields.encode record).lookup name = none
  | .nil, _, _, _ => rfl
  | .field _ wire shape rest, (first, others), name, h => by
      simp only [wireNames, List.mem_cons, not_or] at h
      have hRest := rest.lookup_encode_eq_none others h.2
      have hName : (name == wire) = false := by simpa using h.1
      simp only [encode]
      split
      · simpa [List.lookup_cons, hName] using hRest
      · exact hRest
  | .wireOnly wire type rest, (first, others), name, h => by
      simp only [wireNames, List.mem_cons, not_or] at h
      have hRest := rest.lookup_encode_eq_none others h.2
      have hName : (name == wire) = false := by simpa using h.1
      simp only [encode]
      split
      · simpa [List.lookup_cons, hName] using hRest
      · exact hRest

/- A member in front of others, if it is there. -/
theorem lookup_cons_or
    {wire : String}
    {slot : Option Json}
    {others : List (String × Json)}
    (hAbsent : others.lookup wire = none)
    (name : String) :
    (match slot with
      | some first => (wire, first) :: others
      | none => others).lookup name =
      if name = wire then slot else others.lookup name := by
  by_cases hName : name = wire
  · subst hName
    cases slot <;> simp [hAbsent]
  · have hName' : (name == wire) = false := by
      simpa using hName
    cases slot <;> simp [List.lookup_cons, hName, hName']

/- What a field and those after it are written as. -/
theorem lookup_encode_field
    (key : String)
    {wire : String}
    {shape : Shape}
    {rest : Fields}
    (hWire : wire ∉ rest.wireNames)
    (first : shape.Val)
    (others : rest.Rec)
    (name : String) :
    ((Fields.field key wire shape rest).encode
        (first, others)).lookup name =
      if name = wire then shape.encode first
      else (rest.encode others).lookup name := by
  simp only [encode]
  exact lookup_cons_or
    (rest.lookup_encode_eq_none others hWire) name

theorem lookup_encode_wireOnly
    {wire : String}
    {type : Leaf}
    {rest : Fields}
    (hWire : wire ∉ rest.wireNames)
    (first : type.Val)
    (others : rest.Rec)
    (name : String) :
    ((Fields.wireOnly wire type rest).encode
        (first, others)).lookup name =
      if name = wire then type.encode first
      else (rest.encode others).lookup name := by
  simp only [encode]
  exact lookup_cons_or
    (rest.lookup_encode_eq_none others hWire) name

theorem nodup_cons
    {wire : String}
    (first : Json)
    {others : List (String × Json)}
    (hAbsent : others.lookup wire = none)
    (hOthers : (others.map fun member => member.1).Nodup) :
    (((wire, first) :: others).map fun member =>
      member.1).Nodup := by
  refine List.nodup_cons.2 ⟨?_, hOthers⟩
  intro hMember
  rcases List.mem_map.1 hMember with ⟨member, hIn, rfl⟩
  rw [Keyed.lookup_of_mem hOthers hIn] at hAbsent
  cases hAbsent

/- No name is written twice. -/
theorem nodup_encode :
    ∀ (fields : Fields) (record : fields.Rec),
      fields.isWellFormed = true →
        ((fields.encode record).map fun member =>
          member.1).Nodup
  | .nil, _, _ => List.nodup_nil
  | .field _ wire shape rest, (first, others), hWell => by
      have hParts := isWellFormed_field_iff.1 hWell
      have hRest := rest.nodup_encode others hParts.2.2.2
      simp only [encode]
      split
      · exact nodup_cons _
          (rest.lookup_encode_eq_none others hParts.2.1) hRest
      · exact hRest
  | .wireOnly wire type rest, (first, others), hWell => by
      have hParts := isWellFormed_wireOnly_iff.1 hWell
      have hRest := rest.nodup_encode others hParts.2.2
      simp only [encode]
      split
      · exact nodup_cons _
          (rest.lookup_encode_eq_none others hParts.1) hRest
      · exact hRest

/- What the canonical form of a written record holds. -/
theorem lookup_canonicalMembers_encode
    {fields : Fields}
    (hWell : fields.isWellFormed = true)
    (record : fields.Rec)
    (name : String) :
    (Json.canonicalMembers (fields.encode record)).lookup
        name =
      ((fields.encode record).lookup name).map
        Json.canonical :=
  Json.lookup_canonicalMembers _
    (fields.nodup_encode record hWell) name

end Fields

------------------------------------------------------------
-- Written Records
------------------------------------------------------------

/- What a leaf is written as is its own canonical form. -/
theorem Leaf.map_canonical_encode
    (leaf : Leaf)
    (held : leaf.Val) :
    (leaf.encode held).map Json.canonical =
      leaf.encode held := by
  cases hJson : leaf.encode held with
  | none => rfl
  | some json =>
      rw [Option.map_some, Json.canonical_eq_self json
        (leaf.isCanonical_encode held hJson)]

theorem Need.map_canonical_encode
    (need : Need)
    (held : need.Val) :
    (need.encode held).map Json.canonical =
      need.encode held := by
  cases hJson : need.encode held with
  | none => rfl
  | some json =>
      rw [Option.map_some, Json.canonical_eq_self json
        (need.isCanonical_encode held hJson)]

namespace Fields

/- An object holds at the declared names what a record is
   written as. -/
def Writes :
    (fields : Fields) →
      fields.Rec → List (String × Json) → Prop
  | .nil, _, _ => True
  | .field _ wire shape rest, (first, others), members =>
      members.lookup wire = shape.slot first ∧
        rest.Writes others members
  | .wireOnly wire type rest, (first, others), members =>
      members.lookup wire = type.encode first ∧
        rest.Writes others members

theorem writes_of_lookup :
    ∀ (fields : Fields) (record : fields.Rec)
      (members : List (String × Json)),
      fields.isWellFormed = true →
        (∀ name, name ∈ fields.wireNames →
          members.lookup name =
            ((fields.encode record).lookup name).map
              Json.canonical) →
          fields.Writes record members
  | .nil, _, _, _, _ => trivial
  | .field key wire shape rest, (first, others), members,
      hWell, hMembers => by
      have hParts := isWellFormed_field_iff.1 hWell
      have hRead :=
        lookup_encode_field key hParts.2.1 first others
      constructor
      · have hFirst := hMembers wire List.mem_cons_self
        rw [hRead, if_pos rfl] at hFirst
        exact hFirst
      · refine rest.writes_of_lookup others members
          hParts.2.2.2 ?_
        intro name hName
        have hNe : name ≠ wire := fun hEq =>
          hParts.2.1 (hEq ▸ hName)
        rw [hMembers name (List.mem_cons_of_mem _ hName),
          hRead, if_neg hNe]
  | .wireOnly wire type rest, (first, others), members, hWell,
      hMembers => by
      have hParts := isWellFormed_wireOnly_iff.1 hWell
      have hRead :=
        lookup_encode_wireOnly hParts.1 first others
      constructor
      · have hFirst := hMembers wire List.mem_cons_self
        rw [hRead, if_pos rfl, type.map_canonical_encode]
          at hFirst
        exact hFirst
      · refine rest.writes_of_lookup others members
          hParts.2.2 ?_
        intro name hName
        have hNe : name ≠ wire := fun hEq =>
          hParts.1 (hEq ▸ hName)
        rw [hMembers name (List.mem_cons_of_mem _ hName),
          hRead, if_neg hNe]

/- The canonical form of a written record holds it. -/
theorem writes_encode
    (fields : Fields)
    (record : fields.Rec)
    (hWell : fields.isWellFormed = true) :
    fields.Writes record
      (Json.canonicalMembers (fields.encode record)) :=
  fields.writes_of_lookup record _ hWell fun name _ =>
    lookup_canonicalMembers_encode hWell record name

end Fields

/- The canonical form of members is an object. -/
theorem showsObject_canonicalMembers
    {shows : List (String × Json) → Prop}
    {members : List (String × Json)}
    (hShows : shows (Json.canonicalMembers members)) :
    ShowsObject shows
      ((some (Json.obj members)).map Json.canonical) := by
  have hCanonical := Json.isCanonical_canonicalMembers members
  refine ⟨_, ?_, hCanonical.sorted, hShows⟩
  rw [Option.map_some, Json.canonical]

mutual

/- The canonical form of what is written shows the value. -/
theorem Shape.shows_encode :
    ∀ (shape : Shape) (held : shape.Val),
      shape.isWellFormed = true →
        shape.Shows held (shape.slot held)
  | .leaf type, held, _ => by
      simp only [Shape.slot, Shape.encode, Shape.Shows,
        type.map_canonical_encode held]
      exact type.shows_encode held
  | .value need, held, _ => by
      simp only [Shape.slot, Shape.encode, Shape.Shows,
        need.map_canonical_encode held]
  | .block fields, (held : Option fields.Rec), hWell => by
      cases held with
      | none => rfl
      | some record =>
          exact showsObject_canonicalMembers
            (fields.shows_of_writes record _ hWell
              (fields.writes_encode record hWell))
  | .blocks fields, _, _ => by
      simp only [Shape.Shows]
  | .blockMap fields, _, _ => by
      simp only [Shape.Shows]
  | .part fields, record, hWell => by
      have hFields :=
        (Shape.isWellFormed_part_iff.1 hWell).1
      exact showsObject_canonicalMembers
        (fields.shows_of_writes record _ hFields
          (fields.writes_encode record hFields))
  | .observed fields, (held : Option fields.Rec), hWell => by
      have hFields :=
        (Shape.isWellFormed_observed_iff.1 hWell).1
      cases held with
      | none => rfl
      | some record =>
          exact showsObject_canonicalMembers
            (fields.shows_of_writes record _ hFields
              (fields.writes_encode record hFields))

/- An object that holds a written record shows it. -/
theorem Fields.shows_of_writes :
    ∀ (fields : Fields) (record : fields.Rec)
      (members : List (String × Json)),
      fields.isWellFormed = true →
        fields.Writes record members →
          fields.Shows record members
  | .nil, _, _, _, _ => trivial
  | .field _ _ shape rest, (first, others), members, hWell,
      hWrites => by
      have hParts := Fields.isWellFormed_field_iff.1 hWell
      have hFirst := shape.shows_encode first hParts.2.2.1
      rw [← hWrites.1] at hFirst
      exact ⟨hFirst, rest.shows_of_writes others members
        hParts.2.2.2 hWrites.2⟩
  | .wireOnly _ type rest, (first, others), members, hWell,
      hWrites => by
      have hParts := Fields.isWellFormed_wireOnly_iff.1 hWell
      have hFirst := type.shows_encode first
      rw [← hWrites.1] at hFirst
      exact ⟨hFirst, rest.shows_of_writes others members
        hParts.2.2 hWrites.2⟩

end

/- The canonical form of a written record shows it. -/
theorem Fields.shows_encode
    (fields : Fields)
    (record : fields.Rec)
    (hWell : fields.isWellFormed = true) :
    fields.Shows record
      (Json.canonicalMembers (fields.encode record)) :=
  fields.shows_of_writes record _ hWell
    (fields.writes_encode record hWell)

------------------------------------------------------------
-- Read Members
------------------------------------------------------------

namespace Fields

/- Each field of a record is read from the member of its
   name. -/
def Decodes :
    (fields : Fields) →
      fields.Rec → List (String × Json) → Prop
  | .nil, _, _ => True
  | .field _ wire shape rest, (first, others), members =>
      shape.decode? (members.lookup wire) = some first ∧
        rest.Decodes others members
  | .wireOnly wire type rest, (first, others), members =>
      type.decode? (members.lookup wire) = some first ∧
        rest.Decodes others members

/- A record is read from members that do not repeat when each
   of its fields is. -/
theorem decodeObject?_eq_some_iff_of_nodup
    {members : List (String × Json)}
    (hNodup : (members.map fun member => member.1).Nodup) :
    ∀ (fields : Fields) (record : fields.Rec),
      fields.decodeObject? members = some record ↔
        fields.Decodes record members
  | .nil, _ => iff_of_true rfl trivial
  | .field _ wire shape rest, (first, others) => by
      have hRest := decodeObject?_eq_some_iff_of_nodup hNodup rest
      simp only [decodeObject?, Keyed.unique?_of_nodup hNodup, Decodes,
        ← hRest, Option.bind_eq_bind, Option.bind_some]
      constructor
      · intro h
        rcases Option.bind_eq_some_iff.1 h with
          ⟨found, hFound, h⟩
        rcases Option.bind_eq_some_iff.1 h with
          ⟨tail, hTail, h⟩
        cases h
        exact ⟨hFound, hTail⟩
      · rintro ⟨hFirst, hOthers⟩
        rw [hFirst, hOthers]
        rfl
  | .wireOnly wire type rest, (first, others) => by
      have hRest := decodeObject?_eq_some_iff_of_nodup hNodup rest
      simp only [decodeObject?, Keyed.unique?_of_nodup hNodup, Decodes,
        ← hRest, Option.bind_eq_bind, Option.bind_some]
      constructor
      · intro h
        rcases Option.bind_eq_some_iff.1 h with
          ⟨found, hFound, h⟩
        rcases Option.bind_eq_some_iff.1 h with
          ⟨tail, hTail, h⟩
        cases h
        exact ⟨hFound, hTail⟩
      · rintro ⟨hFirst, hOthers⟩
        rw [hFirst, hOthers]
        rfl

/- A record is read from members in order when each of its
   fields is. -/
theorem decodeObject?_eq_some_iff
    {members : List (String × Json)}
    (hSorted : Keyed.Sorted members)
    (fields : Fields)
    (record : fields.Rec) :
    fields.decodeObject? members = some record ↔
      fields.Decodes record members :=
  decodeObject?_eq_some_iff_of_nodup hSorted.nodup fields record

/- Only members of declared names are read. -/
theorem Decodes.congr :
    ∀ {fields : Fields} {record : fields.Rec}
      {left right : List (String × Json)},
      fields.Decodes record left →
      (∀ name, name ∈ fields.wireNames →
        right.lookup name = left.lookup name) →
        fields.Decodes record right
  | .nil, _, _, _, _, _ => trivial
  | .field _ _ _ _, (_, _), _, _, h, hSame => by
      rcases List.forall_mem_cons.1 hSame with ⟨hFirst, hRest⟩
      refine ⟨?_, Decodes.congr h.2 hRest⟩
      rw [hFirst]
      exact h.1
  | .wireOnly _ _ _, (_, _), _, _, h, hSame => by
      rcases List.forall_mem_cons.1 hSame with ⟨hFirst, hRest⟩
      refine ⟨?_, Decodes.congr h.2 hRest⟩
      rw [hFirst]
      exact h.1

end Fields

------------------------------------------------------------
-- Records Read Back
------------------------------------------------------------

/- How a block is read from an object. -/
theorem Shape.decode?_block
    (fields : Fields)
    (members : List (String × Json)) :
    (Shape.block fields).decode? (some (.obj members)) =
      (fields.decodeObject? members).map some :=
  rfl

theorem Shape.decode?_observed
    (fields : Fields)
    (members : List (String × Json)) :
    (Shape.observed fields).decode? (some (.obj members)) =
      (fields.decodeObject? members).map some :=
  rfl

/- Records that are written as objects are read one by
   one. -/
theorem Shape.mapM_decodeBlock?
    (fields : Fields)
    (write : fields.Rec → List (String × Json))
    {items : List fields.Rec}
    (hItems :
      ∀ record, record ∈ items →
        fields.decodeObject? (write record) = some record) :
    (items.map fun record => Json.obj (write record)).mapM
        (decodeBlock? fields.decodeObject?
          fields.decodeArray?) =
      some items := by
  have hRead :
      (items.map fun record => Json.obj (write record)).mapM
          (decodeBlock? fields.decodeObject?
            fields.decodeArray?) =
        some (items.map id) :=
    Result.mapM_map_eq_some items hItems
  rwa [List.map_id] at hRead

/- Records of a list are read one by one. -/
theorem Shape.decode?_blocks
    (fields : Fields)
    {items : List fields.Rec}
    (hItems :
      ∀ record, record ∈ items →
        fields.decodeObject?
            (Json.canonicalMembers (fields.encode record)) =
          some record) :
    (Shape.blocks fields).decode?
        ((Shape.blocks fields).slot items) =
      some items := by
  cases items with
  | nil => rfl
  | cons item rest =>
      have hRead := Shape.mapM_decodeBlock? fields _ hItems
      have hCanonical :
          Json.canonicalItems
              ((item :: rest).map fun record =>
                .obj (fields.encode record)) =
            (item :: rest).map fun record =>
              Json.obj (Json.canonicalMembers
                (fields.encode record)) := by
        rw [Json.canonicalItems_eq_map, List.map_map]
        rfl
      rw [← hCanonical] at hRead
      exact hRead

/- The entries of a map are read one by one. -/
theorem Shape.mapM_decodeEntry?
    (fields : Fields)
    (write : fields.Rec → List (String × Json))
    {entries : List (String × fields.Rec)}
    (hItems :
      ∀ entry, entry ∈ entries →
        fields.decodeObject? (write entry.2) =
          some entry.2) :
    (Keyed.mapValues (fun record => Json.obj (write record))
        entries).mapM
        (fun (member : String × Json) =>
          (decodeBlock? fields.decodeObject?
            fields.decodeArray? member.2).map fun record =>
              (member.1, record)) =
      some entries := by
  have hRead :
      (entries.map fun entry =>
          (entry.1, Json.obj (write entry.2))).mapM
        (fun (member : String × Json) =>
          (decodeBlock? fields.decodeObject?
            fields.decodeArray? member.2).map fun record =>
              (member.1, record)) =
        some (entries.map id) := by
    apply Result.mapM_map_eq_some
    intro entry hEntry
    simp only [decodeBlock?, hItems entry hEntry,
      Option.map_some]
    rfl
  rwa [List.map_id] at hRead

/- The object that a map with entries is written as. -/
theorem Shape.encode_blockMap
    (fields : Fields)
    {map : SortedMap fields.Rec}
    (hEntries : ¬map.isEmpty) :
    (Shape.blockMap fields).encode map =
      some (.obj (Keyed.mapValues
        (fun record => Json.obj (fields.encode record))
        map.entries)) := by
  simp only [Shape.encode, hEntries]
  rfl

/- Records of a map are read one by one. -/
theorem Shape.decode?_blockMap
    (fields : Fields)
    {map : SortedMap fields.Rec}
    (hItems :
      ∀ entry, entry ∈ map.entries →
        fields.decodeObject?
            (Json.canonicalMembers (fields.encode entry.2)) =
          some entry.2) :
    (Shape.blockMap fields).decode?
        ((Shape.blockMap fields).slot map) =
      some map := by
  by_cases hEmpty : map.isEmpty
  · rw [Leaf.eq_empty_of_isEmpty hEmpty]
    rfl
  · have hRead := Shape.mapM_decodeEntry? fields
      (fun record =>
        Json.canonicalMembers (fields.encode record)) hItems
    have hCanonical :
        Json.canonicalMembers
            (Keyed.mapValues
              (fun record => Json.obj (fields.encode record))
              map.entries) =
          Keyed.mapValues
            (fun record => Json.obj (Json.canonicalMembers
              (fields.encode record)))
            map.entries := by
      rw [Json.canonicalMembers_of_sorted
        (map.sorted.mapValues _), Keyed.mapValues_mapValues]
      rfl
    have hSlot := congrArg (Option.map Json.canonical)
      (Shape.encode_blockMap fields hEmpty)
    rw [Option.map_some, Json.canonical, hCanonical] at hSlot
    change (Shape.blockMap fields).slot map = _ at hSlot
    rw [hSlot]
    change Option.map SortedMap.ofList (List.mapM _ _) = _
    rw [hRead, Option.map_some, Leaf.ofList_entries]

mutual

/- A value is read from what shows it. -/
theorem Shape.decode?_of_shows :
    ∀ (shape : Shape) (held : shape.Val) (slot : Option Json),
      shape.isWellFormed = true → shape.Shows held slot →
        shape.decode? slot = some held
  | .leaf type, held, slot, _, h => type.decode?_of_shows held h
  | .value need, held, slot, _, h => by
      simp only [Shape.Shows] at h
      rw [h]
      exact need.decode?_encode held
  | .block fields, (held : Option fields.Rec), slot, hWell,
      h => by
      cases held with
      | none =>
          simp only [Shape.Shows] at h
          rw [h]
          rfl
      | some record =>
          rcases h with ⟨members, rfl, hSorted, hShows⟩
          have hRead :=
            (Fields.decodeObject?_eq_some_iff hSorted fields
              record).2 (fields.decodes_of_shows record members
                hWell hShows)
          rw [Shape.decode?_block, hRead]
          rfl
  | .blocks fields, (items : List fields.Rec), slot, hWell,
      h => by
      simp only [Shape.Shows] at h
      rw [h]
      apply Shape.decode?_blocks
      intro record _
      exact (Fields.decodeObject?_eq_some_iff
        (Json.isCanonical_canonicalMembers _).sorted fields
        record).2 (fields.decodes_of_shows record _ hWell
          (fields.shows_encode record hWell))
  | .blockMap fields, (map : SortedMap fields.Rec), slot,
      hWell, h => by
      simp only [Shape.Shows] at h
      rw [h]
      apply Shape.decode?_blockMap
      intro entry _
      exact (Fields.decodeObject?_eq_some_iff
        (Json.isCanonical_canonicalMembers _).sorted fields
        entry.2).2 (fields.decodes_of_shows entry.2 _ hWell
          (fields.shows_encode entry.2 hWell))
  | .part fields, record, slot, hWell, h => by
      have hFields :=
        (Shape.isWellFormed_part_iff.1 hWell).1
      rcases h with ⟨members, rfl, hSorted, hShows⟩
      exact (Fields.decodeObject?_eq_some_iff hSorted fields
        record).2 (fields.decodes_of_shows record members
          hFields hShows)
  | .observed fields, (held : Option fields.Rec), slot, hWell,
      h => by
      have hFields :=
        (Shape.isWellFormed_observed_iff.1 hWell).1
      cases held with
      | none =>
          simp only [Shape.Shows] at h
          rw [h]
          rfl
      | some record =>
          rcases h with ⟨members, rfl, hSorted, hShows⟩
          have hRead :=
            (Fields.decodeObject?_eq_some_iff hSorted fields
              record).2 (fields.decodes_of_shows record members
                hFields hShows)
          rw [Shape.decode?_observed, hRead]
          rfl

/- The fields of a record are read from members that show
   it. -/
theorem Fields.decodes_of_shows :
    ∀ (fields : Fields) (record : fields.Rec)
      (members : List (String × Json)),
      fields.isWellFormed = true →
        fields.Shows record members →
          fields.Decodes record members
  | .nil, _, _, _, _ => trivial
  | .field _ wire shape rest, (first, others), members, hWell,
      h => by
      have hParts := Fields.isWellFormed_field_iff.1 hWell
      exact
        ⟨shape.decode?_of_shows first (members.lookup wire)
            hParts.2.2.1 h.1,
          rest.decodes_of_shows others members hParts.2.2.2
            h.2⟩
  | .wireOnly wire type rest, (first, others), members, hWell,
      h => by
      have hParts := Fields.isWellFormed_wireOnly_iff.1 hWell
      exact
        ⟨type.decode?_of_shows first h.1,
          rest.decodes_of_shows others members hParts.2.2 h.2⟩

end

end Converge
