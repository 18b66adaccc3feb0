import Converge.Proofs.Json.Record
import Converge.Proofs.Schema.LeafForm
import Converge.Proofs.Schema.Nesting
import Converge.Proofs.Schema.NullFree

/-
  Patch documents survive their text.

  A client reads a document as records of a verb, a path and
  a value, a store as instructions. An entry whose value is
  null is read as one without a value; every other entry is
  read as it was, whatever stands in its path. A document of
  edits has no null, so both read all of it, entry by entry.

  Key definitions:
    * `PatchEntry.withoutNull`: an entry without a null
    * `PatchEntry.received`: an entry as it is read
    * `Instruction.entry?`: an instruction as an entry

  Main declarations:
    * `PatchDocument.read?_text_eq`: a document is read back
    * `PatchDocument.survives_text`
-/

namespace Converge

open Json (Fits IsCanonical NullFree)

------------------------------------------------------------
-- Entries
------------------------------------------------------------

namespace PatchEntry

/- An entry whose value, if it is null, is left out. -/
def withoutNull (entry : PatchEntry) : PatchEntry :=
  { entry with value := entry.value.filter (· ≠ .null) }

/- An entry as it is read: without null, and with its value
   in canonical form. -/
def received (entry : PatchEntry) : PatchEntry :=
  { entry with
    value := entry.withoutNull.value.map Json.canonical }

/- Only null is left out. -/
theorem withoutNull_eq_self
    {entry : PatchEntry}
    (hEntry : entry.Puts NullFree) :
    entry.withoutNull = entry := by
  obtain ⟨verb, path, slot⟩ := entry
  cases slot with
  | none => rfl
  | some value =>
      have hValue := (hEntry value rfl).ne_null
      simp [withoutNull, hValue]

/- Canonical values are received as they are. -/
theorem received_eq_withoutNull
    {entry : PatchEntry}
    (hEntry : entry.Puts IsCanonical) :
    entry.received = entry.withoutNull := by
  obtain ⟨verb, path, slot⟩ := entry
  cases slot with
  | none => rfl
  | some value =>
      have hValue := value.canonical_eq_self (hEntry value rfl)
      simp only [received, withoutNull, Option.filter_some]
      split
      · rw [Option.map_some, hValue]
      · rfl

/- The fields of an entry in its wire form. -/
theorem byName?_toJson (entry : PatchEntry) :
    ∃ members,
      entry.toJson = .obj members ∧
        Record.byName? ["op", "path", "value"] members =
          some
            [ some (.str entry.verb.val),
              some (.str entry.path),
              entry.value ] := by
  refine ⟨_, rfl, ?_⟩
  cases entry.value <;> rfl

/- A spelled entry is read as it is received. -/
theorem ofWritten?_of_value?
    {entry : PatchEntry}
    {spelled : Json.Written}
    (hSpelled :
      spelled.value? (maxDepth + 1) = some entry.toJson) :
    ofWritten? spelled = some entry.received := by
  rcases entry.byName?_toJson with ⟨members, hEq, hFields⟩
  rw [hEq] at hSpelled
  rcases Json.Written.exists_record? hSpelled hFields with
    ⟨found, hFound, hValues⟩
  simp only [List.map_cons, List.map_nil, Option.map_some,
    List.map_eq_cons_iff, List.map_eq_nil_iff,
    Option.map_eq_some_iff] at hValues
  rcases hValues with
    ⟨_, _, rfl, ⟨verb, rfl, hVerb⟩, _, _, rfl,
      ⟨path, rfl, hPath⟩, slot, _, rfl, hSlot, rfl⟩
  have hParse : Choice.parse? patchVerbs entry.verb.val =
      some entry.verb := Leaf.parse?_val entry.verb
  simp only [ofWritten?, hFound, hVerb, hPath,
    Option.bind_eq_bind, Option.bind_some, Choice.decode?,
    hParse, Json.asString?, Option.pure_def]
  cases slot with
  | none =>
      have hNone : entry.value = none := by
        simpa using hSlot.symm
      simp [received, withoutNull, hNone]
  | some value =>
      rcases Option.map_eq_some_iff.1 hSlot.symm with
        ⟨held, hHeld, hValue⟩
      simp [received, withoutNull, hHeld, ← hValue]

end PatchEntry

------------------------------------------------------------
-- Documents
------------------------------------------------------------

namespace PatchDocument

/- A document is read as its entries are received. -/
theorem read?_text_eq
    {document : PatchDocument}
    (hDocument : document.Puts (Fits PatchEntry.maxDepth)) :
    read? document.text =
      some (document.map PatchEntry.received) := by
  have hFits := fits_toJson hDocument
  rcases Json.exists_read?_of_split hFits
      (Json.split?_compact hFits) with
    ⟨spelled, hSpelled, hValue⟩
  rcases Json.Written.exists_items hValue with
    ⟨inner, rfl, hInner⟩
  rw [List.map_map] at hInner
  simp only [read?, text, hSpelled, Option.bind_eq_bind,
    Option.bind_some]
  exact Result.mapM_of_map_eq
    (fun _ _ hItem => PatchEntry.ofWritten?_of_value? hItem)
    hInner

/- Nothing is lost but the nulls, when all values are
   canonical. -/
theorem map_received
    {document : PatchDocument}
    (hDocument : document.Puts IsCanonical) :
    document.map PatchEntry.received =
      document.map PatchEntry.withoutNull :=
  List.map_congr_left fun entry hEntry =>
    PatchEntry.received_eq_withoutNull (hDocument entry hEntry)

end PatchDocument

------------------------------------------------------------
-- Documents of Edits
------------------------------------------------------------

/- The entry of an instruction that clients send: its verb,
   its written pointer and its value. -/
def Instruction.entry? : Instruction → Option PatchEntry
  | .add path value => some (.ofEdit ⟨path, .add value⟩)
  | .replace path value =>
      some (.ofEdit ⟨path, .replace value⟩)
  | .remove path => some (.ofEdit ⟨path, .remove⟩)
  | _ => none

/- The instruction of an edit has the entry of the edit. -/
theorem Edit.entry?_instruction (edit : Edit) :
    edit.instruction.entry? =
      some (PatchEntry.ofEdit edit) := by
  obtain ⟨path, change⟩ := edit
  cases change <;> rfl

namespace Object

variable {kind : Kind}

/- The document between two objects has values that the one
   object holds. -/
theorem puts_diff
    {holds : Json → Prop}
    (hHolds : Json.Inherited holds)
    {current : Object kind}
    (hCurrent : holds current.toJson)
    (previous : Object kind) :
    (current.diff previous).Puts holds := by
  intro entry hEntry
  rcases List.mem_map.1 hEntry with ⟨edit, hEdit, rfl⟩
  exact PatchEntry.puts_ofEdit
    (Diff.puts_of_mem_edits hHolds hCurrent previous.toJson
      hEdit)

/- The document between two objects is read back. -/
theorem read?_text_diff
    (current previous : Object kind) :
    PatchDocument.read? (current.diff previous).text =
      some (current.diff previous) := by
  have hFits := puts_diff (Json.inherited_fits _)
    current.fits_toJson previous
  have hCanonical := puts_diff Json.inherited_isCanonical
    current.isCanonical_toJson previous
  have hNullFree := puts_diff Json.inherited_nullFree
    current.nullFree_toJson previous
  have hKept :
      (current.diff previous).map PatchEntry.withoutNull =
        current.diff previous := by
    rw [List.map_congr_left fun entry hEntry =>
      PatchEntry.withoutNull_eq_self (hNullFree entry hEntry)]
    exact List.map_id _
  rw [PatchDocument.read?_text_eq hFits,
    PatchDocument.map_received hCanonical, hKept]

/- A store reads the document between two objects as
   instructions of the same entries. -/
theorem exists_read?_diff
    (current previous : Object kind) :
    ∃ patch,
      Patch.read? (current.diff previous).text = some patch ∧
        patch.map Instruction.entry? =
          (current.diff previous).map some := by
  refine ⟨_, current.read?_diff previous, ?_⟩
  rw [diff, PatchDocument.ofEdits, List.map_map, List.map_map]
  exact List.map_congr_left fun edit _ =>
    edit.entry?_instruction

end Object

/-
  A document is read back from its text whatever its paths
  are, if its values nest no deeper than 125 levels and have
  no floating point numbers. Values come back in canonical
  form, which is how untyped values are kept, and a null does
  not come back at all. So what is computed from two objects
  comes back unchanged, and a store that is sent it is asked
  for the same changes in the same order.
-/
theorem PatchDocument.survives_text :
    (∀ document : PatchDocument,
        document.Puts (Fits 125) →
          read? document.text =
              some (document.map PatchEntry.received) ∧
            (document.Puts IsCanonical →
              read? document.text =
                some (document.map PatchEntry.withoutNull))) ∧
      ∀ (kind : Kind) (current previous : Object kind),
        read? (current.diff previous).text =
            some (current.diff previous) ∧
          ∃ patch,
            Patch.read? (current.diff previous).text =
                some patch ∧
              patch.map Instruction.entry? =
                (current.diff previous).map some := by
  constructor
  · intro document hFits
    have hRead := read?_text_eq hFits
    refine ⟨hRead, fun hCanonical => ?_⟩
    rw [hRead, map_received hCanonical]
  · intro kind current previous
    exact ⟨current.read?_text_diff previous,
      current.exists_read?_diff previous⟩

/- A path may hold any character, and only a null that is a
   value by itself is lost. -/
theorem PatchDocument.survives_text_nulls :
    let flags : Json :=
      .obj
        [ ("a",
            .arr [.null, .ofInt64 3, .obj [("b", .null)]]) ]
    let path := "/spec/\"na~1me\"\\\n"
    let document : PatchDocument :=
      [ ⟨⟨"replace", by decide⟩, path, some flags⟩,
        ⟨⟨"add", by decide⟩, "x", some .null⟩,
        ⟨⟨"remove", by decide⟩, "", none⟩ ]
    document.Puts (Fits 125) ∧ document.Puts IsCanonical ∧
      read? document.text =
        some
          [ ⟨⟨"replace", by decide⟩, path, some flags⟩,
            ⟨⟨"add", by decide⟩, "x", none⟩,
            ⟨⟨"remove", by decide⟩, "", none⟩ ] := by
  intro flags path document
  have hFits : document.Puts (Fits 125) := by
    simp [document, flags, Puts, PatchEntry.Puts, Fits,
      Json.ofInt64, Number.ofInt64]
  have hCanonical : document.Puts IsCanonical := by
    simp [document, flags, Puts, PatchEntry.Puts, IsCanonical,
      Json.AreCanonical, Json.MembersAreCanonical,
      Keyed.Sorted, Json.ofInt64]
  have hRead :=
    (survives_text.1 document hFits).2 hCanonical
  refine ⟨hFits, hCanonical, ?_⟩
  rw [hRead]
  rfl

end Converge
