import Converge.Proofs.Diff.Record
import Converge.Proofs.Diff.Roots

/-
  Objects survive their wire form, and patches of it.

  The wire form of an object is that of its declaration with
  the names of its type in front. A document is read member
  by member, so a document that differs from another in the
  mutable parts alone is read as the same object with other
  labels, annotations and specification.

  Key definitions:
    * `Kind.declaration`: the names of a type, then the fields
    * `Object.adopt`: an object with the mutable parts of
      another
    * `Object.ShowsMutable`: what the mutable parts hold

  Main declarations:
    * `Object.decode?_toJson`: an object is read back
    * `Object.decode?_of_sameElsewhere`
    * `Object.diff_reaches_target`: a patch reaches the wanted
      object
-/

namespace Converge

------------------------------------------------------------
-- Declarations of Documents
------------------------------------------------------------

namespace Kind

/- The members of a document: the names of its type, and
   what the kind declares. -/
def declaration (kind : Kind) : Fields :=
  .wireOnly "apiVersion" .text <|
  .wireOnly "kind" .text <|
  kind.fields

theorem isWellFormed_declaration (kind : Kind) :
    kind.declaration.isWellFormed = true := by
  cases kind <;> decide +kernel

/- The specification is one part of a kind's declaration. -/
theorem isWellFormed_specPart (kind : Kind) :
    (Shape.part kind.spec).isWellFormed = true :=
  (Fields.isWellFormed_field_iff.1
    (Fields.isWellFormed_field_iff.1
      kind.isWellFormed_fields).2.2.2).2.2.1

end Kind

namespace Object

variable {kind : Kind}

/- An object as the record of a document. -/
def toRecord (object : Object kind) : kind.declaration.Rec :=
  (object.apiVersion, object.typeName, object.content)

/- A name of a type is written like a declared text. -/
theorem encode_wireOnly_text
    (name content : String)
    (rest : Fields)
    (record : rest.Rec) :
    (Fields.wireOnly name .text rest).encode
        (content, record) =
      encodeText name content ++ rest.encode record := by
  by_cases hEmpty : content = ""
  · simp [Fields.encode, encodeText, Leaf.encode, hEmpty]
  · simp [Fields.encode, encodeText, Leaf.encode, hEmpty]

theorem encode_eq (object : Object kind) :
    object.encode =
      .obj (kind.declaration.encode object.toRecord) := by
  have hType := encode_wireOnly_text "kind" object.typeName
    kind.fields object.content
  have hVersion := encode_wireOnly_text "apiVersion"
    object.apiVersion (.wireOnly "kind" .text kind.fields)
    (object.typeName, object.content)
  rw [hType, ← List.append_assoc] at hVersion
  exact congrArg Json.obj hVersion.symm

theorem decodeText?_eq
    (name : String)
    (members : List (String × Json)) :
    decodeText? name members =
      (Keyed.unique? name members).bind
        (Leaf.decode? .text) := by
  simp only [decodeText?]
  cases Keyed.unique? name members with
  | none => rfl
  | some slot => cases slot <;> rfl

theorem decode?_obj
    (members : List (String × Json)) :
    decode? kind (.obj members) =
      (kind.declaration.decodeObject? members).map
        fun record => ⟨record.1, record.2.1, record.2.2⟩ := by
  simp only [decode?, decodeText?_eq, Kind.declaration,
    Fields.decodeObject?, Option.bind_eq_bind]
  cases Keyed.unique? "apiVersion" members with
  | none => rfl
  | some versionSlot =>
      simp only [Option.bind_some]
      cases Leaf.decode? .text versionSlot with
      | none => rfl
      | some apiVersion =>
          simp only [Option.bind_some]
          cases Keyed.unique? "kind" members with
          | none => rfl
          | some typeSlot =>
              simp only [Option.bind_some]
              cases Leaf.decode? .text typeSlot with
              | none => rfl
              | some typeName =>
                  simp only [Option.bind_some]
                  cases kind.fields.decodeObject? members <;>
                    rfl

/- A document with members in order is read as an object when
   each of its members is. -/
theorem decode?_obj_eq_some_iff
    {members : List (String × Json)}
    (hSorted : Keyed.Sorted members)
    (object : Object kind) :
    decode? kind (.obj members) = some object ↔
      kind.declaration.Decodes object.toRecord members := by
  rw [decode?_obj, ← Fields.decodeObject?_eq_some_iff hSorted]
  constructor
  · intro h
    rcases Option.map_eq_some_iff.1 h with ⟨record, hRecord, rfl⟩
    exact hRecord
  · intro h
    rw [h]
    rfl

/- An object is read back from its wire form. -/
theorem decode?_toJson (object : Object kind) :
    decode? kind object.toJson = some object := by
  have hWell := kind.isWellFormed_declaration
  have hCanonical := Json.isCanonical_canonicalMembers
    (kind.declaration.encode object.toRecord)
  rw [toJson, encode_eq, Json.canonical,
    decode?_obj_eq_some_iff hCanonical.sorted]
  exact kind.declaration.decodes_of_shows _ _ hWell
    (kind.declaration.shows_encode object.toRecord hWell)

------------------------------------------------------------
-- Mutable Parts
------------------------------------------------------------

/- The mutable parts of a document hold those of an object. -/
structure ShowsMutable
    (object : Object kind)
    (document : Json) : Prop where
  labels :
    Leaf.Shows .textMap object.metadata.labels
      (document.at? ["metadata", "labels"])
  annotations :
    Leaf.Shows .textMap object.metadata.annotations
      (document.at? ["metadata", "annotations"])
  spec :
    (Shape.part kind.spec).Shows object.spec
      (document.at? ["spec"])

/- An object with the labels, the annotations and the
   specification of another. -/
def adopt (wanted stored : Object kind) : Object kind :=
  ⟨stored.apiVersion, stored.typeName,
    ((stored.metadata.name, stored.metadata.generateName,
        stored.metadata.namespaceName,
        wanted.metadata.labels, wanted.metadata.annotations,
        stored.metadata.2.2.2.2.2),
      wanted.spec, stored.content.2.2)⟩

theorem isCanonical_toJson (object : Object kind) :
    object.toJson.IsCanonical :=
  Json.isCanonical_canonical object.encode

/- The wire form of an object as members in order. -/
theorem toJson_eq (object : Object kind) :
    object.toJson =
      .obj (Json.canonicalMembers
        (kind.declaration.encode object.toRecord)) := by
  rw [toJson, encode_eq, Json.canonical]

/- The wire form of an object has metadata, and holds its
   mutable parts. -/
theorem showsMutable_toJson (object : Object kind) :
    object.toJson.HasMetadata ∧
      object.ShowsMutable object.toJson := by
  have hShows := kind.declaration.shows_encode
    object.toRecord kind.isWellFormed_declaration
  rw [toJson_eq]
  rcases hShows with ⟨_, _, ⟨info, hInfo, _, hMetadata⟩,
    hSpec, _⟩
  have hMember :
      (Json.obj (Json.canonicalMembers
          (kind.declaration.encode object.toRecord))).member?
        "metadata" = some (.obj info) := hInfo
  have hInside := Json.at?_metadata hMember
  rcases hMetadata with
    ⟨_, _, _, hLabels, hAnnotations, _⟩
  refine ⟨⟨info, hMember⟩, ⟨?_, ?_, ?_⟩⟩
  · rw [hInside]
    exact hLabels
  · rw [hInside]
    exact hAnnotations
  · rw [Json.at?_singleton]
    exact hSpec

/- What a document has besides the metadata and the
   specification is not among the observations. -/
theorem ne_of_mem_observations
    {name : String}
    (hName : name ∈ kind.observations.wireNames) :
    name ≠ "metadata" ∧ name ≠ "spec" := by
  cases kind <;>
    simp_all [Kind.observations, Fields.wireNames]

/- The metadata that a document is read with. -/
theorem decodes_metadata
    {document : Json}
    {object : Object kind}
    {info : List (String × Json)}
    (hDocument : document.IsCanonical)
    (hInfo : document.member? "metadata" = some (.obj info))
    (hObject : decode? kind document = some object) :
    Catalog.metadata.Decodes object.metadata info := by
  cases document with
  | obj members =>
      have hLookup :
          members.lookup "metadata" = some (.obj info) := hInfo
      have hInfoSorted := (hDocument.member hInfo).sorted
      rcases (decode?_obj_eq_some_iff hDocument.sorted
        object).1 hObject with ⟨_, _, hMetadata, _⟩
      rw [hLookup] at hMetadata
      exact (Fields.decodeObject?_eq_some_iff hInfoSorted
        Catalog.metadata object.metadata).1 hMetadata
  | _ => cases hInfo

/- A document that differs from another in its metadata and
   its specification is read as the same object but for
   these. -/
theorem decode?_of_same_members
    {document after : Json}
    {object : Object kind}
    {info : List (String × Json)}
    {afterMetadata : ObjectMeta}
    {afterSpec : kind.spec.Rec}
    (hDocument : document.IsCanonical)
    (hAfter : after.IsCanonical)
    (hSame :
      ∀ key, key ≠ "metadata" → key ≠ "spec" →
        after.member? key = document.member? key)
    (hObject : decode? kind document = some object)
    (hInfo : after.member? "metadata" = some (.obj info))
    (hMetadata : Catalog.metadata.Decodes afterMetadata info)
    (hSpec :
      (Shape.part kind.spec).decode? (after.member? "spec") =
        some afterSpec) :
    decode? kind after =
      some ⟨object.apiVersion, object.typeName,
        (afterMetadata, afterSpec, object.content.2.2)⟩ := by
  cases document with
  | obj members =>
      cases after with
      | obj afterMembers =>
          have hLookup :
              afterMembers.lookup "metadata" =
                some (.obj info) := hInfo
          have hInfoSorted := (hAfter.member hInfo).sorted
          have hKept :
              ∀ key, key ≠ "metadata" → key ≠ "spec" →
                afterMembers.lookup key =
                  members.lookup key := hSame
          rcases (decode?_obj_eq_some_iff hDocument.sorted
            object).1 hObject with ⟨hVersion, hType, _, _, hRest⟩
          apply (decode?_obj_eq_some_iff hAfter.sorted _).2
          refine ⟨?_, ?_, ?_, hSpec, hRest.congr ?_⟩
          · rw [hKept "apiVersion" (by decide) (by decide)]
            exact hVersion
          · rw [hKept "kind" (by decide) (by decide)]
            exact hType
          · rw [hLookup]
            exact (Fields.decodeObject?_eq_some_iff hInfoSorted
              Catalog.metadata afterMetadata).2 hMetadata
          · intro name hName
            have hNe := ne_of_mem_observations hName
            exact hKept name hNe.1 hNe.2
      | _ => cases hInfo
  | _ => cases hObject

/- A document that differs from another in the mutable parts
   is read as the same object with other such parts. -/
theorem decode?_of_sameElsewhere
    {document after : Json}
    {wanted stored : Object kind}
    (hDocument : document.IsCanonical)
    (hAfter : after.IsCanonical)
    (hMetadata : document.HasMetadata)
    (hAfterMetadata : after.HasMetadata)
    (hElsewhere : Diff.SameElsewhere document after)
    (hStored : decode? kind document = some stored)
    (hMutable : wanted.ShowsMutable after) :
    decode? kind after = some (wanted.adopt stored) := by
  rcases hMetadata with ⟨info, hInfo⟩
  rcases hAfterMetadata with ⟨afterInfo, hAfterInfo⟩
  have hInside := Json.at?_metadata hInfo
  have hAfterInside := Json.at?_metadata hAfterInfo
  have hKept :
      ∀ key, key ≠ "labels" → key ≠ "annotations" →
        afterInfo.lookup key = info.lookup key := by
    intro key hNotLabels hNotAnnotations
    rw [← hInside, ← hAfterInside]
    exact hElsewhere.metadata key hNotLabels hNotAnnotations
  have hLabels := hMutable.labels
  have hAnnotations := hMutable.annotations
  have hSpec := hMutable.spec
  rw [hAfterInside] at hLabels hAnnotations
  rw [Json.at?_singleton] at hSpec
  have hRead := decodes_metadata hDocument hInfo hStored
  have hReadAfter :
      Catalog.metadata.Decodes (wanted.adopt stored).metadata
        afterInfo := by
    rcases hRead with ⟨hName, hGenerate, hNamespace, _, _, hRest⟩
    refine ⟨?_, ?_, ?_,
      Leaf.decode?_of_shows .textMap _ hLabels,
      Leaf.decode?_of_shows .textMap _ hAnnotations,
      hRest.congr ?_⟩
    · rw [hKept "name" (by decide) (by decide)]
      exact hName
    · rw [hKept "generateName" (by decide) (by decide)]
      exact hGenerate
    · rw [hKept "namespace" (by decide) (by decide)]
      exact hNamespace
    · intro name hName
      apply hKept
      · rintro rfl
        exact absurd hName (by decide)
      · rintro rfl
        exact absurd hName (by decide)
  exact decode?_of_same_members hDocument hAfter
    hElsewhere.members hStored hAfterInfo hReadAfter
    ((Shape.part kind.spec).decode?_of_shows wanted.spec _
      kind.isWellFormed_specPart hSpec)

/- What the mutable parts hold depends on these alone. -/
theorem ShowsMutable.congr
    {object : Object kind}
    {left right : Json}
    (hLeft : object.ShowsMutable left)
    (hRoots :
      ∀ root, root ∈ Diff.mutableRoots →
        right.at? root = left.at? root) :
    object.ShowsMutable right := by
  refine ⟨?_, ?_, ?_⟩
  · rw [hRoots _ (by simp [Diff.mutableRoots])]
    exact hLeft.labels
  · rw [hRoots _ (by simp [Diff.mutableRoots])]
    exact hLeft.annotations
  · rw [hRoots _ (by simp [Diff.mutableRoots])]
    exact hLeft.spec

/- The edits from one value to another, sent as a document
   and applied to the one, lead to what has the mutable parts
   of the other and is the same elsewhere. So the document
   that a client sends makes of one object the same object
   with the labels, the annotations and the specification of
   the wanted one. -/
theorem diff_reaches_target :
    (∀ current previous : Json,
      current.IsCanonical → previous.IsCanonical →
        previous.HasMetadata →
          ∃ patch after,
            Patch.ofJson?
                (PatchDocument.ofEdits
                  (Diff.edits current previous)).toJson =
              some patch ∧
            Patch.apply patch previous = .ok after ∧
            after.IsCanonical ∧ after.HasMetadata ∧
            Diff.SameElsewhere previous after ∧
            ∀ root, root ∈ Diff.mutableRoots →
              after.at? root = current.at? root) ∧
      ∀ (kind : Kind) (wanted stored : Object kind),
        ∃ patch after,
          Patch.ofJson? (wanted.diff stored).toJson =
            some patch ∧
          Patch.apply patch stored.toJson = .ok after ∧
          decode? kind after = some (wanted.adopt stored) := by
  constructor
  · intro current previous hCurrent hPrevious hMetadata
    exact Diff.apply_edits_reaches hCurrent hPrevious hMetadata
  · intro kind wanted stored
    have hStored := stored.isCanonical_toJson
    have hMetadata := stored.showsMutable_toJson.1
    rcases Diff.apply_edits_reaches wanted.isCanonical_toJson
        hStored hMetadata with
      ⟨patch, after, hRead, hApply, hAfter, hAfterMetadata,
        hElsewhere, hRoots⟩
    have hMutable :=
      wanted.showsMutable_toJson.2.congr hRoots
    exact ⟨patch, after, hRead, hApply,
      decode?_of_sameElsewhere hStored hAfter hMetadata
        hAfterMetadata hElsewhere stored.decode?_toJson
        hMutable⟩

/- A label whose key needs escaping, and a specification that
   is no object. -/
def escapedTarget : Json :=
  .obj
    [ ("metadata",
        .obj [("labels", .obj [("a/b~c", .str "new")])]),
      ("spec", .str "whole") ]

/- Labels at that key and at the empty one, and a
   specification that is an object. -/
def escapedSource : Json :=
  .obj
    [ ("metadata",
        .obj
          [ ("labels",
              .obj
                [("", .str "old"), ("a/b~c", .str "old")]),
            ("name", .str "build") ]),
      ("spec", .obj [("steps", .arr [])]) ]

/- The labels, the annotations and the specification are
   replaced, and the name stays. -/
theorem diff_reaches_target_escaped :
    escapedSource.HasMetadata ∧
      ∃ patch after,
        Patch.ofJson?
            (PatchDocument.ofEdits
              (Diff.edits escapedTarget escapedSource)).toJson =
          some patch ∧
        Patch.apply patch escapedSource = .ok after ∧
        after.at? ["metadata", "labels"] =
          some (.obj [("a/b~c", .str "new")]) ∧
        after.at? ["metadata", "name"] =
          some (.str "build") ∧
        after.at? ["spec"] = some (.str "whole") := by
  have hTarget : escapedTarget.IsCanonical :=
    Json.isCanonical_canonical escapedTarget
  have hSource : escapedSource.IsCanonical :=
    Json.isCanonical_canonical escapedSource
  have hMetadata : escapedSource.HasMetadata := ⟨_, rfl⟩
  rcases diff_reaches_target.1 escapedTarget escapedSource
      hTarget hSource hMetadata with
    ⟨patch, after, hRead, hApply, _, _, hElsewhere, hRoots⟩
  refine ⟨hMetadata, patch, after, hRead, hApply, ?_, ?_, ?_⟩
  · rw [hRoots _ (.head _)]
    rfl
  · rw [hElsewhere.metadata _ (by decide) (by decide)]
    rfl
  · rw [hRoots _ (.tail _ (.tail _ (.head _)))]
    rfl

end Object

end Converge
