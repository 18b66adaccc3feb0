import Converge.Proofs.Command.Steps
import Converge.Proofs.Json.Layout
import Converge.Proofs.Time.Duration
import Converge.Proofs.Tree.JsonForm

/-
  The file of a tracked object is read back as that object.

  The trees of the object stand one level below the root of
  the file, so they may nest as far as readers follow less
  one level. Where they do, every part of the record is found
  under its name and read back by itself.

  Key definitions:
    * `TrackingFile.IsStorable`: trees that readers follow

  Main declarations:
    * `TrackingFile.read?_text`: the text of a file
    * `Job.tracking_save`: what one command saves is what the
      next one finds
-/

namespace Converge

open Json (Fits)

/- A map that may be stored: no key repeats, and it nests as
   far as readers follow below the root of a file. -/
def ConfigMap.IsStorable (entries : ConfigMap) : Prop :=
  (Tree.map entries).Nests (Json.maxDepth - 1)

/- A tracked object whose trees may be stored. -/
def Tracked.IsStorable (tracked : Tracked) : Prop :=
  ConfigMap.IsStorable tracked.config ∧
    ∀ state, tracked.state = some state →
      ConfigMap.IsStorable state

namespace Timeouts

/- Both durations are read back from their record. -/
theorem ofRecord?_toJson (timeouts : Timeouts) :
    ofRecord? Json.recordFormat (some timeouts.toJson) =
      some timeouts := by
  have hFields :
      Json.recordFormat.section? ["create", "delete"]
          (some timeouts.toJson) =
        some
          [some (.str timeouts.create.text),
            some (.str timeouts.delete.text)] := rfl
  have hRead :
      ∀ (duration other : Duration),
        RecordFormat.fieldOr
            (fun written =>
              (Json.recordFormat.text? written).bind
                Duration.read?)
            other (some (.str duration.text)) =
          some duration := by
    intro duration other
    exact Duration.read?_text duration
  simp only [ofRecord?, hFields, hRead, Option.bind_eq_bind,
    Option.bind_some, Option.pure_def]

end Timeouts

namespace Tracked

variable {tracked : Tracked}

/- The written parts of a tracked object, by their names. -/
theorem record?_members
    (tracked : Tracked)
    (word : String) :
    (Json.obj
        (("kind", .str word) :: tracked.members)).record?
          ["id", "config", "state", "timeouts"] =
      some
        [some (.str tracked.id),
          some (Tree.mapToJson tracked.config),
          tracked.state.map Tree.mapToJson,
          some tracked.timeouts.toJson] := by
  obtain ⟨id, config, state, timeouts⟩ := tracked
  cases state <;> rfl

/- A tracked object is read back from its record, whatever
   kind stands in front. -/
theorem ofJson?_members
    (hStorable : tracked.IsStorable)
    (word : String) :
    ofJson?
        (.obj (("kind", .str word) :: tracked.members)) =
      some tracked := by
  have hConfig :
      map? (some (Tree.mapToJson tracked.config)) =
        some tracked.config :=
    Tree.mapOfJson?_mapToJson hStorable.1.1
  have hTimeouts :=
    Timeouts.ofRecord?_toJson tracked.timeouts
  simp only [ofJson?, record?_members, Json.asString?,
    hConfig, hTimeouts, Option.bind_eq_bind, Option.bind_some,
    Option.pure_def]
  obtain ⟨id, config, state, timeouts⟩ := tracked
  cases state with
  | none => rfl
  | some state =>
      have hState := Tree.mapOfJson?_mapToJson
        (hStorable.2 state rfl).1
      rw [Tree.mapToJson] at hState
      simp only [Option.map_some, Tree.mapToJson, hState]
      rfl

/- The record of a tracked object nests one level deeper than
   its trees. -/
theorem fits_members
    (hStorable : tracked.IsStorable)
    (word : String) :
    Fits Json.maxDepth
      (.obj (("kind", .str word) :: tracked.members)) := by
  have hMap :
      ∀ entries : ConfigMap, ConfigMap.IsStorable entries →
        Fits 126 (Tree.mapToJson entries) :=
    fun entries hEntries =>
      Tree.fits_mapToJson hEntries.2
  have hTimeouts : Fits 126 tracked.timeouts.toJson := by
    rw [Timeouts.toJson, Fits]
    simp [Fits]
  have hConfig := hMap _ hStorable.1
  rw [Json.maxDepth, Fits, members]
  cases hState : tracked.state with
  | none =>
      simp only [List.nil_append, List.forall_mem_cons]
      exact ⟨trivial, trivial, hConfig, hTimeouts, nofun⟩
  | some state =>
      have hMore := hMap _ (hStorable.2 state hState)
      simp only [List.singleton_append, List.forall_mem_cons]
      exact ⟨trivial, trivial, hConfig, hMore, hTimeouts,
        nofun⟩

end Tracked

theorem Kind.ofWord?_word (kind : Kind) :
    ofWord? kind.word = some kind := by
  cases kind <;> rfl

namespace TrackingFile

theorem unique?_kind (file : TrackingFile) :
    Keyed.unique? "kind"
        (("kind", .str file.kind.word) ::
          file.tracked.members) =
      some (some (.str file.kind.word)) := by
  obtain ⟨kind, id, config, state, timeouts⟩ := file
  cases state <;> rfl

/- A file is read back from its text. -/
theorem read?_text
    {file : TrackingFile}
    (hStorable : file.tracked.IsStorable) :
    read? file.text = some file := by
  have hBlank : Json.Lexeme.Blank "\n".toList := by
    intro c hC
    cases List.mem_singleton.1 hC
    rfl
  have hNested :
      Json.readNested? file.text = some file.toJson :=
    Json.readWithin?_pretty
      (Tracked.fits_members hStorable _) hBlank
  have hTracked :=
    Tracked.ofJson?_members hStorable file.kind.word
  rw [read?, hNested, Option.bind_some, toJson]
  simp only [ofJson?, unique?_kind, hTracked, Json.asString?,
    Kind.ofWord?_word, Option.bind_eq_bind, Option.bind_some,
    Option.pure_def]

end TrackingFile

/- A file that is written is found again. -/
theorem Files.tracking_write
    {file : TrackingFile}
    (hStorable : file.tracked.IsStorable)
    (path : String)
    (files : Files) :
    (files.write path file.text).tracking path =
      .ok file := by
  have hContent :
      (files.write path file.text).find? path =
        some file.text :=
    Keyed.lookup_put_self _ _ _
  rw [tracking, findTracking, hContent]
  simp only [TrackingFile.read?_text hStorable]
  rfl

namespace Job

variable {σ : Type}

/- What one command saves is what the next one finds: the
   same kind, identity, trees with their entries in the same
   order, and the same timeouts. -/
theorem tracking_save
    {file : TrackingFile}
    (hConfig :
      (Tree.map file.tracked.config).HasDistinctKeys)
    (hState :
      ∀ state, file.tracked.state = some state →
        (Tree.map state).HasDistinctKeys)
    (hConfigDepth :
      (Tree.map file.tracked.config).depth ≤ 126)
    (hStateDepth :
      ∀ state, file.tracked.state = some state →
        (Tree.map state).depth ≤ 126)
    (path : String)
    (desk : Desk)
    (session : Session σ) :
    let saved : Desk :=
      { desk with files := desk.files.write path file.text }
    saved.files.find? path = some file.text ∧
      exec
          (do
            save path file
            tracking path)
          desk session =
        ((.ok file, saved), session) := by
  intro saved
  have hStorable : file.tracked.IsStorable :=
    ⟨⟨hConfig, hConfigDepth⟩,
      fun state hSome =>
        ⟨hState state hSome, hStateDepth state hSome⟩⟩
  have hFile : saved.files.tracking path = .ok file :=
    Files.tracking_write hStorable path desk.files
  refine ⟨Keyed.lookup_put_self _ _ _, ?_⟩
  rw [exec_bind, exec_save]
  simp only [exec_tracking]
  exact congrArg (fun found => ((found, saved), session)) hFile

/- A run whose state is known to be empty, with the least
   integer, a text of control characters, and a duration of
   many units. -/
def sampleFile : TrackingFile :=
  ⟨.taskRun,
    ⟨"ci/build",
      [ ("spec",
          .map
            [ ("least", .int Int64.minValue),
              ("text", .str "\"\\\n\x01null"),
              ("items", .list [.null, .bool true]) ]),
        ("metadata", .map []) ],
      some [],
      ⟨⟨34279386001002003, by decide⟩, .zero⟩⟩⟩

theorem tracking_save_sample :
    let saved : Desk :=
      ⟨Files.write "state.json" sampleFile.text [], []⟩
    saved.files.find? "state.json" = some sampleFile.text ∧
      exec
          (do
            save "state.json" sampleFile
            tracking "state.json")
          ⟨[], []⟩ (⟨0, ()⟩ : Session Unit) =
        ((.ok sampleFile, saved), ⟨0, ()⟩) := by
  have hState :
      ∀ state, sampleFile.tracked.state = some state →
        state = [] := by
    intro state hSome
    cases hSome
    rfl
  have hEmpty : (Tree.map []).HasDistinctKeys :=
    ⟨List.nodup_nil, trivial⟩
  have hConfig :
      (Tree.map
        sampleFile.tracked.config).HasDistinctKeys := by
    simp [sampleFile, Tree.HasDistinctKeys,
      Tree.EntriesHaveDistinctKeys,
      Tree.ItemsHaveDistinctKeys]
  exact tracking_save hConfig
    (fun state hSome => hState state hSome ▸ hEmpty)
    (by decide)
    (fun state hSome => by rw [hState state hSome]; decide)
    "state.json" ⟨[], []⟩ ⟨0, ()⟩

end Job

end Converge
