import Converge.Object.Kind
import Converge.Proofs.Web.Address
import Converge.Store.Remote

/-
  What requests to a server name.

  The path of an object has one segment for each of its
  parts if its namespace and its name are plain, and only
  then. Plain identities are told apart by their requests,
  and none of them is taken for all objects of a namespace.

  Key definitions:
    * `ObjectId.IsPlain`: identities that keep their parts
    * `RemoteStore.IsObjectRequest`: requests of calls about
      an object

  Main declarations:
    * `RemoteStore.segments_eq`: how paths on a server start
    * `RemoteStore.objectRequest_spells_iff`: what the
      requests for an object name
-/

namespace Converge

namespace ObjectId

/- Identities of which both sides are plain. -/
def IsPlain (id : ObjectId) : Prop :=
  Address.IsPlain id.namespaceName ∧ Address.IsPlain id.name

instance (id : ObjectId) : Decidable id.IsPlain :=
  inferInstanceAs (Decidable (_ ∧ _))

/- What counts of an identity. -/
def kept (id : ObjectId) : ObjectId :=
  ⟨Address.kept id.namespaceName, Address.kept id.name⟩

end ObjectId

namespace RemoteStore

open Address

/- The requests of the calls about an object. -/
inductive IsObjectRequest
    (remote : RemoteStore)
    (coordinate : Coordinate) :
    HttpRequest → Prop where
  | get :
      IsObjectRequest remote coordinate
        (remote.objectRequest .get coordinate none none)
  | patch (document : String) :
      IsObjectRequest remote coordinate
        (remote.objectRequest .patch coordinate
          (some patchType) (some document))
  | delete :
      IsObjectRequest remote coordinate
        (remote.objectRequest .delete coordinate none none)

------------------------------------------------------------
-- Paths on a Server
------------------------------------------------------------

/- The segments that all paths to objects of a kind have in
   common, after those of the server. -/
def front (kind : Kind) : List String :=
  ["apis", "tekton.dev", kind.version, "namespaces"]

/- The parts after them. -/
def rest (kind : Kind) (id : ObjectId) : List String :=
  [id.namespaceName, kind.plural, id.name]

theorem front_isOwn (kind : Kind) :
    ∀ part ∈ front kind, IsOwn part := by
  cases kind <;> decide

theorem plural_isOwn (kind : Kind) : IsOwn kind.plural := by
  cases kind <;> decide

theorem plural_injective :
    ∀ {kind other : Kind},
      kind.plural = other.plural → kind = other := by
  intro kind other
  cases kind <;> cases other <;> decide

theorem two_le_front (kind : Kind) :
    2 ≤ (front kind).length := by
  simp [front]

theorem parts_eq
    (kind : Kind)
    (namespaceName : String)
    (name : Option String) :
    parts kind.resourceType namespaceName name =
      front kind ++
        ([namespaceName, kind.plural] ++ name.toList) := by
  have hGroup : kind.resourceType.group ≠ "" := by
    cases kind <;> decide
  rw [parts, if_neg hGroup]
  rfl

/- Paths start with the segments of the server, of which a
   lone empty one gives way. -/
theorem segments_eq
    (remote : RemoteStore)
    (kind : Kind)
    (namespaceName : String)
    (name : Option String) :
    remote.segments kind.resourceType namespaceName name =
      opened remote.root ++
        pushAll (front kind)
          ([namespaceName, kind.plural] ++ name.toList) := by
  have hFront :
      pushAll remote.root (front kind) =
        opened remote.root ++ front kind :=
    pushAll_own (front_isOwn kind) remote.root
  have hRest :=
    pushAll_append (two_le_front kind) (opened remote.root)
      ([namespaceName, kind.plural] ++ name.toList)
  rw [← hRest, ← hFront, segments, parts_eq, pushAll,
    List.foldl_append]
  rfl

/- The server's address and its segments. -/
theorem connect_ok
    {options : RemoteOptions}
    {remote : RemoteStore}
    (hConnect : connect options = .ok remote) :
    ∃ path,
      Address.parse options.endpoint = .ok remote.address ∧
        remote.address.segments? = some path ∧
        remote.root = withoutEmptyEnd path := by
  unfold connect at hConnect
  split at hConnect
  · cases hConnect
  · rename_i address hParse
    split at hConnect
    · cases hConnect
    · rename_i path hPath
      cases hConnect
      exact ⟨path, hParse, hPath, rfl⟩

theorem IsObjectRequest.target_eq
    {remote : RemoteStore}
    {kind : Kind}
    {id : ObjectId}
    {request : HttpRequest}
    (hRequest :
      IsObjectRequest remote (kind.coordinate id) request) :
    request.target =
      remote.address.target
        (remote.segments kind.resourceType id.namespaceName
          (some id.name)) := by
  cases hRequest <;> rfl

------------------------------------------------------------
-- Segments after those of the Server
------------------------------------------------------------

theorem length_front (kind : Kind) :
    (front kind).length = 4 :=
  rfl

theorem front_allSingle (kind : Kind) :
    AllSingle (front kind) :=
  fun part hMem => (front_isOwn kind part hMem).spells.1

/- Paths on one server are told apart by what follows the
   segments of the server. -/
theorem pushAll_eq_of_target
    {remote : RemoteStore}
    {kind other : Kind}
    {namespaceName otherNamespace : String}
    {name otherName : Option String}
    (hSame :
      remote.address.target
          (remote.segments kind.resourceType namespaceName
            name) =
        remote.address.target
          (remote.segments other.resourceType otherNamespace
            otherName)) :
    pushAll (front kind)
        ([namespaceName, kind.plural] ++ name.toList) =
      pushAll (front other)
        ([otherNamespace, other.plural] ++
          otherName.toList) := by
  have hText := target_injective hSame
  rw [segments_eq, segments_eq, pathText_append,
    pathText_append] at hText
  exact pathText_injective
    (pushAll_allSingle (two_le_front kind)
      (front_allSingle kind) _)
    (pushAll_allSingle (two_le_front other)
      (front_allSingle other) _)
    ((String.append_right_inj _).1 hText)

/- Plain identities have one segment for each of their
   parts. -/
theorem spellAll_of_isPlain
    {id : ObjectId}
    (hPlain : id.IsPlain)
    (kind : Kind) :
    ∃ added,
      pushAll (front kind) (rest kind id) =
          front kind ++ added ∧
        SpellAll added (rest kind id) := by
  apply (pushAll_spellAll_iff (two_le_front kind) _).2
  simp only [rest, List.forall_mem_cons, List.not_mem_nil,
    false_implies, implies_true, and_true]
  exact ⟨hPlain.1, (plural_isOwn kind).1, hPlain.2⟩

------------------------------------------------------------
-- What the Path of an Object Spells
------------------------------------------------------------

/- Segments that stand for all parts, after those of the
   server, are the ones that were pushed; a lone empty
   segment of the server is missing. -/
theorem pushAll_of_spellAll
    {remote : RemoteStore}
    {kind : Kind}
    {id : ObjectId}
    {segments : List String}
    (hSpells :
      SpellAll segments (front kind ++ rest kind id))
    (hSame :
      remote.address.target
          (remote.segments kind.resourceType
            id.namespaceName (some id.name)) =
        remote.address.target (remote.root ++ segments)) :
    remote.root ≠ [""] ∧
      pushAll (front kind) (rest kind id) = segments := by
  have hLength : segments.length = 7 := hSpells.length_eq
  have hSingle : AllSingle segments := hSpells.allSingle
  have hPushed :
      AllSingle (pushAll (front kind) (rest kind id)) :=
    pushAll_allSingle (two_le_front kind)
      (front_allSingle kind) _
  have hBound :=
    length_pushAll_le (two_le_front kind) (rest kind id)
  have hCount : (rest kind id).length = 3 := rfl
  rw [length_front, hCount] at hBound
  have hText := target_injective hSame
  rw [segments_eq] at hText
  by_cases hRoot : remote.root = [""]
  · have hFirst : AllSingle ("" :: segments) :=
      List.forall_mem_cons.2 ⟨by simp, hSingle⟩
    rw [hRoot] at hText
    have hPath := pathText_injective hPushed hFirst hText
    rw [hPath, List.length_cons, hLength] at hBound
    omega
  · rw [opened, if_neg hRoot, pathText_append,
      pathText_append] at hText
    exact ⟨hRoot, pathText_injective hPushed hSingle
      ((String.append_right_inj _).1 hText)⟩

/- The path of an object has a segment for each part just
   when its identity is plain. -/
theorem segments_spell_iff
    (remote : RemoteStore)
    (kind : Kind)
    (id : ObjectId) :
    (∃ segments,
        SpellAll segments (front kind ++ rest kind id) ∧
          remote.address.target
              (remote.segments kind.resourceType
                id.namespaceName (some id.name)) =
            remote.address.target
              (remote.root ++ segments)) ↔
      remote.root ≠ [""] ∧ id.IsPlain := by
  constructor
  · rintro ⟨segments, hSpells, hSame⟩
    obtain ⟨hRoot, hPushed⟩ :=
      pushAll_of_spellAll hSpells hSame
    have hLength :
        (pushAll (front kind) (rest kind id)).length =
          (front kind).length + (rest kind id).length := by
      rw [hPushed, hSpells.length_eq, List.length_append]
    obtain ⟨added, hAdded⟩ :=
      exists_pushAll_of_length (two_le_front kind) _ hLength
    rw [← hPushed, hAdded] at hSpells
    have hPlain :=
      (pushAll_spellAll_iff (two_le_front kind) _).1
        ⟨added, hAdded, hSpells.2.2.2.2⟩
    exact ⟨hRoot, hPlain _ (by simp [rest]),
      hPlain _ (by simp [rest])⟩
  · rintro ⟨hRoot, hPlain⟩
    obtain ⟨added, hAdded, hSpells⟩ :=
      spellAll_of_isPlain hPlain kind
    refine ⟨front kind ++ added, ?_, ?_⟩
    · have hOwn := front_isOwn kind
      exact ⟨(hOwn _ (by simp [front])).spells,
        (hOwn _ (by simp [front])).spells,
        (hOwn _ (by simp [front])).spells,
        (hOwn _ (by simp [front])).spells, hSpells⟩
    · rw [segments_eq, opened, if_neg hRoot, ← hAdded]
      rfl

------------------------------------------------------------
-- Telling Objects Apart
------------------------------------------------------------

/- No two plain identities have the same path. -/
theorem eq_of_target
    {remote : RemoteStore}
    {kind other : Kind}
    {id otherId : ObjectId}
    (hPlain : id.IsPlain)
    (hOther : otherId.IsPlain)
    (hSame :
      remote.address.target
          (remote.segments kind.resourceType
            id.namespaceName (some id.name)) =
        remote.address.target
          (remote.segments other.resourceType
            otherId.namespaceName (some otherId.name))) :
    kind = other ∧ id = otherId := by
  obtain ⟨added, hAdded, hSpells⟩ :=
    spellAll_of_isPlain hPlain kind
  obtain ⟨others, hOthers, hOtherSpells⟩ :=
    spellAll_of_isPlain hOther other
  have hPushed :
      pushAll (front kind) (rest kind id) =
        pushAll (front other) (rest other otherId) :=
    pushAll_eq_of_target hSame
  rw [hAdded, hOthers] at hPushed
  have hLast := (List.append_inj hPushed rfl).2
  rw [hLast] at hSpells
  have hParts := hSpells.unique hOtherSpells
  simp only [rest, List.cons.injEq] at hParts
  obtain ⟨hNamespace, hPlural, hName, -⟩ := hParts
  refine ⟨plural_injective hPlural, ?_⟩
  cases id
  cases otherId
  cases hNamespace
  cases hName
  rfl

/- The path of a plain identity is longer than any path to
   the objects of a namespace. -/
theorem target_ne_collection
    {id : ObjectId}
    (hPlain : id.IsPlain)
    (remote : RemoteStore)
    (kind other : Kind)
    (namespaceName : String) :
    remote.address.target
        (remote.segments kind.resourceType
          id.namespaceName (some id.name)) ≠
      remote.address.target
        (remote.segments other.resourceType namespaceName
          none) := by
  intro hSame
  obtain ⟨added, hAdded, hSpells⟩ :=
    spellAll_of_isPlain hPlain kind
  have hPushed :
      pushAll (front kind) (rest kind id) =
        pushAll (front other)
          [namespaceName, other.plural] :=
    pushAll_eq_of_target hSame
  have hBound := length_pushAll_le (two_le_front other)
    [namespaceName, other.plural]
  have hCount : added.length = 3 := hSpells.length_eq
  rw [← hPushed, hAdded, List.length_append, hCount,
    length_front, length_front] at hBound
  simp at hBound

/- A name that moves leaves the path to all objects of the
   namespace. -/
theorem segments_of_moves
    {name : String}
    (hMoves : name = "." ∨ name = "..")
    (remote : RemoteStore)
    (type : ResourceType)
    (namespaceName : String) :
    remote.segments type namespaceName (some name) =
      remote.segments type namespaceName none := by
  have hPush (segments : List String) :
      push segments name = segments := by
    rcases hMoves with rfl | rfl
    · exact push_dot segments
    · exact push_dots segments
  simp [segments, parts, pushAll, hPush]

/- What does not count makes no difference. -/
theorem segments_kept
    {id : ObjectId}
    (hPlain : id.kept.IsPlain)
    (remote : RemoteStore)
    (type : ResourceType) :
    remote.segments type id.namespaceName (some id.name) =
      remote.segments type id.kept.namespaceName
        (some id.kept.name) := by
  simp only [segments, parts, pushAll, List.foldl_append,
    List.foldl_cons, List.foldl_nil, Option.toList_some,
    push_kept hPlain.1, push_kept hPlain.2, ObjectId.kept]

------------------------------------------------------------
-- Requests
------------------------------------------------------------

/-
  The requests about objects, of a store at any endpoint that
  can be extended.

  A request has the segments of the endpoint and then one for
  each part of its object just when the identity is plain and
  the endpoint is not the empty segment under a root. Plain
  identities are then told apart by their requests, and none
  of them is taken for all objects of a namespace. Names that
  move are, and characters that do not count make no
  difference.
-/
theorem objectRequest_spells_iff
    {options : RemoteOptions}
    {remote : RemoteStore}
    (hConnect : connect options = .ok remote) :
    ∃ address path,
      Address.parse options.endpoint = .ok address ∧
      address.segments? = some path ∧
      (∀ (kind : Kind) (id : ObjectId) request,
        IsObjectRequest remote (kind.coordinate id)
            request →
          request.server = address ∧
          ((∃ segments,
              SpellAll segments
                ["apis", "tekton.dev", kind.version,
                  "namespaces", id.namespaceName,
                  kind.plural, id.name] ∧
              request.target =
                address.target
                  (withoutEmptyEnd path ++ segments)) ↔
            withoutEmptyEnd path ≠ [""] ∧ id.IsPlain)) ∧
      (∀ (kind otherKind : Kind) (id otherId : ObjectId)
          request other,
        IsObjectRequest remote (kind.coordinate id)
            request →
          IsObjectRequest remote
              (otherKind.coordinate otherId) other →
          id.IsPlain →
          otherId.IsPlain →
          request.target = other.target →
          kind = otherKind ∧ id = otherId) ∧
      (∀ (kind otherKind : Kind) (id : ObjectId) request
          namespaceName body,
        IsObjectRequest remote (kind.coordinate id)
            request →
          id.IsPlain →
          request.target ≠
            (remote.createRequest otherKind.resourceType
              namespaceName body).target) ∧
      (∀ (kind : Kind) (id : ObjectId) request body,
        IsObjectRequest remote (kind.coordinate id)
            request →
          id.name = "." ∨ id.name = ".." →
          request.target =
            (remote.createRequest kind.resourceType
              id.namespaceName body).target) ∧
      (∀ (kind : Kind) (id : ObjectId) request other,
        IsObjectRequest remote (kind.coordinate id)
            request →
          IsObjectRequest remote (kind.coordinate id.kept)
            other →
          id.kept.IsPlain →
          request.target = other.target) := by
  obtain ⟨path, hParse, hPath, hRoot⟩ := connect_ok hConnect
  refine ⟨remote.address, path, hParse, hPath,
    ?spells, ?apart, ?single, ?moves, ?skipped⟩
  case spells =>
    intro kind id request hRequest
    refine ⟨by cases hRequest <;> rfl, ?_⟩
    rw [hRequest.target_eq, ← hRoot]
    exact segments_spell_iff remote kind id
  case apart =>
    intro kind otherKind id otherId request other
      hRequest hOther hPlain hOtherPlain hSame
    rw [hRequest.target_eq, hOther.target_eq] at hSame
    exact eq_of_target hPlain hOtherPlain hSame
  case single =>
    intro kind otherKind id request namespaceName body
      hRequest hPlain
    rw [hRequest.target_eq]
    exact target_ne_collection hPlain remote kind otherKind
      namespaceName
  case moves =>
    intro kind id request body hRequest hMoves
    rw [hRequest.target_eq, segments_of_moves hMoves]
    rfl
  case skipped =>
    intro kind id request other hRequest hOther hPlain
    rw [hRequest.target_eq, hOther.target_eq,
      segments_kept hPlain]

/- Two dots are read as a name. What would delete that object
   deletes all objects of its namespace, while any other name
   stays a segment of its own. -/
theorem objectRequest_spells_iff_dots :
    ∃ remote id plain,
      connect
          ⟨"http://127.0.0.1:8080/k8s/?a=1", none, false,
            .zero⟩ =
        .ok remote ∧
      ObjectId.parse "ci/.." = .ok id ∧
      ObjectId.parse "ci/..?é" = .ok plain ∧
      (remote.objectRequest .delete
          (Kind.task.coordinate id) none none).target =
        "/k8s/apis/tekton.dev/v1/namespaces/ci/tasks?a=1" ∧
      (∀ body,
        (remote.objectRequest .delete
            (Kind.task.coordinate id) none none).target =
          (remote.createRequest Kind.task.resourceType "ci"
            body).target) ∧
      (∀ body,
        (remote.objectRequest .delete
            (Kind.task.coordinate plain) none none).target ≠
          (remote.createRequest Kind.task.resourceType "ci"
            body).target) := by
  have hConnect :
      connect
          ⟨"http://127.0.0.1:8080/k8s/?a=1", none, false,
            .zero⟩ =
        .ok
          ⟨⟨"http", some "127.0.0.1", some 8080,
              .segments ["k8s", ""], some "a=1"⟩,
            ["k8s"], none, .zero⟩ :=
    rfl
  obtain ⟨_, _, -, -, -, -, hSingle, hMoves, -⟩ :=
    objectRequest_spells_iff hConnect
  refine ⟨_, ⟨"ci", ".."⟩, ⟨"ci", "..?é"⟩, hConnect, rfl, rfl,
    by decide +kernel, fun body => ?_, fun body => ?_⟩
  · exact hMoves .task ⟨"ci", ".."⟩ _ body .delete (.inr rfl)
  · exact hSingle .task .task ⟨"ci", "..?é"⟩ _ "ci" body
      .delete (by decide +kernel)

end RemoteStore

end Converge
