import Converge.Store.Memory

/-
  A store for rehearsals: it answers some calls by a script,
  leaves the others to a store in memory, and notes every
  call.

  Key definitions:
    * `ScriptedAnswer`: what a script says
    * `ScriptedStore`: script, memory and notes
    * `ScriptedStore.store`: the four calls
-/

namespace Converge

/- The four kinds of calls. -/
inductive StoreCall where
  | get
  | create
  | patch
  | delete
deriving DecidableEq

def StoreCall.text : StoreCall → String
  | get => "get"
  | create => "create"
  | patch => "patch"
  | delete => "delete"

/- What a script answers to a call. -/
inductive ScriptedAnswer where
  | missing
  | fault (fault : StoreError)
  | object (value : Json)

/- A call that was made. -/
structure CallNote where
  call : StoreCall
  moment : Moment
  target : String
  body : Option Json

/-
  The state of a rehearsal: the objects in memory, if there
  is a memory, the answers to each kind of call, the statuses
  that all objects get at some moments, and the calls so far,
  the latest first.
-/
structure ScriptedStore where
  memory : Option MemoryStore
  script : List (StoreCall × List ScriptedAnswer)
  events : List (Moment × Json)
  notes : List CallNote

namespace ScriptedStore

------------------------------------------------------------
-- Events
------------------------------------------------------------

/- Gives every object a status. -/
def setStatuses
    (memory : MemoryStore)
    (status : Json) :
    MemoryStore :=
  memory.coordinates.foldl
    (fun memory coordinate =>
      (MemoryStore.setStatus coordinate status memory).2)
    memory

/- Lets happen what is due at a moment. -/
def settle
    (now : Moment)
    (state : ScriptedStore) :
    ScriptedStore :=
  let due := state.events.filter fun event => event.1 ≤ now
  { state with
    memory :=
      state.memory.map fun memory =>
        (due.map Prod.snd).foldl setStatuses memory
    events := state.events.filter fun event => now < event.1 }

------------------------------------------------------------
-- Answers
------------------------------------------------------------

/- Lets the memory answer; without one, another answer is
   given. -/
def inMemory
    {α : Type}
    (calls : Calls MemoryStore StoreError α)
    (other : Except StoreError α) :
    Calls ScriptedStore StoreError α :=
  ExceptT.mk fun session =>
    let state := session.state.settle session.now
    match state.memory with
    | none => (other, ⟨session.now, state⟩)
    | some memory =>
        let (result, after) := calls.run ⟨session.now, memory⟩
        (result,
          ⟨after.now,
            { state with memory := some after.state }⟩)

/- What is left of some answers, the last of which is given
   for ever. -/
def following : List ScriptedAnswer → List ScriptedAnswer
  | _ :: next :: rest => next :: rest
  | answers => answers

/- The result of a scripted answer. -/
def resultOf
    (missing : StoreError) :
    ScriptedAnswer → Except StoreError Json
  | .missing => .error missing
  | .fault fault => .error fault
  | .object value => .ok value

/- Notes a call and answers it. -/
def answer
    (call : StoreCall)
    (target : String)
    (body : Option Json)
    (missing : StoreError)
    (calls : Calls MemoryStore StoreError Json)
    (other : Except StoreError Json) :
    Calls ScriptedStore StoreError Json := do
  let session : Session ScriptedStore ← get
  let now := session.now
  let settled := session.state.settle now
  let note : CallNote := ⟨call, now, target, body⟩
  let noted :=
    { settled with notes := note :: settled.notes }
  match (noted.script.lookup call).getD [] with
  | first :: rest =>
      let script :=
        Keyed.put call (following (first :: rest)) noted.script
      set
        ({ session with
          state := { noted with script := script } } :
            Session ScriptedStore)
      ExceptT.mk (pure (resultOf missing first))
  | [] =>
      set
        ({ session with state := noted } :
          Session ScriptedStore)
      inMemory calls other

/- A submitted object as a store without memory returns
   it. -/
def echoed
    (type : ResourceType)
    (namespaceName : String)
    (body : Json) :
    Json :=
  let given := (body.member? "metadata").filter Json.isObject
  let placed :=
    (given.getD (.obj [])).setMember "namespace"
      (.str namespaceName)
  let identified :=
    placed.setMember "uid" (.str ("uid-" ++ type.plural))
  body.setMember "metadata"
    (identified.setMember "resourceVersion" (.str "1"))

/- A patched object as a store without memory returns it. -/
def named (coordinate : Coordinate) : Json :=
  .obj
    [ ("metadata",
        .obj
          [ ("name", .str coordinate.name),
            ("namespace", .str coordinate.namespaceName) ]) ]

------------------------------------------------------------
-- As a Store
------------------------------------------------------------

/- The store of a rehearsal. -/
def store : Store ScriptedStore where
  name := "scripted"
  get coordinate :=
    let missing := StoreError.missing coordinate
    answer .get coordinate.text none missing
      (MemoryStore.store.get coordinate)
      (.error missing)
  create type namespaceName body :=
    answer .create (type.text ++ " " ++ namespaceName)
      (some body)
      (StoreError.missing ⟨type, namespaceName, ""⟩)
      (MemoryStore.store.create type namespaceName body)
      (.ok (echoed type namespaceName body))
  patch coordinate document :=
    answer .patch coordinate.text (some (.str document))
      (StoreError.missing coordinate)
      (MemoryStore.store.patch coordinate document)
      (.ok (named coordinate))
  delete coordinate := do
    let _ ←
      answer .delete coordinate.text none
        (StoreError.missing coordinate)
        (do
          MemoryStore.store.delete coordinate
          return .null)
        (.ok .null)

end ScriptedStore

end Converge
