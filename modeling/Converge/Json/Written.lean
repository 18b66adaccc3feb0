import Converge.Json.Lexeme

/-
  Values as a JSON text spells them.

  A spelled value may hold parts that denote nothing. Such
  parts do no harm where nobody asks for them, so they are
  kept until a value is asked for.

  Spelled values are read one lexical unit at a time. The
  reader keeps the containers that are still open, innermost
  first, and what may come next.

  Key definitions:
    * `Written`: a spelled value
    * `Written.read?`: what a text spells
    * `Written.value?`: the value that is spelled
-/

namespace Converge

namespace Json

/- A spelled value. A part without meaning is a scalar or a
   key that denotes nothing. -/
inductive Written where
  | null
  | bool (value : Bool)
  | num (number : Number)
  | str (text : String)
  | meaningless
  | arr (items : List Written)
  | obj (members : List (Option String × Written))

namespace Written

------------------------------------------------------------
-- Open Containers
------------------------------------------------------------

/- A container that waits for the value of an item or of a
   member. What it holds already is in reverse order. -/
inductive Frame where
  | array (items : List Written)
  | object
      (members : List (Option String × Written))
      (key : Option String)

/- What may come next. -/
inductive Await where
  | value
  | firstItem
  | afterItem (items : List Written)
  | firstKey
  | nextKey (members : List (Option String × Written))
  | colon
      (members : List (Option String × Written))
      (key : Option String)
  | afterMember (members : List (Option String × Written))
  | nothing (result : Written)

/- A reader between two lexical units. -/
structure Reader where
  frames : List Frame
  await : Await

namespace Reader

/- Before the first unit. -/
def initial : Reader :=
  ⟨[], .value⟩

/- Hands a complete value to the innermost container. -/
def complete
    (value : Written) :
    List Frame → Reader
  | [] => ⟨[], .nothing value⟩
  | .array items :: frames =>
      ⟨frames, .afterItem (value :: items)⟩
  | .object members key :: frames =>
      ⟨frames, .afterMember ((key, value) :: members)⟩

/- The key that a lexical unit is, if it is a string. -/
def key? : Lexeme → Option (Option String)
  | .token (.str text) => some (some (String.ofList text))
  | .brokenString => some none
  | _ => none

/- Reads the first unit of a value. -/
def startValue?
    (frames : List Frame) :
    Lexeme → Option Reader
  | .token .null => some (complete .null frames)
  | .token (.bool value) =>
      some (complete (.bool value) frames)
  | .token (.num number) =>
      some (complete (.num number) frames)
  | .token (.str text) =>
      some (complete (.str (String.ofList text)) frames)
  | .vastNumeral => some (complete .meaningless frames)
  | .brokenString => some (complete .meaningless frames)
  | .token .openArray => some ⟨frames, .firstItem⟩
  | .token .openObject => some ⟨frames, .firstKey⟩
  | _ => none

/- Reads one more unit. -/
def step?
    (reader : Reader)
    (unit : Lexeme) :
    Option Reader :=
  let frames := reader.frames
  match reader.await, unit with
  | .value, unit => startValue? frames unit
  | .firstItem, .token .closeArray =>
      some (complete (.arr []) frames)
  | .firstItem, unit =>
      startValue? (.array [] :: frames) unit
  | .afterItem items, .token .comma =>
      some ⟨.array items :: frames, .value⟩
  | .afterItem items, .token .closeArray =>
      some (complete (.arr items.reverse) frames)
  | .firstKey, .token .closeObject =>
      some (complete (.obj []) frames)
  | .firstKey, unit =>
      (key? unit).map fun key => ⟨frames, .colon [] key⟩
  | .nextKey members, unit =>
      (key? unit).map fun key => ⟨frames, .colon members key⟩
  | .colon members key, .token .colon =>
      some ⟨.object members key :: frames, .value⟩
  | .afterMember members, .token .comma =>
      some ⟨frames, .nextKey members⟩
  | .afterMember members, .token .closeObject =>
      some (complete (.obj members.reverse) frames)
  | _, _ => none

/- What was read, when nothing is left open. -/
def result? (reader : Reader) : Option Written :=
  match reader.await with
  | .nothing value => some value
  | _ => none

end Reader

/- What lexical units spell. -/
def ofLexemes? (units : List Lexeme) : Option Written :=
  (units.foldlM Reader.step? Reader.initial).bind
    Reader.result?

/- What a text spells, however deeply nested. -/
def read? (text : String) : Option Written :=
  (Lexeme.split? text.toList).bind ofLexemes?

------------------------------------------------------------
-- Values
------------------------------------------------------------

/- The value that is spelled, if every part of it means
   something and it nests no deeper than a limit. -/
def value? : Nat → Written → Option Json
  | _, .null => some .null
  | _, .bool value => some (.bool value)
  | _, .num number => some (.num number)
  | _, .str text => some (.str text)
  | limit + 1, .arr items =>
      (items.mapM (value? limit)).map .arr
  | limit + 1, .obj members =>
      (members.mapM
        fun (member : Option String × Written) => do
          return (← member.1, ← value? limit member.2)).map
        .obj
  | _, _ => none

end Written

end Json

end Converge
