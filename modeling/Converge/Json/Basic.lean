import Converge.Json.Number
import Converge.Keyed

/-
  JSON values.

  An object keeps the members of its text in their order,
  repeated keys included. The canonical form has each key
  once, in increasing order, and is what untyped values are
  compared, patched and written in.

  Key definitions:
    * `Json`: a value
    * `Json.canonical`: sorted members, the last of a
      repeated key
    * `Json.depth`: levels of nesting
    * `Json.member?`: member of an object
-/

namespace Converge

/- A JSON value. -/
inductive Json where
  | null
  | bool (value : Bool)
  | num (number : Number)
  | str (text : String)
  | arr (items : List Json)
  | obj (members : List (String × Json))
deriving Inhabited

namespace Json

------------------------------------------------------------
-- Equality
------------------------------------------------------------

mutual

/- Whether two values are equal. -/
def same : Json → Json → Bool
  | .null, .null => true
  | .bool left, .bool right => left = right
  | .num left, .num right => left = right
  | .str left, .str right => left = right
  | .arr left, .arr right => sameItems left right
  | .obj left, .obj right => sameMembers left right
  | _, _ => false

def sameItems : List Json → List Json → Bool
  | [], [] => true
  | left :: lefts, right :: rights =>
      same left right && sameItems lefts rights
  | _, _ => false

def sameMembers :
    List (String × Json) → List (String × Json) → Bool
  | [], [] => true
  | (key, left) :: lefts, (other, right) :: rights =>
      key = other && same left right &&
        sameMembers lefts rights
  | _, _ => false

end

mutual

theorem same_iff : ∀ left right : Json,
    same left right = true ↔ left = right
  | .null, right => by cases right <;> simp [same]
  | .bool _, right => by cases right <;> simp [same]
  | .num _, right => by cases right <;> simp [same]
  | .str _, right => by cases right <;> simp [same]
  | .arr items, right => by
      cases right <;> simp [same]
      exact sameItems_iff items _
  | .obj members, right => by
      cases right <;> simp [same]
      exact sameMembers_iff members _

theorem sameItems_iff : ∀ left right : List Json,
    sameItems left right = true ↔ left = right
  | [], right => by cases right <;> simp [sameItems]
  | item :: items, right => by
      cases right with
      | nil => simp [sameItems]
      | cons other others =>
          simp [sameItems, same_iff item other,
            sameItems_iff items others]

theorem sameMembers_iff :
    ∀ left right : List (String × Json),
      sameMembers left right = true ↔ left = right
  | [], right => by cases right <;> simp [sameMembers]
  | (key, item) :: items, right => by
      cases right with
      | nil => simp [sameMembers]
      | cons other others =>
          obtain ⟨otherKey, other⟩ := other
          simp [sameMembers, same_iff item other,
            sameMembers_iff items others, and_assoc]

end

instance : DecidableEq Json :=
  fun left right =>
    decidable_of_iff _ (same_iff left right)

------------------------------------------------------------
-- Canonical Form
------------------------------------------------------------

mutual

/- Sorts the members of every object; the last member of a
   repeated key is the one that counts. -/
def canonical : Json → Json
  | .arr items => .arr (canonicalItems items)
  | .obj members => .obj (canonicalMembers members)
  | scalar => scalar

def canonicalItems : List Json → List Json
  | [] => []
  | item :: items => canonical item :: canonicalItems items

def canonicalMembers :
    List (String × Json) → List (String × Json)
  | [] => []
  | (key, value) :: members =>
      if Keyed.has key members then canonicalMembers members
      else
        Keyed.insert key (canonical value)
          (canonicalMembers members)

end

mutual

/- Every object has its keys in strictly increasing order. -/
def IsCanonical : Json → Prop
  | .arr items => AreCanonical items
  | .obj members =>
      Keyed.Sorted members ∧ MembersAreCanonical members
  | _ => True

def AreCanonical : List Json → Prop
  | [] => True
  | item :: items => IsCanonical item ∧ AreCanonical items

def MembersAreCanonical : List (String × Json) → Prop
  | [] => True
  | (_, value) :: members =>
      IsCanonical value ∧ MembersAreCanonical members

end

------------------------------------------------------------
-- Structure
------------------------------------------------------------

mutual

/- Levels of arrays and objects. -/
def depth : Json → Nat
  | .arr items => itemsDepth items + 1
  | .obj members => membersDepth members + 1
  | _ => 0

def itemsDepth : List Json → Nat
  | [] => 0
  | item :: items => max (depth item) (itemsDepth items)

def membersDepth : List (String × Json) → Nat
  | [] => 0
  | (_, value) :: members =>
      max (depth value) (membersDepth members)

end

/- An integer value of a signed 64-bit word. -/
def ofInt64 (word : Int64) : Json :=
  .num (.ofInt64 word)

/- The member of an object with the key. -/
def member?
    (key : String) :
    Json → Option Json
  | .obj members => members.lookup key
  | _ => none

/- The value reached by following member keys. -/
def at? : List String → Json → Option Json
  | [], value => some value
  | key :: keys, value => (value.member? key).bind (at? keys)

def asString? : Json → Option String
  | .str text => some text
  | _ => none

def asInt64? : Json → Option Int64
  | .num number => number.toInt64?
  | _ => none

def isObject : Json → Bool
  | .obj _ => true
  | _ => false

/- Sets a member of a canonical object; any other value is
   left as it is. -/
def setMember
    (target : Json)
    (key : String)
    (value : Json) :
    Json :=
  match target with
  | .obj members => .obj (Keyed.insert key value members)
  | other => other

end Json

end Converge
