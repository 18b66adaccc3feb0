import Converge.Keyed

/-
  Reading records off the values of a data format.

  Formats differ in what they take for a record, a text or a
  flag; what the fields of a record mean does not depend on
  that. Where a record has named members, members with other
  names are passed over, and a name of a field may not
  repeat. Where it is a list of its fields in their order,
  the last ones may be missing.

  Key definitions:
    * `Record.byName?`, `Record.byPosition?`: the values of
      fields
    * `RecordFormat`: how a format holds records
    * `RecordFormat.section?`: a record that may be absent
-/

namespace Converge

namespace Record

variable {α : Type}

/- The values of fields among named members. -/
def byName?
    (names : List String)
    (members : List (String × α)) :
    Option (List (Option α)) :=
  names.mapM fun name => Keyed.unique? name members

/- The values of fields in a list of no more items. -/
def byPosition?
    (names : List String)
    (items : List α) :
    Option (List (Option α)) :=
  if items.length ≤ names.length then
    some
      (items.map some ++
        List.replicate (names.length - items.length) none)
  else none

end Record

/-
  How values of a format are read: the values of named
  fields, as far as they are given, a text, a text that may
  be left open, and a flag.
-/
structure RecordFormat (α : Type) where
  record? : List String → α → Option (List (Option α))
  text? : α → Option String
  openText? : α → Option (Option String)
  flag? : α → Option Bool

namespace RecordFormat

variable {α β : Type}

/- The fields of a record; those of an absent one are all
   absent. -/
def section?
    (format : RecordFormat α)
    (names : List String) :
    Option α → Option (List (Option α))
  | none => some (names.map fun _ => none)
  | some value => format.record? names value

/- The value of a field, or another one if it is absent. -/
def fieldOr
    (read? : α → Option β)
    (other : β) :
    Option α → Option β
  | none => some other
  | some value => read? value

end RecordFormat

end Converge
