import Converge.Amount
import Converge.Keyed

/-
  TOML values.

  What may still be added to a table depends on how the table
  came to be, so every table remembers that.

  Key definitions:
    * `Toml`: a value
    * `Toml.Origin`: how a table came to be
    * `Toml.assign?`: the value of a key with points
    * `Toml.openTable?`, `Toml.openItem?`: headers
    * `Toml.under?`: a change inside the table of a header
-/

namespace Converge

namespace Toml

/- How a table came to be: in braces, by its own header, by
   the header of a table inside it, or by a key with
   points. -/
inductive Origin where
  | braces
  | header
  | innerHeader
  | points
deriving DecidableEq

end Toml

/- A TOML value. Tables that headers with double brackets
   open stand in a row, the latest one first. -/
inductive Toml where
  | flag (value : Bool)
  | whole (value : Int)
  | real (value : Amount)
  | text (value : String)
  | list (items : List Toml)
  | row (tables : List (List (String × Toml)))
  | table
      (origin : Toml.Origin)
      (entries : List (String × Toml))

namespace Toml

/- The entries of a table. -/
abbrev Entries := List (String × Toml)

------------------------------------------------------------
-- Keys
------------------------------------------------------------

/-
  Sets the value of a key, which must have none. The parts of
  the key before its last one lead into tables that no braces
  and no header of their own have made.
-/
def assign?
    (value : Toml) :
    List String → Entries → Option Entries
  | [], _ => none
  | [key], entries =>
      if Keyed.has key entries then none
      else some (Keyed.put key value entries)
  | key :: path, entries =>
      let place (origin : Origin) (inner : Entries) :=
        (assign? value path inner).map
          fun (inner : Entries) =>
            Keyed.put key (.table origin inner) entries
      match entries.lookup key with
      | none => place .points []
      | some (.table .points inner) => place .points inner
      | some (.table .innerHeader inner) =>
          place .innerHeader inner
      | some _ => none

------------------------------------------------------------
-- Headers
------------------------------------------------------------

/- Opens the table of a key. Only a table that the headers of
   inner tables have made may be there already. -/
def openTable?
    (key : String)
    (entries : Entries) :
    Option Entries :=
  match entries.lookup key with
  | none =>
      some (Keyed.put key (.table .header []) entries)
  | some (.table .innerHeader inner) =>
      some (Keyed.put key (.table .header inner) entries)
  | some _ => none

/- Opens one more table in the row of a key. -/
def openItem?
    (key : String)
    (entries : Entries) :
    Option Entries :=
  match entries.lookup key with
  | none => some (Keyed.put key (.row [[]]) entries)
  | some (.row tables) =>
      some (Keyed.put key (.row ([] :: tables)) entries)
  | some _ => none

/-
  Changes the table that a path of a header leads to. It
  leads into the latest table of a row, and into every table
  that is not in braces.
-/
def under?
    (change? : Entries → Option Entries) :
    List String → Entries → Option Entries
  | [], entries => change? entries
  | key :: path, entries =>
      let place (origin : Origin) (inner : Entries) :=
        (under? change? path inner).map
          fun (inner : Entries) =>
            Keyed.put key (.table origin inner) entries
      match entries.lookup key with
      | none => place .innerHeader []
      | some (.table .braces _) => none
      | some (.table origin inner) => place origin inner
      | some (.row (latest :: earlier)) =>
          (under? change? path latest).map
            fun (latest : Entries) =>
              Keyed.put key (.row (latest :: earlier)) entries
      | some _ => none

end Toml

end Converge
