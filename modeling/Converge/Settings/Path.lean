import Converge.Settings.Value

/-
  Paths to settings.

  A path starts with the key of a table. What follows is the
  key of an inner table after a point, or the position of an
  item in brackets.

  Key definitions:
    * `Setting.Step`, `Setting.path?`: steps of a path
    * `Setting.set`: place a value where a path leads
-/

namespace Converge

namespace Setting

/- A step of a path: to the value of a key, or to an item. -/
inductive Step where
  | key (name : String)
  | item (position : Int)
deriving DecidableEq

------------------------------------------------------------
-- Following
------------------------------------------------------------

/- Changes the value that a step leads to. -/
def Step.change
    (step : Step)
    (f : Setting → Setting)
    (target : Setting) :
    Setting :=
  match step with
  | key name => target.change name f
  | item position => target.changeItem position f

/- Puts a value where a path leads. What stands in the way
   is replaced. -/
def set
    (value : Setting)
    (target : Setting) :
    List Step → Setting
  | [] => merge target value
  | step :: rest =>
      step.change (fun old => set value old rest) target

------------------------------------------------------------
-- Reading
------------------------------------------------------------

/- What a name consists of. -/
def isNameChar (c : Char) : Bool :=
  c.isAlphanum || c = '_' || c = '-'

/- The step to the value of a key. -/
def keyStep? (name : List Char) : Option Step :=
  if !name.isEmpty && name.all isNameChar then
    some (.key (String.ofList name))
  else none

def isBlank (c : Char) : Bool :=
  c = ' ' || c = '\t'

/- The step to an item, whose position is between brackets.
   The first one is open already. -/
def itemStep? (chars : List Char) : Option Step := do
  let chars := chars.dropWhile isBlank
  let (negative, digits) :=
    match chars with
    | '-' :: rest => (true, rest)
    | rest => (false, rest)
  let (digits, rest) := digits.span Char.isDigit
  if digits.isEmpty || rest.dropWhile isBlank ≠ [']'] then
    none
  else
    let magnitude : Int := Text.digitsValue digits
    let position := if negative then -magnitude else magnitude
    if -9223372036854775808 ≤ position &&
        position ≤ 9223372036854775807
      then some (.item position)
    else none

/- Splits a path before its points and opening brackets. -/
def splitSteps : List Char → List Char × List (List Char)
  | [] => ([], [])
  | c :: rest =>
      let (first, others) := splitSteps rest
      if c = '.' || c = '[' then ([], (c :: first) :: others)
      else (c :: first, others)

/- The step that a later part of a path is. -/
def laterStep? : List Char → Option Step
  | '.' :: name => keyStep? name
  | '[' :: rest => itemStep? rest
  | _ => none

/- The steps of a written path. -/
def path? (written : String) : Option (List Step) := do
  let (first, others) := splitSteps written.toList
  return (← keyStep? first) :: (← others.mapM laterStep?)

end Setting

end Converge
