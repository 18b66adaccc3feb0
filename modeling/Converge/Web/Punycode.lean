import Converge.Text

/-
  Punycode: characters beyond ASCII, spelled in ASCII.

  The plain characters of a text come first. The others are
  given in increasing order, each by how far it lies from the
  one before, over all places where it could stand. Such a
  distance is a number of digits of varying weight, which end
  with the first small one.

  Key definitions:
    * `Punycode.decode?`: the text that is spelled
-/

namespace Converge

namespace Punycode

/- The value of a digit in base 36. -/
def digit? (c : Char) : Option Nat :=
  if c.isLower then some (c.toNat - 'a'.toNat)
  else if c.isUpper then some (c.toNat - 'A'.toNat)
  else if c.isDigit then some (c.toNat - '0'.toNat + 26)
  else none

/- The value at a position from which on digits are no last
   ones. -/
def threshold (position bias : Nat) : Nat :=
  min 26 (max 1 (position - bias))

/- Divides a distance until it is small, and counts the
   divisions. -/
def reduce (distance : Nat) : Nat × Nat :=
  if 455 < distance then
    let (small, count) := reduce (distance / 35)
    (small, count + 1)
  else (distance, 0)
termination_by distance
decreasing_by omega

/- The bias after a distance, in a text that has so many
   characters with the new one. -/
def adapt (distance count : Nat) (isFirst : Bool) : Nat :=
  let share := distance / if isFirst then 700 else 2
  let (small, divisions) := reduce (share + share / count)
  36 * divisions + 36 * small / (small + 38)

/-
  A text being decoded: the characters so far, the last code
  point added, the place where the next one is counted from,
  the place where the current distance started, and weight,
  position and bias of its next digit.
-/
structure Draft where
  text : List Char
  code : Nat
  place : Nat
  start : Nat
  weight : Nat
  position : Nat
  bias : Nat

/- Adds the character that a complete distance gives. -/
def Draft.add? (draft : Draft) : Option Draft :=
  let count := draft.text.length + 1
  let code := draft.code + draft.place / count
  let place := draft.place % count
  let bias :=
    adapt (draft.place - draft.start) count (draft.start = 0)
  if code.isValidChar then
    some
      ⟨draft.text.insertIdx place (Char.ofNat code), code,
        place + 1, place + 1, 1, 36, bias⟩
  else none

/- Reads one more digit. -/
def Draft.step? (draft : Draft) (c : Char) : Option Draft := do
  let digit ← digit? c
  let place := draft.place + digit * draft.weight
  let least := threshold draft.position draft.bias
  if 0xffffffff < place then none
  else if digit < least then
    Draft.add? { draft with place := place }
  else
    some
      { draft with
        place := place
        weight := draft.weight * (36 - least)
        position := draft.position + 36 }

/- The text that is spelled. The last dash ends the plain
   characters, of which there are some before it. -/
def decode? (chars : List Char) : Option (List Char) := do
  let digits := (chars.reverse.takeWhile (· ≠ '-')).reverse
  let plain := chars.take (chars.length - digits.length - 1)
  let start : Draft := ⟨plain, 128, 0, 0, 1, 36, 72⟩
  if plain.isEmpty && digits.length < chars.length then none
  else
    let draft ← digits.foldlM Draft.step? start
    if draft.weight = 1 then some draft.text else none

end Punycode

end Converge
