import Converge.Json.Token

/-
  Written forms of JSON values. Both forms consist of the
  same tokens; they differ in the white space between them.

  Key definitions:
    * `Json.tokens`: the tokens of a value
    * `Json.compact`: no white space
    * `Json.pretty`: one item a line, two spaces a level
-/

namespace Converge

namespace Json

------------------------------------------------------------
-- Tokens of a Value
------------------------------------------------------------

mutual

/- The tokens of a value. -/
def tokens : Json → List Token
  | .null => [.null]
  | .bool value => [.bool value]
  | .num number => [.num number]
  | .str text => [.str text.toList]
  | .arr [] => [.openArray, .closeArray]
  | .arr (item :: items) =>
      .openArray :: (tokens item ++ itemTokens items)
  | .obj [] => [.openObject, .closeObject]
  | .obj ((key, value) :: members) =>
      .openObject :: .str key.toList :: .colon ::
        (tokens value ++ memberTokens members)

/- The items after the first one, up to the end. -/
def itemTokens : List Json → List Token
  | [] => [.closeArray]
  | item :: items =>
      .comma :: (tokens item ++ itemTokens items)

/- The members after the first one, up to the end. -/
def memberTokens : List (String × Json) → List Token
  | [] => [.closeObject]
  | (key, value) :: members =>
      .comma :: .str key.toList :: .colon ::
        (tokens value ++ memberTokens members)

end

------------------------------------------------------------
-- Layouts
------------------------------------------------------------

/- Tokens one after the other. -/
def compactChars (value : Json) : List Char :=
  value.tokens.flatMap Token.text

/- Written form without white space. -/
def compact (value : Json) : String :=
  String.ofList value.compactChars

/- A new line at a level of nesting. -/
def newLine (level : Nat) : List Char :=
  '\n' :: List.replicate (2 * level) ' '

/- Lays tokens out, one item or member a line. Empty arrays
   and objects stay on theirs. -/
def layout :
    Nat → List Token → List Char
  | _, [] => []
  | level, .openArray :: .closeArray :: rest =>
      '[' :: ']' :: layout level rest
  | level, .openObject :: .closeObject :: rest =>
      '\x7b' :: '\x7d' :: layout level rest
  | level, .openArray :: rest =>
      '[' :: newLine (level + 1) ++ layout (level + 1) rest
  | level, .openObject :: rest =>
      '\x7b' :: newLine (level + 1) ++
        layout (level + 1) rest
  | level, .closeArray :: rest =>
      newLine (level - 1) ++ ']' :: layout (level - 1) rest
  | level, .closeObject :: rest =>
      newLine (level - 1) ++ '\x7d' ::
        layout (level - 1) rest
  | level, .comma :: rest =>
      ',' :: newLine level ++ layout level rest
  | level, .colon :: rest =>
      ':' :: ' ' :: layout level rest
  | level, token :: rest =>
      token.text ++ layout level rest

/- Written form with one item or member a line. -/
def pretty (value : Json) : String :=
  String.ofList (layout 0 value.tokens)

end Json

end Converge
