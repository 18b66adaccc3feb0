import Converge.Yaml.Reader

/-
  Writing configuration trees as YAML documents of nested
  blocks.

  A text is written plainly where it then reads back as that
  text, else in quotes, and as a block of lines if it has
  several.

  Key definitions:
    * `Yaml.scalar`: a text on one line
    * `Yaml.block`: the lines of a value
    * `Yaml.write`: the document of a map
-/

namespace Converge

namespace Yaml

------------------------------------------------------------
-- Texts on One Line
------------------------------------------------------------

/- Old words for truth values, which are quoted too. -/
def oldWords : List String :=
  [ "y", "Y", "yes", "Yes", "YES", "n", "N", "no", "No", "NO",
    "on", "On", "ON", "off", "Off", "OFF" ]

/- A plain scalar of the characters would end or change its
   meaning before they end. -/
def breaksPlain (chars : List Char) : Bool :=
  !canStartPlain chars ||
    (splitAtColon? chars).isSome ||
    beforeComment chars ≠ chars ||
    trimBlanks (skipBlanks chars) ≠ chars ||
    chars.take 3 = "---".toList ||
    chars.take 3 = "...".toList

/- The characters stand for the text that they are. -/
def isText (chars : List Char) : Bool :=
  plainTree? chars matches some (.str _) &&
    !isPadded (Amount.signed chars).2 &&
    !oldWords.contains (String.ofList chars)

/- Characters that keep a text on its line. -/
def isInLine (c : Char) : Bool :=
  isPrintable c && c ≠ '\n' && c ≠ '\x0d'

def isPlain (chars : List Char) : Bool :=
  isText chars && !breaksPlain chars &&
    chars.all fun c => isInLine c && c ≠ '\t'

/- Hexadecimal digits in upper case, of a width. -/
def hexDigits (width : Nat) (code : Nat) : List Char :=
  let digits := (Nat.toDigits 16 code).map Char.toUpper
  List.replicate (width - digits.length) '0' ++ digits

/- A character as it stands in double quotes. -/
def escaped (c : Char) : List Char :=
  let code := c.toNat
  let known :=
    singleEscapes.find? fun escape =>
      escape.2 = c && escape.1 ≠ ' ' && escape.1 ≠ '/' &&
        escape.1 ≠ '\t'
  match known with
  | some escape => ['\\', escape.1]
  | none =>
      if isPrintable c then [c]
      else if code < 0x100 then '\\' :: 'x' :: hexDigits 2 code
      else if code < 0x10000 then
        '\\' :: 'u' :: hexDigits 4 code
      else '\\' :: 'U' :: hexDigits 8 code

/- A text on one line. -/
def scalar (text : String) : List Char :=
  let chars := text.toList
  if isPlain chars then chars
  else if chars.all isInLine then
    '\'' :: Text.replaceChar '\'' ['\'', '\''] chars ++ ['\'']
  else '"' :: chars.flatMap escaped ++ ['"']

------------------------------------------------------------
-- Blocks
------------------------------------------------------------

/- Lines, indented by one level. -/
def indented (lines : List (List Char)) : List (List Char) :=
  lines.map fun line =>
    if line.isEmpty then [] else ' ' :: ' ' :: line

/- Lines whose first one stands after a mark. -/
def after
    (mark : List Char) :
    List (List Char) → List (List Char)
  | [] => [mark]
  | first :: rest => (mark ++ first) :: indented rest

/- Whether a text can stand as a block of lines. -/
def isBlockText (chars : List Char) : Bool :=
  chars.contains '\n' && chars.all isPrintable &&
    !chars.contains '\x0d' &&
    !(chars.head?.any fun c => isBlank c || c = '\n')

/- A text as a mark and the lines after it. -/
def literalBlock (text : String) : List (List Char) :=
  let lines := text.splitOn "\n"
  let breaks :=
    (text.toList.reverse.takeWhile (· = '\n')).length
  let mark :=
    if breaks = 0 then "|-"
    else if breaks = 1 then "|"
    else "|+"
  mark.toList ::
    (lines.take (lines.length - min breaks 1)).map
      String.toList

mutual

/- The lines of a value. -/
def block : Tree → List (List Char)
  | .null => ["null".toList]
  | .bool value =>
      [(if value then "true" else "false").toList]
  | .int value => [(toString value.toInt).toList]
  | .str text =>
      if isBlockText text.toList then literalBlock text
      else [scalar text]
  | .list [] => ["[]".toList]
  | .list items => blockItems items
  | .map [] => ["\x7b\x7d".toList]
  | .map entries => blockEntries entries

/- The lines of items, each after a dash. -/
def blockItems : List Tree → List (List Char)
  | [] => []
  | item :: items =>
      after ['-', ' '] (block item) ++ blockItems items

/- The lines of entries, each after its key. -/
def blockEntries : ConfigMap → List (List Char)
  | [] => []
  | (key, value) :: entries =>
      let key := scalar key
      let lines :=
        match value with
        | .list (item :: items) =>
            (key ++ [':']) :: block (.list (item :: items))
        | .map (entry :: entries) =>
            (key ++ [':']) ::
              indented (block (.map (entry :: entries)))
        | value => after (key ++ [':', ' ']) (block value)
      lines ++ blockEntries entries

end

/- The document of a map. -/
def write (entries : ConfigMap) : String :=
  String.ofList
    ((block (.map entries)).flatMap fun line => line ++ ['\n'])

end Yaml

end Converge
