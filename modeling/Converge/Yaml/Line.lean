import Converge.Yaml.Flow

/-
  Lines of YAML documents, and the scalars that several lines
  make up.

  Key definitions:
    * `Yaml.Line`: a line and its indentation
    * `Yaml.blockScalar?`: a scalar of lines below its mark
    * `Yaml.inline?`: a value that starts inside a line
-/

namespace Converge

namespace Yaml

/- A line without its indentation; a blank line has no
   text. -/
structure Line where
  indent : Nat
  text : List Char
deriving DecidableEq

namespace Line

def ofChars (chars : List Char) : Line :=
  let spaces := chars.takeWhile (· = ' ')
  let text := chars.drop spaces.length
  ⟨spaces.length, if text.all isBlank then [] else text⟩

def isBlank (line : Line) : Bool :=
  line.text.isEmpty

/- There is nothing on the line but a comment. -/
def isComment (line : Line) : Bool :=
  line.text.head? = some '#'

end Line

/- Drops lines that say nothing. -/
def skipLines (lines : List Line) : List Line :=
  lines.dropWhile fun line => line.isBlank || line.isComment

------------------------------------------------------------
-- Comments
------------------------------------------------------------

/- What stands before a comment. -/
def beforeComment : List Char → List Char
  | [] => []
  | c :: rest =>
      match rest with
      | '#' :: _ =>
          if isBlank c then []
          else c :: beforeComment rest
      | _ => c :: beforeComment rest

/- Nothing or a comment is left of a line. -/
def isLineEnd (chars : List Char) : Bool :=
  match skipBlanks chars with
  | [] => true
  | '#' :: _ => chars.head?.any isBlank
  | _ => false

/- Splits a text at the first colon that ends a plain
   key. -/
def splitAtColon? :
    List Char → Option (List Char × List Char)
  | [] => none
  | ':' :: rest =>
      if rest.isEmpty || rest.head?.any isBlank then
        some ([], rest)
      else
        (splitAtColon? rest).map fun (key, rest) =>
          (':' :: key, rest)
  | c :: rest =>
      (splitAtColon? rest).map fun (key, rest) =>
        (c :: key, rest)

------------------------------------------------------------
-- Plain Scalars of Several Lines
------------------------------------------------------------

/- Joins a line to the ones before it: a single line break
   becomes a blank, and of several the first is dropped. -/
def continued
    (least : Nat) :
    List Line → List Char × List Line
  | [] => ([], [])
  | line :: rest =>
      let (more, left) := continued least rest
      if line.isBlank then
        match more with
        | ' ' :: more => ('\n' :: more, left)
        | '\n' :: more => ('\n' :: '\n' :: more, left)
        | _ => ([], line :: rest)
      else if line.indent < least || line.isComment then
        ([], line :: rest)
      else if beforeComment line.text ≠ line.text then
        (' ' :: trimBlanks (beforeComment line.text), rest)
      else (' ' :: trimBlanks line.text ++ more, left)

/- A plain scalar with the lines that continue it. -/
def plain?
    (least : Nat)
    (text : List Char)
    (rest : List Line) :
    Option (Tree × List Line) :=
  let first := trimBlanks (beforeComment text)
  let (more, left) :=
    if beforeComment text = text then continued least rest
    else ([], rest)
  let whole := first ++ more
  if (splitAtColon? whole).isSome then none
  else (plainTree? whole).map fun value => (value, left)

------------------------------------------------------------
-- Block Scalars
------------------------------------------------------------

/- What becomes of the line breaks at the end. -/
inductive Chomp where
  | clip
  | strip
  | keep
deriving DecidableEq

/- The mark of a block scalar. -/
structure BlockMark where
  folded : Bool
  chomp : Chomp
  indent : Option Nat

/- Reads what follows the first character of a mark. -/
def blockMark?
    (folded : Bool)
    (chars : List Char) :
    Option BlockMark :=
  let mark :=
    chars.takeWhile fun c =>
      c = '+' || c = '-' || c.isDigit
  let digits := mark.filter Char.isDigit
  let signs := mark.filter fun c => !c.isDigit
  let chomp : Option Chomp :=
    match signs with
    | [] => some .clip
    | ['-'] => some .strip
    | ['+'] => some .keep
    | _ => none
  let indent : Option (Option Nat) :=
    match digits with
    | [] => some none
    | [digit] =>
        if digit = '0' then none
        else some (some (Text.digitValue digit))
    | _ => none
  if isLineEnd (chars.drop mark.length) then do
    return ⟨folded, ← chomp, ← indent⟩
  else none

/- A line of a block scalar, from the column of the scalar
   on. -/
def blockText (column : Nat) (line : Line) : List Char :=
  List.replicate (line.indent - column) ' ' ++ line.text

/- Lines that start with a blank are not folded. -/
def isDeeper (text : List Char) : Bool :=
  text.head?.any isBlank

/- Folds lines after another one and some empty lines. -/
def foldAfter
    (previous : List Char)
    (empty : Nat) :
    List (List Char) → List Char
  | [] => []
  | text :: rest =>
      if text.isEmpty then foldAfter previous (empty + 1) rest
      else
        let breaks :=
          if isDeeper previous || isDeeper text then
            List.replicate (empty + 1) '\n'
          else if empty = 0 then [' ']
          else List.replicate empty '\n'
        breaks ++ text ++ foldAfter text 0 rest

/- Folds lines: a single line break becomes a blank. -/
def foldLines (texts : List (List Char)) : List Char :=
  let empty := texts.takeWhile List.isEmpty
  match texts.drop empty.length with
  | [] => []
  | first :: rest =>
      List.replicate empty.length '\n' ++ first ++
        foldAfter first 0 rest

/- The text of a block scalar. -/
def blockContent
    (mark : BlockMark)
    (texts : List (List Char)) :
    List Char :=
  let last := texts.reverse.takeWhile List.isEmpty
  let body := texts.take (texts.length - last.length)
  let content :=
    if mark.folded then foldLines body
    else ['\n'].intercalate body
  let breaks := last.length + (if body.isEmpty then 0 else 1)
  match mark.chomp with
  | .strip => content
  | .clip => if body.isEmpty then [] else content ++ ['\n']
  | .keep => content ++ List.replicate breaks '\n'

/- Reads a scalar whose lines follow its mark. -/
def blockScalar?
    (least : Nat)
    (mark : BlockMark)
    (lines : List Line) :
    Tree × List Line :=
  let first := lines.find? fun line => !line.isBlank
  let found := (first.map Line.indent).getD least
  let column :=
    match mark.indent with
    | some indent => least + indent - 1
    | none => max least found
  let own := lines.takeWhile fun line =>
    line.isBlank || column ≤ line.indent
  let content := blockContent mark (own.map (blockText column))
  (.str (String.ofList content), lines.drop own.length)

------------------------------------------------------------
-- Values inside a Line
------------------------------------------------------------

/- Levels of brackets that a text leaves open. -/
def openBrackets (chars : List Char) : Int :=
  chars.foldl
    (fun (level : Int) (c : Char) =>
      if c = '[' || c = '\x7b' then level + 1
      else if c = ']' || c = '\x7d' then level - 1
      else level)
    0

/- Joins lines to a text until its brackets are closed. -/
def closeBrackets
    (text : List Char) :
    List Line → List Char × List Line
  | [] => (text, [])
  | line :: rest =>
      if openBrackets text ≤ 0 then (text, line :: rest)
      else
        closeBrackets
          (text ++ ' ' :: beforeComment line.text) rest

/- Reads a value that starts inside a line; `least` is the
   indentation that lines of it have at least. -/
def inline?
    (least : Nat)
    (text : List Char)
    (rest : List Line) :
    Option (Tree × List Line) :=
  match text with
  | '|' :: mark =>
      (blockMark? false mark).map fun mark =>
        blockScalar? least mark rest
  | '>' :: mark =>
      (blockMark? true mark).map fun mark =>
        blockScalar? least mark rest
  | text =>
      if startsQuoted text then do
        let (content, after) ← quoted? text
        if isLineEnd after then
          return (.str (String.ofList content), rest)
        else none
      else if text.head? = some '[' ∨
          text.head? = some '\x7b' then do
        let (text, rest) :=
          closeBrackets (beforeComment text) rest
        return (← flow? text, rest)
      else if canStartPlain text then plain? least text rest
      else none

end Yaml

end Converge
