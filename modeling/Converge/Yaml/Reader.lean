import Converge.Yaml.Line

/-
  Reading plain YAML documents of nested blocks.

  Entries of a map and items of a list stand in lines of one
  indentation; what belongs to one of them is indented more.
  This is a part of the language only: anchors, tags, keys and
  quoted texts of several lines, and documents that begin in
  the line of their mark, are not read here.

  Key definitions:
    * `Yaml.node?`: the value that lines spell
    * `Yaml.read?`: the map of a document
-/

namespace Converge

namespace Yaml

------------------------------------------------------------
-- Keys and Items
------------------------------------------------------------

/- Splits a line into key and value. A plain key that is not
   a text is one only where any scalar will do. -/
def splitKey?
    (anyScalar : Bool)
    (text : List Char) :
    Option (String × List Char) :=
  if startsQuoted text then do
    let (content, after) ← quoted? text
    match skipBlanks after with
    | ':' :: rest =>
        if rest.isEmpty || rest.head?.any isBlank then
          return (String.ofList content, skipBlanks rest)
        else none
    | _ => none
  else if canStartPlain text then do
    let (key, rest) ← splitAtColon? text
    let name := trimBlanks key
    if beforeComment key ≠ key then none
    else if anyScalar then
      return (String.ofList name, skipBlanks rest)
    else
      match plainTree? name with
      | some (.str name) => return (name, skipBlanks rest)
      | _ => none
  else none

/- Whether a line is an entry of a map, readable or not. -/
def isEntry (text : List Char) : Bool :=
  (splitKey? true text).isSome

/- The item that starts in a line after its dash. -/
def item? (line : Line) : Option Line :=
  match line.text with
  | ['-'] => some ⟨line.indent + 1, []⟩
  | '-' :: c :: rest =>
      if isBlank c then
        let text := skipBlanks rest
        some
          ⟨line.indent + 2 + (rest.length - text.length), text⟩
      else none
  | _ => none

------------------------------------------------------------
-- Blocks
------------------------------------------------------------

mutual

/- Reads the value of lines that are indented at least so
   much. Every step takes fuel, of which the number of
   characters and lines is enough. -/
def node? :
    Nat → Nat → List Line → Option (Tree × List Line)
  | 0, _, _ => none
  | fuel + 1, least, lines =>
      match skipLines lines with
      | [] => some (.null, [])
      | line :: rest =>
          if line.indent < least then
            some (.null, line :: rest)
          else if (item? line).isSome then
            (items? fuel line.indent (line :: rest)).map
              fun (items, rest) => (.list items, rest)
          else if isEntry line.text then
            (entries? fuel false line.indent
              (line :: rest)).map
                fun (entries, rest) => (.map entries, rest)
          else inline? least line.text rest

/- Reads items at an indentation. -/
def items? :
    Nat → Nat → List Line → Option (List Tree × List Line)
  | 0, _, _ => none
  | fuel + 1, indent, lines =>
      match skipLines lines with
      | [] => some ([], [])
      | line :: rest =>
          if indent < line.indent then none
          else if line.indent < indent then
            some ([], line :: rest)
          else
            match item? line with
            | none => some ([], line :: rest)
            | some inner => do
                let (first, rest) ←
                  node? fuel (indent + 1) (inner :: rest)
                let (items, rest) ← items? fuel indent rest
                return (first :: items, rest)

/- Reads entries at an indentation. The items of a list may
   stand at the indentation of its key. -/
def entries? :
    Nat → Bool → Nat → List Line →
      Option (ConfigMap × List Line)
  | 0, _, _, _ => none
  | fuel + 1, anyScalar, indent, lines =>
      match skipLines lines with
      | [] => some ([], [])
      | line :: rest =>
          if indent < line.indent then none
          else if line.indent < indent then
            some ([], line :: rest)
          else do
            let (key, text) ← splitKey? anyScalar line.text
            let (value, rest) ←
              if text.isEmpty || text.head? = some '#' then
                match skipLines rest with
                | [] => some (Tree.null, [])
                | next :: others =>
                    if next.indent = indent &&
                        (item? next).isSome then
                      (items? fuel indent
                        (next :: others)).map
                          fun (items, rest) =>
                            (Tree.list items, rest)
                    else
                      node? fuel (indent + 1) (next :: others)
              else inline? (indent + 1) text rest
            let (entries, rest) ←
              entries? fuel anyScalar indent rest
            return (addFirst key value entries, rest)

end

------------------------------------------------------------
-- Documents
------------------------------------------------------------

/- Characters that a document may hold. -/
def isPrintable (c : Char) : Bool :=
  let code := c.toNat
  c = '\t' || c = '\n' || c = '\x0d' ||
    (0x20 ≤ code && code ≤ 0x7e) || code = 0x85 ||
    (0xa0 ≤ code && code ≠ 0xfeff && code ≠ 0xfffe &&
      code ≠ 0xffff)

/- A line without the mark of another system's line end. -/
def lineOf (chars : List Char) : Line :=
  Line.ofChars
    (if chars.getLast? = some '\x0d' then chars.dropLast
      else chars)

/- Whether a line is one of the marks between documents. -/
def isMark (mark : String) (line : Line) : Bool :=
  line.indent = 0 && line.text.take 3 = mark.toList &&
    isLineEnd (line.text.drop 3)

/- Whether a line begins with one of these marks, whatever
   follows in it. -/
def opens (mark : String) (line : Line) : Bool :=
  line.indent = 0 && line.text.take 3 = mark.toList &&
    (line.text.drop 3).head?.all isBlank

/- The lines of the only document of a text. -/
def body? (lines : List Line) : Option (List Line) :=
  let lines :=
    match skipLines lines with
    | [] => []
    | line :: rest =>
        if isMark "---" line then rest else line :: rest
  let own := lines.takeWhile fun line => !isMark "..." line
  let after := lines.drop (own.length + 1)
  if own.any fun line => opens "---" line || opens "..." line
    then none
  else if (skipLines after).isEmpty then some own
  else none

/- Reads the map of a document. A document without any value
   is an empty map. -/
def readLines?
    (fuel : Nat)
    (lines : List Line) :
    Option ConfigMap :=
  match skipLines lines with
  | [] => some []
  | line :: rest =>
      let value :=
        if isEntry line.text then
          (entries? fuel true line.indent (line :: rest)).map
            fun (entries, rest) => (Tree.map entries, rest)
        else node? fuel 0 (line :: rest)
      match value with
      | some (.map entries, rest) =>
          if (skipLines rest).isEmpty then some entries
          else none
      | _ => none

/- Reads a document whose value is a map. -/
def read? (document : String) : Option ConfigMap :=
  let chars := document.toList
  let chars :=
    if chars.head? = some '\ufeff' then chars.tail else chars
  if chars.all isPrintable then
    let lines := Text.splitAtEach '\n' chars
    (body? (lines.map lineOf)).bind
      (readLines? (2 * document.length + 2))
  else none

end Yaml

end Converge
