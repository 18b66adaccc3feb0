import Converge.Yaml.Scalar

/-
  Lists and maps of YAML documents that stand in brackets.

  Key definitions:
    * `Yaml.flow?`: reading a value in brackets
-/

namespace Converge

namespace Yaml

def isBlank (c : Char) : Bool :=
  c = ' ' || c = '\t'

/- Drops blanks at the start. -/
def skipBlanks (chars : List Char) : List Char :=
  chars.dropWhile isBlank

/- Drops blanks at the end. -/
def trimBlanks (chars : List Char) : List Char :=
  Text.dropEndWhile isBlank chars

/- Characters that end a plain scalar in brackets. -/
def flowEnds : List Char :=
  [',', '[', ']', '\x7b', '\x7d']

/- Splits off a plain scalar in brackets. -/
def flowPlain : List Char → List Char × List Char
  | [] => ([], [])
  | ':' :: rest =>
      match rest with
      | [] => ([], [':'])
      | next :: _ =>
          if isBlank next || flowEnds.contains next then
            ([], ':' :: rest)
          else
            let (taken, rest) := flowPlain rest
            (':' :: taken, rest)
  | c :: rest =>
      if flowEnds.contains c then ([], c :: rest)
      else
        let (taken, rest) := flowPlain rest
        (c :: taken, rest)

/- Reads a scalar in brackets as the key of a map, up to its
   value. -/
def flowKey?
    (chars : List Char) :
    Option (String × List Char) :=
  let key : Option (String × List Char) :=
    if startsQuoted chars then
      (quoted? chars).map fun (content, rest) =>
        (String.ofList content, rest)
    else
      let (taken, rest) := flowPlain chars
      match plainTree? (trimBlanks taken) with
      | some (.str text) => some (text, rest)
      | _ => none
  key.bind fun (text, rest) =>
    match skipBlanks rest with
    | ':' :: rest => some (text, rest)
    | ',' :: rest => some (text, ',' :: rest)
    | '\x7d' :: rest => some (text, '\x7d' :: rest)
    | _ => none

/- Sets an entry before others; the last entry of a repeated
   key counts, at the place of the first. -/
def addFirst
    (key : String)
    (value : Tree)
    (rest : ConfigMap) :
    ConfigMap :=
  (key, (rest.lookup key).getD value) ::
    Keyed.erase key rest

mutual

/- Reads a value. Every step takes fuel, of which the number
   of characters is enough. -/
def flowValue? :
    Nat → List Char → Option (Tree × List Char)
  | 0, _ => none
  | fuel + 1, chars =>
      match skipBlanks chars with
      | [] => none
      | '[' :: rest =>
          match skipBlanks rest with
          | ']' :: rest => some (.list [], rest)
          | rest =>
              (flowItems? fuel rest).map fun (items, rest) =>
                (.list items, rest)
      | '\x7b' :: rest =>
          match skipBlanks rest with
          | '\x7d' :: rest => some (.map [], rest)
          | rest =>
              (flowEntries? fuel rest).map
                fun (entries, rest) => (.map entries, rest)
      | chars =>
          if startsQuoted chars then
            (quoted? chars).map fun (content, rest) =>
              (.str (String.ofList content), rest)
          else if canStartPlain chars then
            let (taken, rest) := flowPlain chars
            (plainTree? (trimBlanks taken)).map fun value =>
              (value, rest)
          else none

/- Reads the items of a list up to the closing bracket. -/
def flowItems? :
    Nat → List Char → Option (List Tree × List Char)
  | 0, _ => none
  | fuel + 1, chars => do
      let (item, rest) ← flowValue? fuel chars
      match skipBlanks rest with
      | ']' :: rest => return ([item], rest)
      | ',' :: rest =>
          match skipBlanks rest with
          | ']' :: rest => return ([item], rest)
          | rest =>
              let (items, rest) ← flowItems? fuel rest
              return (item :: items, rest)
      | _ => none

/- Reads the entries of a map up to the closing bracket. -/
def flowEntries? :
    Nat → List Char → Option (ConfigMap × List Char)
  | 0, _ => none
  | fuel + 1, chars => do
      let (key, rest) ← flowKey? (skipBlanks chars)
      let (value, rest) ←
        match skipBlanks rest with
        | ',' :: rest => some (Tree.null, ',' :: rest)
        | '\x7d' :: rest => some (Tree.null, '\x7d' :: rest)
        | rest => flowValue? fuel rest
      match skipBlanks rest with
      | '\x7d' :: rest => return ([(key, value)], rest)
      | ',' :: rest =>
          match skipBlanks rest with
          | '\x7d' :: rest => return ([(key, value)], rest)
          | rest =>
              let (entries, rest) ← flowEntries? fuel rest
              return (addFirst key value entries, rest)
      | _ => none

end

/- Reads a value in brackets that fills the whole text. -/
def flow? (chars : List Char) : Option Tree :=
  match flowValue? (chars.length + 1) chars with
  | some (value, rest) =>
      if (skipBlanks rest).isEmpty then some value else none
  | none => none

end Yaml

end Converge
