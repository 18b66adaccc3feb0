import Converge.Text

/-
  Percent-encoding.

  A character that has no place of its own in a part of an
  address is written as its UTF-8 bytes, each as a percent
  sign and two hexadecimal digits.

  Key definitions:
    * `Percent.encode`: the text of a part
    * `Percent.decode`: the bytes that a text stands for
-/

namespace Converge

namespace Percent

/- The digit of a hexadecimal place, in upper case. -/
def hexDigit (place : Nat) : Char :=
  if place < 10 then Char.ofNat ('0'.toNat + place)
  else Char.ofNat ('A'.toNat + (place - 10))

/- A byte as three characters. -/
def encodeByte (byte : UInt8) : List Char :=
  ['%', hexDigit (byte.toNat / 16), hexDigit (byte.toNat % 16)]

/- A character as it stands in a part in which some are
   reserved. -/
def encodeChar
    (reserved : Char → Bool)
    (c : Char) :
    List Char :=
  if reserved c then
    (String.utf8EncodeChar c).flatMap encodeByte
  else [c]

/- The text of a part in which some characters are
   reserved. -/
def encode
    (reserved : Char → Bool)
    (chars : List Char) :
    List Char :=
  chars.flatMap (encodeChar reserved)

/- The byte that two hexadecimal digits stand for. -/
def byte? (high low : Char) : Option UInt8 := do
  let high ← Text.hexValue? high
  let low ← Text.hexValue? low
  return UInt8.ofNat (high * 16 + low)

/- The bytes that a text stands for. A percent sign without
   two digits after it stands for itself. -/
def decode : List Char → List UInt8
  | '%' :: high :: low :: rest =>
      match byte? high low with
      | some byte => byte :: decode rest
      | none =>
          String.utf8EncodeChar '%' ++
            decode (high :: low :: rest)
  | c :: rest => String.utf8EncodeChar c ++ decode rest
  | [] => []

------------------------------------------------------------
-- Reserved Characters
------------------------------------------------------------

/- Characters that never stand for themselves. -/
def isControl (c : Char) : Bool :=
  c.toNat < 32 || 126 < c.toNat

/- Characters reserved in the query of an address. -/
def reservedInQuery (c : Char) : Bool :=
  isControl c || " \"#<>'".toList.contains c

/- Characters reserved in a path that is given as a whole,
   with its slashes. -/
def reservedInPath (c : Char) : Bool :=
  isControl c || " \"#<>?`\x7b\x7d".toList.contains c

/- Characters reserved in a single segment of a path. -/
def reservedInSegment (c : Char) : Bool :=
  reservedInPath c || "/%\\".toList.contains c

end Percent

end Converge
