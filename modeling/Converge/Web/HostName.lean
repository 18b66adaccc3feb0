import Converge.Web.Punycode

/-
  Names of hosts beyond ASCII.

  Some characters are variants of others, some are passed
  over, and some stand in no name. A label that begins with a
  mark spells its characters in ASCII; it is a name only if
  it spells some character beyond ASCII, and no variants.

  Key definitions:
    * `HostName.standard?`: the usual form of a name
-/

namespace Converge

namespace HostName

------------------------------------------------------------
-- Classes of Characters
------------------------------------------------------------

/- Ranges of code points, with their first and last ones. -/
abbrev Ranges := List (Nat × Nat)

def within (ranges : Ranges) (c : Char) : Bool :=
  ranges.any fun range =>
    range.1 ≤ c.toNat && c.toNat ≤ range.2

/- Invisible characters that are passed over. -/
def ignored : Ranges :=
  [ (0xad, 0xad), (0x34f, 0x34f), (0x180b, 0x180d),
    (0x180f, 0x180f), (0x200b, 0x200b), (0x2060, 0x2060),
    (0x2064, 0x2064), (0xfe00, 0xfe0f), (0xfeff, 0xfeff),
    (0xe0100, 0xe01ef) ]

/- Blanks of several widths. -/
def blanks : Ranges :=
  [ (0xa0, 0xa0), (0x2000, 0x200a), (0x202f, 0x202f),
    (0x205f, 0x205f), (0x3000, 0x3000) ]

/- Full stops of other scripts. -/
def stops : Ranges :=
  [(0x3002, 0x3002), (0xff61, 0xff61)]

/- ASCII characters of full width. -/
def wide : Ranges :=
  [(0xff01, 0xff5e)]

/-
  Characters that stand in no name: controls, separators of
  lines, joiners, marks of direction, private and reserved
  ones, and signs that contain punctuation of addresses.
-/
def barred : Ranges :=
  [ (0x80, 0x9f), (0x61c, 0x61c), (0x1680, 0x1680),
    (0x180e, 0x180e), (0x200c, 0x200f), (0x2028, 0x202e),
    (0x2047, 0x2049), (0x2061, 0x2063), (0x2065, 0x206f),
    (0x2100, 0x2101), (0x2105, 0x2106), (0x2ff0, 0x2fff),
    (0xe000, 0xf8ff), (0xfdd0, 0xfdef), (0xfe13, 0xfe13),
    (0xfe16, 0xfe16), (0xfe47, 0xfe48), (0xfe55, 0xfe56),
    (0xfe5f, 0xfe5f), (0xfe64, 0xfe65), (0xfe68, 0xfe68),
    (0xfe6a, 0xfe6b), (0xfff9, 0xffff), (0x40000, 0xe00ff),
    (0xe01f0, 0x10ffff) ]

/- Characters that are variants of others: raised and capital
   letters of Latin, Greek and Cyrillic, enclosed and compatible
   forms. -/
def variants : Ranges :=
  [ (0xaa, 0xaa), (0xb2, 0xb3), (0xb5, 0xb5), (0xb9, 0xba),
    (0xbc, 0xbe), (0xc0, 0xd6), (0xd8, 0xde),
    (0x391, 0x3a9), (0x400, 0x42f), (0x2102, 0x2102),
    (0x2460, 0x24ea), (0x3200, 0x33ff), (0xf900, 0xfaff),
    (0xfb00, 0xfb06), (0xfb50, 0xfdff), (0xfe70, 0xfefc),
    (0xff5f, 0xffee), (0x1d400, 0x1d7ff),
    (0x2f800, 0x2fa1d) ]

/- Marks over the letter before them. -/
def marks : Ranges :=
  [(0x300, 0x36f)]

------------------------------------------------------------
-- Names
------------------------------------------------------------

/- What a character stands for in a name. -/
def usual? (c : Char) : Option (List Char) :=
  if within barred c then none
  else if within ignored c then some []
  else if within blanks c then some [' ']
  else if within stops c then some ['.']
  else if within wide c then
    some [(Char.ofNat (c.toNat - 0xfee0)).toLower]
  else some [c.toLower]

/- The last code point of a plane, and the one before it, stand
   for nothing. -/
def isReserved (c : Char) : Bool :=
  0xfffe ≤ c.toNat % 0x10000

/- Whether a spelled character is one that names have. -/
def isOwn (c : Char) : Bool :=
  !isReserved c && !within variants c &&
    usual? c = some [c]

/- A label without its mark spells characters that names
   have, and not of ASCII alone. -/
def isSpelling (label : List Char) : Bool :=
  match Punycode.decode? label with
  | none => false
  | some text =>
      text.all isOwn && text.any (fun c => 127 < c.toNat) &&
        !(text.head?.any (within marks))

/- Whether a label in its usual form is one. -/
def isLabel (label : List Char) : Bool :=
  match label with
  | 'x' :: 'n' :: '-' :: '-' :: spelling => isSpelling spelling
  | _ => !(label.head?.any (within marks))

/- The usual form of a name, if it has one. -/
def standard? (name : List Char) : Option (List Char) := do
  let parts ← name.mapM usual?
  let name := parts.flatten
  if name.any isReserved then none
  else if (Text.splitAtEach '.' name).all isLabel then
    some name
  else none

end HostName

end Converge
