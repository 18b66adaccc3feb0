import Converge.Web.HostName
import Converge.Web.Percent

/-
  Hosts of addresses: names, and numeric addresses of both
  families.

  Key definitions:
    * `AddressError`: what may be wrong with an address
    * `Host.parse`: the host of a common address
    * `Host.parseForeign`: the host of any other address
-/

namespace Converge

/- What may be wrong with an address. -/
inductive AddressError where
  | relative
  | emptyHost
  | invalidName
  | invalidCharacter
  | invalidIpv4
  | invalidIpv6
  | invalidPort
deriving DecidableEq

namespace AddressError

def message : AddressError → String
  | .relative => "relative URL without a base"
  | .emptyHost => "empty host"
  | .invalidName => "invalid international domain name"
  | .invalidCharacter => "invalid domain character"
  | .invalidIpv4 => "invalid IPv4 address"
  | .invalidIpv6 => "invalid IPv6 address"
  | .invalidPort => "invalid port number"

end AddressError

namespace Host

------------------------------------------------------------
-- Numeric Addresses of Four Bytes
------------------------------------------------------------

/- The value of digits of a base, of which there may be
   none. -/
def digitsInBase?
    (base : Nat)
    (digits : List Char) :
    Option Nat :=
  digits.foldlM
    (fun total digit => do
      let value ← Text.hexValue? digit
      if value < base then some (total * base + value)
      else none)
    0

/- A number that may be octal or hexadecimal, as its first
   characters tell. -/
def number? : List Char → Option Nat
  | [] => none
  | '0' :: 'x' :: digits => digitsInBase? 16 digits
  | '0' :: 'X' :: digits => digitsInBase? 16 digits
  | '0' :: digit :: digits => digitsInBase? 8 (digit :: digits)
  | digits => digitsInBase? 10 digits

/- The parts of a name, without an empty one at its end. -/
def nameParts (name : List Char) : List (List Char) :=
  let parts := Text.splitAtEach '.' name
  if 1 < parts.length && parts.getLast? = some [] then
    parts.dropLast
  else parts

/- Whether a name is meant as a numeric address. -/
def endsInNumber (name : List Char) : Bool :=
  match (nameParts name).getLast? with
  | none => false
  | some part =>
      (part ≠ [] && part.all Char.isDigit) ||
        (number? part).isSome

/- Whether numbers make an address: each but the last is a
   byte, and the last fills what remains. -/
def isIpv4 (parts : List (List Char)) : Bool :=
  match parts.mapM number? with
  | none => false
  | some numbers =>
      numbers.length ≤ 4 &&
        numbers.dropLast.all (· < 256) &&
        decide (numbers.getLastD 0 <
          Nat.pow 256 (5 - numbers.length))

------------------------------------------------------------
-- Numeric Addresses of Sixteen Bytes
------------------------------------------------------------

/- A decimal byte without leading zeros. -/
def isDecimalByte (digits : List Char) : Bool :=
  digits ≠ [] && digits.all Char.isDigit &&
    decide (digits.length ≤ 3) &&
    (digits.length = 1 || digits.head? ≠ some '0') &&
    decide (Text.digitsValue digits < 256)

/- How many 16-bit groups a group stands for: an address of
   four bytes at the end stands for two. -/
def groupSize? (last : Bool) (group : List Char) :
    Option Nat :=
  if group ≠ [] && group.length ≤ 4 &&
      group.all (fun c => (Text.hexValue? c).isSome)
  then some 1
  else
    let bytes := Text.splitAtEach '.' group
    if last && bytes.length = 4 && bytes.all isDecimalByte
    then some 2
    else none

/- How many 16-bit groups a sequence of groups stands for. -/
def groupsSize? (last : Bool) : List (List Char) → Option Nat
  | [] => some 0
  | [group] => groupSize? last group
  | group :: groups => do
      let size ← groupSize? false group
      return size + (← groupsSize? last groups)

/- The groups before and after the first pair of colons. -/
def splitAtGap :
    List Char → Option (List Char × List Char)
  | ':' :: ':' :: rest => some ([], rest)
  | c :: rest =>
      (splitAtGap rest).map fun halves =>
        (c :: halves.1, halves.2)
  | [] => none

/- The groups of a text between colons. -/
def groups (chars : List Char) : List (List Char) :=
  if chars.isEmpty then [] else Text.splitAtEach ':' chars

/- Whether a text is an address of eight groups; a pair of
   colons stands for the groups that are not written. -/
def isIpv6 (chars : List Char) : Bool :=
  match splitAtGap chars with
  | none => groupsSize? true (groups chars) = some 8
  | some (before, after) =>
      match groupsSize? false (groups before),
          groupsSize? true (groups after) with
      | some left, some right => left + right < 8
      | _, _ => false

------------------------------------------------------------
-- Hosts
------------------------------------------------------------

/- Characters that no name of a host contains. -/
def isForbidden (c : Char) : Bool :=
  c.toNat ≤ 32 || c.toNat = 127 ||
    "#/:<>?@[\\]^|%".toList.contains c

/- Characters that the host of a foreign address does not
   contain. -/
def isForeignForbidden (c : Char) : Bool :=
  "\x00\t\n\r #/:<>?@[\\]^|".toList.contains c

/- What stands between square brackets. -/
def bracketed (rest : List Char) : Except AddressError String :=
  if rest.getLast? = some ']' && isIpv6 rest.dropLast then
    .ok (Text.lower (String.ofList ('[' :: rest)))
  else .error .invalidIpv6

/- The host of a common address: a name in its usual form, or
   a numeric address. -/
def parse (chars : List Char) : Except AddressError String :=
  match chars with
  | '[' :: rest => bracketed rest
  | _ =>
      let decoded :=
        String.fromUTF8? ⟨(Percent.decode chars).toArray⟩
      let name :=
        (decoded.map String.toList).bind HostName.standard?
      match name with
      | none => .error .invalidName
      | some [] => .error .emptyHost
      | some name =>
          if name.any isForbidden then .error .invalidName
          else if endsInNumber name &&
              !isIpv4 (nameParts name) then
            .error .invalidIpv4
          else .ok (String.ofList name)

/- The host of any other address, taken as it is. -/
def parseForeign
    (chars : List Char) :
    Except AddressError String :=
  match chars with
  | '[' :: rest => bracketed rest
  | _ =>
      if chars.any isForeignForbidden then
        .error .invalidCharacter
      else
        .ok (String.ofList (Percent.encode Percent.isControl
          chars))

end Host

end Converge
