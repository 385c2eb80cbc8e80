import Depot.Json.Basic
import Depot.Text.Numeral

/-!
JSON in its compact written form: no blanks, members in key order, characters as they are unless
they must be escaped.
-/

set_option autoImplicit false
set_option relaxedAutoImplicit false

namespace Depot.Json

open Depot.Text

/-- How a double is written. -/
structure RealLayout where
  /-- Plain notation stops where the point would stand behind this many digits. -/
  greatestPoint : Int
  /-- Plain notation stops where this many zeros would follow the point. -/
  zerosAfterPoint : Int

/-- Numbers from 0.00001 up to sixteen digits before the point are plain, all others have an
exponent with its sign. -/
def realLayout : RealLayout := ⟨16, 5⟩

/-- An exponent always carries its sign. -/
def writeExponent (e : Int) : List Char :=
  'e' :: (if e < 0 then '-' else '+') :: writeNumeral e.natAbs

def writeMagnitude (d : Decimal) : List Char :=
  let digits := writeNumeral d.digits
  let point : Int := digits.length + d.exponent
  if 0 ≤ d.exponent ∧ point ≤ realLayout.greatestPoint then
    digits ++ List.replicate d.exponent.toNat '0' ++ ['.', '0']
  else if 0 < point ∧ point ≤ realLayout.greatestPoint then
    digits.take point.toNat ++ '.' :: digits.drop point.toNat
  else if point ≤ 0 ∧ -realLayout.zerosAfterPoint < point then
    '0' :: '.' :: (List.replicate (-point).toNat '0' ++ digits)
  else
    match digits with
    | [c] => c :: writeExponent (point - 1)
    | c :: rest => c :: '.' :: (rest ++ writeExponent (point - 1))
    | [] => []

def writeReal (r : Real) : List Char :=
  if r.negative then '-' :: writeMagnitude r.magnitude else writeMagnitude r.magnitude

def writeInteger (i : Integer) : List Char :=
  if i.value < 0 then '-' :: writeNumeral i.value.natAbs else writeNumeral i.value.natAbs

def hexDigit (n : Nat) : Char := Nat.digitChar (n % 16)

/-- A character inside a string. Controls without a short form are written by their number. -/
def escape (c : Char) : List Char :=
  if c = '"' then ['\\', '"']
  else if c = '\\' then ['\\', '\\']
  else if c.toNat = 0x08 then ['\\', 'b']
  else if c.toNat = 0x0C then ['\\', 'f']
  else if c = '\n' then ['\\', 'n']
  else if c = '\r' then ['\\', 'r']
  else if c = '\t' then ['\\', 't']
  else if c.toNat < 0x20 then ['\\', 'u', '0', '0', hexDigit (c.toNat / 16), hexDigit c.toNat]
  else [c]

def writeText (s : String) : List Char := '"' :: (s.toList.flatMap escape ++ ['"'])

mutual

def write : Json → List Char
  | .null => ['n', 'u', 'l', 'l']
  | .bool true => ['t', 'r', 'u', 'e']
  | .bool false => ['f', 'a', 'l', 's', 'e']
  | .integer i => writeInteger i
  | .real r => writeReal r
  | .text s => writeText s
  | .array items => '[' :: writeItems items
  | .object members => '\x7b' :: writeMembers members

/-- The items of an array and its closing bracket. -/
def writeItems : List Json → List Char
  | [] => [']']
  | [j] => write j ++ [']']
  | j :: k :: rest => write j ++ ',' :: writeItems (k :: rest)

/-- The members of an object and its closing brace. -/
def writeMembers : List (String × Json) → List Char
  | [] => ['\x7d']
  | [(key, j)] => writeText key ++ ':' :: (write j ++ ['\x7d'])
  | (key, j) :: p :: rest => writeText key ++ ':' :: (write j ++ ',' :: writeMembers (p :: rest))

end

/-- The compact text of a value. -/
def render (j : Json) : String := String.ofList j.write

end Depot.Json
