import Depot.Decimal.Reading
import Depot.Json.Basic
import Depot.Text.Cut
import Depot.Text.Numeral
import Depot.Text.Utf8

/-!
Reading JSON. The grammar of arrays and objects is written once, over any reader of scalars and
keys, and recurses on the nesting that is still allowed; the loops inside one container run on a
fuel that its text bounds.
-/

set_option autoImplicit false
set_option relaxedAutoImplicit false

namespace Depot.Json

open Depot.Text

/-- Reads something from the front and gives back what follows it. -/
abbrev Reader (α : Type) := List Char → Option (α × List Char)

/-- The four blanks that may stand between tokens. -/
def isGap (c : Char) : Bool := c = ' ' || c = '\n' || c = '\t' || c = '\r'

def skipGap (s : List Char) : List Char := s.dropWhile isGap

/-! ## Strings -/

def hexValue? (c : Char) : Option Nat :=
  if '0' ≤ c ∧ c ≤ '9' then some (c.toNat - 48)
  else if 'a' ≤ c ∧ c ≤ 'f' then some (c.toNat - 87)
  else if 'A' ≤ c ∧ c ≤ 'F' then some (c.toNat - 55)
  else none

/-- Four hexadecimal digits. -/
def unit? : Reader Nat
  | a :: b :: c :: d :: rest => do
    let a ← hexValue? a
    let b ← hexValue? b
    let c ← hexValue? c
    let d ← hexValue? d
    some (((a * 16 + b) * 16 + c) * 16 + d, rest)
  | _ => none

def isLeading (n : Nat) : Bool := 0xD800 ≤ n && n ≤ 0xDBFF

def isTrailing (n : Nat) : Bool := 0xDC00 ≤ n && n ≤ 0xDFFF

/-- The character after `\u`. A leading surrogate needs its trailing one behind it, and neither may
stand alone. -/
def escapedUnit? (s : List Char) : Option (Char × List Char) := do
  let (n, rest) ← unit? s
  if isTrailing n then none
  else if isLeading n then
    match rest with
    | '\\' :: 'u' :: rest => do
      let (m, rest) ← unit? rest
      if isTrailing m then
        some (Char.ofNat (0x10000 + (n - 0xD800) * 0x400 + (m - 0xDC00)), rest)
      else none
    | _ => none
  else some (Char.ofNat n, rest)

/-- What may follow a backslash, given what may follow `\u`. -/
def escapeWith (unit : Reader Char) : Reader Char
  | '"' :: rest => some ('"', rest)
  | '\\' :: rest => some ('\\', rest)
  | '/' :: rest => some ('/', rest)
  | 'b' :: rest => some ('\x08', rest)
  | 'f' :: rest => some ('\x0c', rest)
  | 'n' :: rest => some ('\n', rest)
  | 'r' :: rest => some ('\r', rest)
  | 't' :: rest => some ('\t', rest)
  | 'u' :: rest => unit rest
  | _ => none

/-- The characters up to the closing quote. Controls must be escaped. -/
def quotedBody (unit : Reader Char) : (fuel : Nat) → Reader (List Char)
  | 0, _ => none
  | _ + 1, [] => none
  | fuel + 1, c :: rest =>
    if c = '"' then some ([], rest)
    else if c = '\\' then do
      let (d, rest) ← escapeWith unit rest
      let (s, rest) ← quotedBody unit fuel rest
      some (d :: s, rest)
    else if c.toNat < 0x20 then none
    else do
      let (s, rest) ← quotedBody unit fuel rest
      some (c :: s, rest)

def quotedWith (unit : Reader Char) : Reader String
  | '"' :: rest => (quotedBody unit rest.length rest).map fun p ↦ (String.ofList p.1, p.2)
  | _ => none

def quoted : Reader String := quotedWith escapedUnit?

/-! ## Numbers -/

/-- A number as it is written. -/
structure Written where
  negative : Bool
  front : List Char
  /-- The digits behind the point, where there is one. -/
  behind? : Option (List Char)
  exponent? : Option Int
  deriving DecidableEq, Repr

def digitRun (s : List Char) : List Char × List Char :=
  (s.takeWhile Char.isDigit, s.dropWhile Char.isDigit)

/-- One digit at least. -/
def digits1? (s : List Char) : Option (List Char × List Char) :=
  let (digits, rest) := digitRun s
  if digits = [] then none else some (digits, rest)

def behindPoint? : Reader (Option (List Char))
  | '.' :: rest => (digits1? rest).map fun p ↦ (some p.1, p.2)
  | s => some (none, s)

def power? : Reader Int
  | '-' :: rest => (digits1? rest).map fun p ↦ (-(Nat.ofDigitChars 10 p.1 0 : Int), p.2)
  | '+' :: rest => (digits1? rest).map fun p ↦ ((Nat.ofDigitChars 10 p.1 0 : Int), p.2)
  | s => (digits1? s).map fun p ↦ ((Nat.ofDigitChars 10 p.1 0 : Int), p.2)

def exponentPart? : Reader (Option Int)
  | 'e' :: rest => (power? rest).map fun p ↦ (some p.1, p.2)
  | 'E' :: rest => (power? rest).map fun p ↦ (some p.1, p.2)
  | s => some (none, s)

/-- The digits before the point: a leading zero stands alone. -/
def front? (s : List Char) : Option (List Char × List Char) := do
  let (digits, rest) ← digits1? s
  if digits.head? = some '0' ∧ digits.length ≠ 1 then none else some (digits, rest)

def unsigned? (negative : Bool) (s : List Char) : Option (Written × List Char) := do
  let (front, rest) ← front? s
  let (behind?, rest) ← behindPoint? rest
  let (exponent?, rest) ← exponentPart? rest
  some (⟨negative, front, behind?, exponent?⟩, rest)

def written? : Reader Written
  | '-' :: rest => unsigned? true rest
  | s => unsigned? false s

/-- A number without point and exponent stays whole if 64 bits hold it; the negative zero is a
double. -/
def Written.whole? (w : Written) : Option Integer :=
  if w.behind?.isSome || w.exponent?.isSome then none else
  let n : Nat := Nat.ofDigitChars 10 w.front 0
  if w.negative then (if n = 0 then none else Integer.ofInt? (-n)) else Integer.ofInt? n

/-- The value of a written number; none if it lies beyond the doubles. -/
def Written.value? (w : Written) : Option Json :=
  match w.whole? with
  | some i => some (.integer i)
  | none =>
    (Real.read? w.negative w.front (w.behind?.getD []) (w.exponent?.getD 0)).map Json.real

def number : Reader Json := fun s ↦ do
  let (w, rest) ← written? s
  let j ← w.value?
  some (j, rest)

/-! ## Values -/

/-- Scalars, given how words, strings and numbers are read. -/
def scalarWith {α : Type} (word : List Char → Json → Reader α) (text number : Reader α) : Reader α
  | 'n' :: rest => word ['u', 'l', 'l'] .null rest
  | 't' :: rest => word ['r', 'u', 'e'] (.bool true) rest
  | 'f' :: rest => word ['a', 'l', 's', 'e'] (.bool false) rest
  | '"' :: rest => text ('"' :: rest)
  | s => number s

def scalar : Reader Json :=
  scalarWith (fun tail j s ↦ (behind? tail s).map fun rest ↦ (j, rest))
    (fun s ↦ (quoted s).map fun p ↦ (.text p.1, p.2)) number

variable {κ α : Type}

/-- Items up to the closing bracket, the first one already due. -/
def items (value : Reader α) : (fuel : Nat) → Reader (List α)
  | 0, _ => none
  | fuel + 1, s => do
    let (v, rest) ← value (skipGap s)
    match skipGap rest with
    | ',' :: rest => do
      let (vs, rest) ← items value fuel rest
      some (v :: vs, rest)
    | ']' :: rest => some ([v], rest)
    | _ => none

/-- One key, the colon and the value behind it. -/
def member (key : Reader κ) (value : Reader α) : Reader (κ × α) := fun s ↦ do
  let (k, rest) ← key (skipGap s)
  match skipGap rest with
  | ':' :: rest => do
    let (v, rest) ← value (skipGap rest)
    some ((k, v), rest)
  | _ => none

/-- Members up to the closing brace, the first one already due. -/
def memberList (entry : Reader α) : (fuel : Nat) → Reader (List α)
  | 0, _ => none
  | fuel + 1, s => do
    let (p, rest) ← entry s
    match skipGap rest with
    | ',' :: rest => do
      let (ps, rest) ← memberList entry fuel rest
      some (p :: ps, rest)
    | '\x7d' :: rest => some ([p], rest)
    | _ => none

/-- The rest of an array behind its opening bracket. -/
def arrayRest (value : Reader α) (s : List Char) : Option (List α × List Char) :=
  match skipGap s with
  | ']' :: rest => some ([], rest)
  | _ => items value s.length s

/-- The rest of an object behind its opening brace. -/
def objectRest (entry : Reader α) (s : List Char) : Option (List α × List Char) :=
  match skipGap s with
  | '\x7d' :: rest => some ([], rest)
  | _ => memberList entry s.length s

/-- How the parts of a value are read and put together. -/
structure Grammar (κ α : Type) where
  scalar : Reader α
  key : Reader κ
  array : List α → α
  object : List (κ × α) → α

/-- A value with at most the given number of containers inside one another. -/
def Grammar.value (g : Grammar κ α) : (nesting : Nat) → Reader α
  | 0, '[' :: _ => none
  | 0, '\x7b' :: _ => none
  | 0, s => g.scalar s
  | n + 1, '[' :: rest => (arrayRest (g.value n) rest).map fun p ↦ (g.array p.1, p.2)
  | n + 1, '\x7b' :: rest =>
    (objectRest (member g.key (g.value n)) rest).map fun p ↦ (g.object p.1, p.2)
  | _ + 1, s => g.scalar s

/-- Values as such; of equal keys the last one stays. -/
def grammar : Grammar String Json := ⟨scalar, quoted, .array, ofMembers⟩

/-- Values are read with up to this many containers inside one another. -/
def nestingLimit : Nat := 127

def value (nesting : Nat) : Reader Json := grammar.value nesting

/-- One reader over a whole text, with blanks around. -/
def whole (read : Reader α) (s : List Char) : Option α := do
  let (v, rest) ← read (skipGap s)
  if skipGap rest = [] then some v else none

def parseChars (s : List Char) : Option Json := whole (value nestingLimit) s

/-- The value that the bytes of a JSON text stand for. -/
def parse (s : Bytes) : Option Json := (decodeChars s).toOption.bind parseChars

end Depot.Json
