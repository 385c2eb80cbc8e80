import Depot.Decimal.Shortest
import Depot.Fields

/-!
JSON values. Whole numbers of 64 bits keep their identity, every other number is a double; the
members of an object stand in the order of their keys.
-/

set_option autoImplicit false
set_option relaxedAutoImplicit false

namespace Depot

/-- A whole number that fits 64 bits, with a sign or without. -/
structure Integer where
  value : Int
  lower : -0x8000000000000000 ≤ value
  upper : value < 0x10000000000000000
  deriving DecidableEq

namespace Integer

def ofUInt64 (n : UInt64) : Integer :=
  ⟨n.toNat, by omega, by have := n.toNat_lt; omega⟩

def ofInt? (i : Int) : Option Integer :=
  if h : -0x8000000000000000 ≤ i ∧ i < 0x10000000000000000 then some ⟨i, h.1, h.2⟩ else none

/-- The number as an unsigned one, where it has no sign. -/
def toUInt64? (i : Integer) : Option UInt64 :=
  if 0 ≤ i.value then some (.ofNat i.value.toNat) else none

theorem toUInt64?_ofUInt64 (n : UInt64) : (ofUInt64 n).toUInt64? = some n := by
  simp [toUInt64?, ofUInt64]

end Integer

inductive Json where
  | null
  | bool (value : Bool)
  | integer (value : Integer)
  | real (value : Real)
  | text (value : String)
  | array (items : List Json)
  | object (members : List (String × Json))
  deriving BEq

instance : Inhabited Json := ⟨.null⟩

namespace Json

def ofUInt64 (n : UInt64) : Json := .integer (.ofUInt64 n)

def members? : Json → Option (Members Json)
  | .object members => some members
  | _ => none

def text? : Json → Option String
  | .text s => some s
  | _ => none

def integer? : Json → Option Integer
  | .integer i => some i
  | _ => none

/-- The value as an unsigned 64-bit number; a double is none, whatever its value. -/
def toUInt64? (j : Json) : Option UInt64 := j.integer?.bind Integer.toUInt64?

/-- The member of an object under a key. -/
def get? (j : Json) (key : String) : Option Json := j.members?.bind fun m ↦ Members.get? m key

/-- An object from members in any order; of equal keys the last one stays. -/
def ofMembers (members : List (String × Json)) : Json := .object (Members.ofList members)

def ofTexts (t : Fields String) : Json := .object (t.members.map fun p ↦ (p.1, .text p.2))

theorem toUInt64?_ofUInt64 (n : UInt64) : (ofUInt64 n).toUInt64? = some n := by
  simp [toUInt64?, ofUInt64, integer?, Integer.toUInt64?_ofUInt64]

end Json
end Depot
