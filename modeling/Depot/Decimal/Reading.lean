import Depot.Decimal.Shortest

/-!
How a written number becomes a double. The digits are gathered in a 64-bit whole number: digits
that no longer fit count as zeros before the point and not at all behind it. The whole number is
rounded to a double and then multiplied or divided once by a rounded power of ten. Up to fifteen
digits this is the nearest double; past that the last place may differ from it.
-/

set_option autoImplicit false
set_option relaxedAutoImplicit false

namespace Depot

namespace Double

/-- The largest power of ten that is a double. -/
def greatestTenPower : Nat := 308

/-- The double nearest to a power of ten within range. -/
def tenTo (n : Nat) : Double := (nearest? ⟨Nat.pow 10 n, 1⟩).getD zero

def mul? (x y : Double) : Option Double := nearest? (x.ratio.mul y.ratio)

def div? (x y : Double) : Option Double := nearest? (x.ratio.div y.ratio)

/-- Moves the point by `power` places. Past the greatest power of ten a division takes several
rounds; the third can only be of zero. -/
def shift? : (rounds : Nat) → Double → (power : Int) → Option Double
  | 0, _, _ => some zero
  | rounds + 1, x, power =>
    if power.natAbs ≤ greatestTenPower then
      if 0 ≤ power then mul? x (tenTo power.natAbs) else div? x (tenTo power.natAbs)
    else if x = zero then some zero
    else if 0 ≤ power then none
    else
      match div? x (tenTo greatestTenPower) with
      | some y => shift? rounds y (power + greatestTenPower)
      | none => none

/-- The double that a gathered whole number and a power of ten stand for; none past the greatest
double. -/
def ofParts? (whole : Nat) (power : Int) : Option Double :=
  match nearest? ⟨whole, 1⟩ with
  | some x => shift? 3 x power
  | none => none

end Double

/-- Digits gathered so far in a 64-bit whole number, and how many of them there are. -/
structure Gathered where
  whole : Nat
  count : Nat
  deriving DecidableEq, Repr

namespace Gathered

/-- Takes digits up to the first that does not fit any more. -/
def take (g : Gathered) : List Char → Gathered
  | [] => g
  | c :: rest =>
    let whole := g.whole * 10 + (c.toNat - 48)
    if whole < UInt64.size then take ⟨whole, g.count + 1⟩ rest else g

end Gathered

namespace Real

/-- The double for the digits before the point, those behind it, and the written exponent. -/
def read? (negative : Bool) (front behind : List Char) (power : Int) : Option Real :=
  let g := (⟨0, 0⟩ : Gathered).take front
  let h := (⟨g.whole, 0⟩ : Gathered).take behind
  match Double.ofParts? h.whole (power + (front.length - g.count : Nat) - h.count) with
  | some x => ofDouble? negative x
  | none => none

end Real
end Depot
