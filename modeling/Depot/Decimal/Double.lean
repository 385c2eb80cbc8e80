/-!
Decimals and the doubles nearest to them. A double is kept exactly, as a whole number times a power
of two, so that every comparison below is one of whole numbers.
-/

set_option autoImplicit false
set_option relaxedAutoImplicit false

namespace Depot

/-- The number `digits · 10 ^ exponent`. -/
structure Decimal where
  digits : Nat
  exponent : Int
  deriving DecidableEq, Repr

/-- The number `mantissa · 2 ^ exponent`. The mantissa has 53 bits, fewer only at the least
exponent. -/
structure Double where
  mantissa : Nat
  exponent : Int
  deriving DecidableEq, Repr

/-- A quotient of whole numbers, the denominator not zero. -/
structure Ratio where
  num : Nat
  den : Nat
  deriving DecidableEq, Repr

namespace Ratio

/-- The quotient times `base ^ power`. -/
def scale (r : Ratio) (base : Nat) : Int → Ratio
  | .ofNat n => ⟨r.num * base.pow n, r.den⟩
  | .negSucc n => ⟨r.num, r.den * base.pow (n + 1)⟩

def mul (r s : Ratio) : Ratio := ⟨r.num * s.num, r.den * s.den⟩

def div (r s : Ratio) : Ratio := ⟨r.num * s.den, r.den * s.num⟩

def floor (r : Ratio) : Nat := r.num / r.den

/-- Twice what is left over the floor, against one: below, on or above the half. -/
def half (r : Ratio) : Ordering := compare (2 * (r.num % r.den)) r.den

/-- The nearest whole number; a half goes to the even neighbour. -/
def round (r : Ratio) : Nat :=
  match r.half with
  | .lt => r.floor
  | .gt => r.floor + 1
  | .eq => r.floor + r.floor % 2

end Ratio

namespace Double

def leastExponent : Int := -1074

def greatestExponent : Int := 971

def zero : Double := ⟨0, leastExponent⟩

def ratio (x : Double) : Ratio := (⟨x.mantissa, 1⟩ : Ratio).scale 2 x.exponent

/-- The exponent at which the quotient has 53 bits before the point, or the least one. -/
def exponentFor (r : Ratio) : Int :=
  let low := max ((r.num.log2 : Int) - r.den.log2 - 53) leastExponent
  if (r.scale 2 (-low)).floor < 1 <<< 53 then low else low + 1

/-- The double nearest to a quotient, ties to even; none past the greatest one. -/
def nearest? (r : Ratio) : Option Double :=
  if r.num = 0 then some zero else
  let e := exponentFor r
  let m := (r.scale 2 (-e)).round
  let x : Double := if m = 0 then zero else if m = 1 <<< 53 then ⟨1 <<< 52, e + 1⟩ else ⟨m, e⟩
  if x.exponent ≤ greatestExponent then some x else none

end Double

namespace Decimal

def zero : Decimal := ⟨0, 0⟩

/-- How many digits are written before the exponent. -/
def width (d : Decimal) : Nat := (Nat.toDigits 10 d.digits).length

/-- Moves zeros at the end into the exponent. -/
def dropZeros : (fuel : Nat) → Decimal → Decimal
  | 0, d => d
  | fuel + 1, d =>
    if d.digits % 10 = 0 then dropZeros fuel ⟨d.digits / 10, d.exponent + 1⟩ else d

/-- The same number with the fewest digits. -/
def shorten (d : Decimal) : Decimal :=
  if d.digits = 0 then zero else dropZeros d.width d

def ratio (d : Decimal) : Ratio := (⟨d.digits, 1⟩ : Ratio).scale 10 d.exponent

/-- The double nearest to a decimal; none past the greatest one. -/
def toDouble? (d : Decimal) : Option Double :=
  if d.digits = 0 then some .zero else Double.nearest? d.ratio

end Decimal
end Depot
