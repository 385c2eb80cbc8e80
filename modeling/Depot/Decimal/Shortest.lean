import Depot.Decimal.Double

/-!
The shortest decimal that names a double. Grids of one, two, … seventeen digits are tried in this
order, on each the value's two neighbours, the nearer one first; the first decimal that reads back
is taken. `settle` puts the two directions together, and what it gives it leaves alone.
-/

set_option autoImplicit false
set_option relaxedAutoImplicit false

namespace Depot

namespace Ratio

/-- The place of the first digit: the least power of ten above the quotient, which lies within one
of the estimate from the binary length. -/
def place (r : Ratio) : Int :=
  let guess := (((r.num.log2 : Int) - r.den.log2) * 30103) / 100000
  let below (p : Int) : Bool := (r.scale 10 (-p)).floor = 0
  if below (guess - 1) then guess - 1
  else if below guess then guess
  else if below (guess + 1) then guess + 1
  else guess + 2

/-- The two neighbours on the grid with the given exponent, the nearer one first. -/
def neighbours (r : Ratio) (exponent : Int) : List Decimal :=
  let s := r.scale 10 (-exponent)
  let low : Decimal := ⟨s.floor, exponent⟩
  let high : Decimal := ⟨s.floor + 1, exponent⟩
  match s.half with
  | .lt => [low, high]
  | .gt => [high, low]
  | .eq => if s.floor % 2 = 0 then [low, high] else [high, low]

end Ratio

namespace Double

/-- Seventeen digits tell any two doubles apart. -/
def digitsEnough : Nat := 17

def candidates (x : Double) : List Decimal :=
  (List.range digitsEnough).flatMap fun (n : Nat) ↦
    (x.ratio.neighbours (x.ratio.place - (n + 1))).map Decimal.shorten

def shortest? (x : Double) : Option Decimal :=
  if x = zero then some .zero else x.candidates.find? fun d ↦ d.toDouble? = some x

theorem toDouble?_of_shortest? {x : Double} {d : Decimal} (h : x.shortest? = some d) :
    d.toDouble? = some x := by
  unfold shortest? at h
  split at h
  · rename_i hx
    rw [← Option.some.inj h, hx]
    rfl
  · simpa using List.find?_some h

end Double

namespace Decimal

/-- The shortest decimal with the same nearest double. -/
def settle (d : Decimal) : Option Decimal := d.toDouble?.bind Double.shortest?

end Decimal

/-- A double with its sign, kept as the shortest decimal that names it. -/
structure Real where
  negative : Bool
  magnitude : Decimal
  settled : magnitude.settle = some magnitude
  deriving DecidableEq

namespace Real

/-- The decimal of a double with seventeen digits or fewer, which every finite one has. -/
def ofDouble? (negative : Bool) (x : Double) : Option Real :=
  match h : x.shortest? with
  | some d => some ⟨negative, d, by simp [Decimal.settle, Double.toDouble?_of_shortest? h, h]⟩
  | none => none

end Real
end Depot
