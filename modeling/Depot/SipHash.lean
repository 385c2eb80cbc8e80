/-!
The keyed hash SipHash with one round for each word of input and three rounds at the end, under the
zero key. It spreads short texts evenly over any number of places.
-/

set_option autoImplicit false
set_option relaxedAutoImplicit false

namespace Depot.SipHash

/-- The four words that a hash is computed in. -/
structure State where
  v0 : UInt64
  v1 : UInt64
  v2 : UInt64
  v3 : UInt64
  deriving DecidableEq, Repr

def start : State :=
  ⟨0x736f6d6570736575, 0x646f72616e646f6d, 0x6c7967656e657261, 0x7465646279746573⟩

def rotate (x : UInt64) (n : UInt64) : UInt64 := (x <<< n) ||| (x >>> (64 - n))

def round (s : State) : State :=
  let v0 := s.v0 + s.v1
  let v1 := rotate s.v1 13 ^^^ v0
  let v0 := rotate v0 32
  let v2 := s.v2 + s.v3
  let v3 := rotate s.v3 16 ^^^ v2
  let v0 := v0 + v3
  let v3 := rotate v3 21 ^^^ v0
  let v2 := v2 + v1
  let v1 := rotate v1 17 ^^^ v2
  let v2 := rotate v2 32
  ⟨v0, v1, v2, v3⟩

/-- Takes in one word of input. -/
def absorb (s : State) (word : UInt64) : State :=
  let t := round { s with v3 := s.v3 ^^^ word }
  { t with v0 := t.v0 ^^^ word }

/-- Eight bytes or fewer as one word, the first byte lowest. -/
def word (bytes : List UInt8) : UInt64 := bytes.foldr (fun b w ↦ (w <<< 8) ||| b.toUInt64) 0

/-- The full words of the input, then the rest under the length of it all. -/
def absorbAll (length : Nat) : State → List UInt8 → State
  | s, a :: b :: c :: d :: e :: f :: g :: h :: rest =>
    absorbAll length (absorb s (word [a, b, c, d, e, f, g, h])) rest
  | s, rest => absorb s (word rest ||| (UInt64.ofNat length <<< 56))

def finish (s : State) : UInt64 :=
  let t := round (round (round { s with v2 := s.v2 ^^^ 0xff }))
  t.v0 ^^^ t.v1 ^^^ t.v2 ^^^ t.v3

def hash (bytes : List UInt8) : UInt64 := finish (absorbAll bytes.length start bytes)

end Depot.SipHash
