import Depot.Wire.Decoder

/-!
Variants: values of one of several named kinds. A kind with content is an object with the kind's
name as its only key; a kind without content is its bare name, or such an object over null.
-/

set_option autoImplicit false
set_option relaxedAutoImplicit false

namespace Depot.Wire

/-- What a kind carries. -/
inductive Kind (α : Type) where
  | bare (value : α)
  | carrying (decode : Decoder α)

variable {α : Type}

def kind? (kinds : List (String × Kind α)) (name : String) : Except Mismatch (Kind α) :=
  accept ((kinds.find? fun k ↦ k.1 = name).map Prod.snd)

def variant (kinds : List (String × Kind α)) : Decoder α
  | .text name => do
    match ← kind? kinds name with
    | .bare a => .ok a
    | .carrying _ => .error .shape
  | .object [(name, j)] => do
    match ← kind? kinds name with
    | .bare a => (unit j).map fun _ ↦ a
    | .carrying decode => decode j
  | _ => .error .shape

/-- The written form of a kind with content. -/
def tagged (name : String) (content : Json) : Json := .object [(name, content)]

end Depot.Wire
