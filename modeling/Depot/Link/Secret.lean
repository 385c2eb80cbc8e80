import Depot.Text.Utf8
import Depot.Wire.Variant

/-!
Secrets that come with a link. The kind stands beside the value, not around it, and a report on a
secret never shows what it holds.
-/

set_option autoImplicit false
set_option relaxedAutoImplicit false

namespace Depot

inductive Secret where
  | string (text : String)
  | bytes (content : Bytes)
  deriving DecidableEq

namespace Secret

/-- The secret as text, if it is one. -/
def reveal? : Secret → Option String
  | string text => some text
  | bytes content => Text.decode? content

/-- What a report shows of any secret. -/
def report (_ : Secret) : String := "SecretValue(<redacted>)"

def toJson : Secret → Json
  | string text => .object [("kind", .text "String"), ("value", .text text)]
  | bytes content => .object [("kind", .text "Bytes"), ("value", Wire.ofBytes content)]

/-- The reader of the value beside a kind. -/
def content : Wire.Decoder (Wire.Decoder Secret) :=
  Wire.variant [("String", .bare fun j ↦ (Wire.text j).map string),
    ("Bytes", .bare fun j ↦ (Wire.bytes j).map bytes)]

/-- The kind and the value, by name or in this order. In an array the kind is its bare name. -/
def ofJson : Wire.Decoder Secret
  | .object members =>
    match Members.get? members "kind" with
    | none => .error (.missing "kind")
    | some kind => do
      let decode ← content kind
      match Members.get? members "value" with
      | none => .error (.missing "value")
      | some value => decode value
  | .array [.text kind, value] => do
    let decode ← content (.text kind)
    decode value
  | _ => .error .shape

theorem ofJson_toJson (s : Secret) : ofJson s.toJson = .ok s := by
  cases s with
  | string text => rfl
  | bytes b =>
    change (Wire.bytes (Wire.ofBytes b)).map bytes = _
    rw [Wire.bytes_ofBytes]
    rfl

end Secret
end Depot
