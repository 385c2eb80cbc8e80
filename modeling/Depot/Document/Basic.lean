import Depot.Fault
import Depot.Json.Printer
import Depot.Text.Utf8
import Depot.Wire.Variant

/-!
Documents as callers send and get them. A raw document is stored as its own bytes and a JSON
document as its compact text; what is stored always comes back raw, and only if it is text.
-/

set_option autoImplicit false
set_option relaxedAutoImplicit false

namespace Depot

inductive Document where
  | raw (text : String)
  | json (value : Json)
  deriving BEq

/-- What callers learn of a failed document operation. -/
inductive DocumentError where
  | notFound
  | alreadyExists
  | notJson
  | invalidValue
  | other
  deriving DecidableEq, Repr

namespace DocumentError

def message : DocumentError → String
  | notFound => "document not found"
  | alreadyExists => "document already exists"
  | notJson => "document is not valid content"
  | invalidValue => "invalid value"
  | other => "backend failure"

/-- Faults that callers can act on keep their meaning; all others are one. -/
def ofFault : Fault → DocumentError
  | .documentNotFound => notFound
  | .documentExists => alreadyExists
  | .decoding _ => notJson
  | .invalidArgument _ => invalidValue
  | _ => other

def name : DocumentError → String
  | notFound => "not-found"
  | alreadyExists => "already-exists"
  | notJson => "not-json"
  | invalidValue => "invalid-value"
  | other => "other"

def all : List DocumentError := [notFound, alreadyExists, notJson, invalidValue, other]

def toJson (e : DocumentError) : Json := .text e.name

def ofJson : Wire.Decoder DocumentError := Wire.variant (all.map fun e ↦ (e.name, .bare e))

theorem ofJson_toJson (e : DocumentError) : ofJson e.toJson = .ok e := by cases e <;> rfl

end DocumentError

namespace Document

def toBytes : Document → Bytes
  | raw text => Text.encode text
  | json value => Text.encodeChars value.write

/-- Stored content is handed back raw; it must be text. -/
def ofBytes (content : Bytes) : Except DocumentError Document :=
  match Text.decode? content with
  | some text => .ok (raw text)
  | none => .error .notJson

def toJson : Document → Json
  | raw text => Wire.tagged "raw" (.text text)
  | json value => Wire.tagged "json" value

def ofJson : Wire.Decoder Document :=
  Wire.variant [("raw", .carrying fun j ↦ (Wire.text j).map raw),
    ("json", .carrying fun j ↦ .ok (json j))]

theorem ofJson_toJson (d : Document) : ofJson d.toJson = .ok d := by cases d <;> rfl

end Document
end Depot
