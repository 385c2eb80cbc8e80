import Depot.Fault
import Depot.Wire.Record
import Depot.Wire.Variant

/-!
What key-value operations answer beside plain values.
-/

set_option autoImplicit false
set_option relaxedAutoImplicit false

namespace Depot

open Wire (Record)

/-- What callers learn of a failed key-value operation. -/
inductive StoreError where
  | noSuchStore
  | accessDenied
  | other (text : String)
  deriving DecidableEq, Repr

namespace StoreError

def message : StoreError → String
  | noSuchStore => "no such store"
  | accessDenied => "access denied"
  | other text => text

/-- A fault is told by its kind alone. -/
def ofFault : Fault → StoreError
  | .authentication => accessDenied
  | f => other f.kind

def toJson : StoreError → Json
  | noSuchStore => .text "no-such-store"
  | accessDenied => .text "access-denied"
  | other text => Wire.tagged "other" (.text text)

def ofJson : Wire.Decoder StoreError :=
  Wire.variant [("no-such-store", .bare noSuchStore), ("access-denied", .bare accessDenied),
    ("other", .carrying fun j ↦ (Wire.text j).map other)]

theorem ofJson_toJson (e : StoreError) : ofJson e.toJson = .ok e := by cases e <;> rfl

end StoreError

/-- A page of keys, and where the next one starts. -/
structure KeyPage where
  keys : List String := []
  cursor? : Option UInt64 := none
  deriving DecidableEq, Repr

namespace KeyPage

def toJson (p : KeyPage) : Json :=
  .object [("cursor", Wire.ofOption .ofUInt64 p.cursor?), ("keys", .array (p.keys.map .text))]

def record : Record KeyPage :=
  ((Record.ofSlot (.required "keys" (Wire.list Wire.text))).map KeyPage.mk).and
    (.optional "cursor" Wire.uint64)

def ofJson : Wire.Decoder KeyPage := record.decode

end KeyPage
end Depot
