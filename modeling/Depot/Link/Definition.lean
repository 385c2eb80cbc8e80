import Depot.Link.Secret
import Depot.Wire.Record

/-!
Links as the host defines them: one calling component, one name, and what is needed to connect.
-/

set_option autoImplicit false
set_option relaxedAutoImplicit false

namespace Depot.Link

open Wire (Record)

structure Definition where
  source : String
  name : String
  config : Fields String := .empty
  secrets : Fields Secret := .empty
  deriving DecidableEq

namespace Definition

def toJson (d : Definition) : Json :=
  .object [("link_name", .text d.name), ("source_id", .text d.source),
    ("target_config", .ofTexts d.config), ("target_secrets", Wire.ofFields Secret.toJson d.secrets)]

def record : Record Definition :=
  ((((Record.ofSlot (.required "source_id" Wire.text)).map Definition.mk).and
    (.required "link_name" Wire.text)).and
    (.defaulted "target_config" (Wire.fields Wire.text) .empty)).and
    (.defaulted "target_secrets" (Wire.fields Secret.ofJson) .empty)

def ofJson : Wire.Decoder Definition := record.decode

theorem ofJson_toJson (d : Definition) : ofJson d.toJson = .ok d := by
  have htext : ∀ s, Wire.text (.text s) = .ok s := fun _ ↦ rfl
  have hconfig : Wire.fields Wire.text (Wire.ofFields .text d.config) = .ok d.config :=
    Wire.fields_ofFields htext d.config
  have hsecrets : Wire.fields Secret.ofJson (Wire.ofFields Secret.toJson d.secrets) =
      .ok d.secrets := Wire.fields_ofFields Secret.ofJson_toJson d.secrets
  change record.decode (.object [("link_name", .text d.name), ("source_id", .text d.source),
    ("target_config", Wire.ofFields .text d.config),
    ("target_secrets", Wire.ofFields Secret.toJson d.secrets)]) = _
  simp [Record.decode, record, Record.check, Record.and, Record.ofSlot, Record.map,
    Wire.Slot.required, Wire.Slot.defaulted, Members.get?, htext, hconfig,
    hsecrets, Except.map]
  rfl

end Definition
end Depot.Link
