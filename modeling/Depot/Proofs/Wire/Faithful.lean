import Depot.Document.Result
import Depot.KeyValue.Basic
import Depot.Link.Definition
import Depot.Outcome
import Depot.Proofs.Wire.Record
import Depot.Settings

/-!
# Typed values survive the wire

Every value that callers send or get has a written form, and its reader gives the value back
(`Faithful`). Hence different values are written differently, and what was read in whatever form and
written once stays as it is. For a record this is seen slot by slot: the members of the written form
are those that the slots look for (`Record.Makes`), and an absent lifetime, which alone is not
written, is what its slot puts there. An outcome survives if its answer and its error do, and null
is told from an empty list because no list is written as null. `typed_values_survive` says it for
every type, and adds that no record, no bare kind and no secret is read differently when it is
spelled differently.
-/

set_option autoImplicit false
set_option relaxedAutoImplicit false

namespace Depot

open Wire (Record Slot Decoder)

namespace Wire

variable {α : Type}

/-- A reader and a writer of the values of one type, neither of which loses anything. -/
structure Faithful (decode : Decoder α) (write : α → Json) : Prop where
  /-- What is written is read back. -/
  reads_back : ∀ a, decode (write a) = .ok a
  /-- Different values have different forms. -/
  distinct : Function.Injective write
  /-- Whatever a value is read from, a second pass leaves the form in which it is written as it
  is. -/
  settled : ∀ j a, decode j = .ok a → (decode (write a)).map write = .ok (write a)

theorem Faithful.of_reads_back {decode : Decoder α} {write : α → Json}
    (h : ∀ a, decode (write a) = .ok a) : Faithful decode write where
  reads_back := h
  distinct a b hab := Except.ok.inj ((h a).symm.trans ((congrArg decode hab).trans (h b)))
  settled j a _ := by
    rw [h a]
    rfl

end Wire

/-! ## Records -/

namespace Receipt

theorem regular : record.Regular :=
  .and (.and (.and (.and (.map (.ofSlot .required))
    .required) .required) .required) .required

theorem ofJson_toJson (r : Receipt) : ofJson r.toJson = .ok r :=
  regular.decode_object ["bucket", "cas", "partition_id", "partition_uuid", "seq"] rfl (by decide)
    (.and (.and (.and (.and (.map
      (.found rfl (Wire.uint64_ofUInt64 r.cas)))
      (.found rfl rfl))
      (.found rfl (Wire.uint16_ofUInt16 r.partition)))
      (.found rfl (Wire.uint64_ofUInt64 r.uuid)))
      (.found rfl (Wire.uint64_ofUInt64 r.sequence)))

end Receipt

namespace ReadResult

theorem regular : record.Regular :=
  .and (.and (.map (.ofSlot .required)) .required) .optional

/-- A lifetime that is not written is read as none. -/
theorem ofJson_toJson (r : ReadResult) : ofJson r.toJson = .ok r := by
  obtain ⟨document, cas, expiresIn?⟩ := r
  cases expiresIn? with
  | none =>
    exact regular.decode_object ["cas", "document"] rfl (by decide)
      (.and (.and (.map
        (.found rfl (Document.ofJson_toJson document)))
        (.found rfl (Wire.uint64_ofUInt64 cas)))
        (.absent rfl rfl))
  | some n =>
    exact regular.decode_object ["cas", "document", "expires_in_ns"] rfl (by decide)
      (.and (.and (.map
        (.found rfl (Document.ofJson_toJson document)))
        (.found rfl (Wire.uint64_ofUInt64 cas)))
        (.found rfl (Wire.option_uint64 (some n))))

end ReadResult

namespace ReplicaResult

theorem regular : record.Regular :=
  .and (.and (.map (.ofSlot .required)) .required) .required

theorem ofJson_toJson (r : ReplicaResult) : ofJson r.toJson = .ok r :=
  regular.decode_object ["cas", "document", "is_replica"] rfl (by decide)
    (.and (.and (.map
      (.found rfl (Document.ofJson_toJson r.document)))
      (.found rfl (Wire.uint64_ofUInt64 r.cas)))
      (.found rfl rfl))

end ReplicaResult

namespace KeyPage

theorem regular : record.Regular :=
  .and (.map (.ofSlot .required)) .optional

theorem ofJson_toJson (p : KeyPage) : ofJson p.toJson = .ok p :=
  have htext : ∀ s, Wire.text (.text s) = .ok s := fun _ ↦ rfl
  regular.decode_object ["cursor", "keys"] rfl (by decide)
    (.and (.map
      (.found rfl (Wire.items_map htext p.keys)))
      (.found rfl (Wire.option_uint64 p.cursor?)))

end KeyPage

theorem Link.Definition.regular : Link.Definition.record.Regular :=
  .and (.and (.and (.map (.ofSlot .required)) .required) .defaulted) .defaulted

/-- An array may end before the parts that have a default. -/
example : Link.Definition.ofJson (.array [.text "caller", .text "link"]) =
    .ok ⟨"caller", "link", .empty, .empty⟩ := rfl

namespace Settings

theorem regular : record.Regular :=
  .and (.and (.and (.and (.and (.map (.ofSlot .defaulted))
    .defaulted) .defaulted) .defaulted) .defaulted) .defaulted

theorem ofJson_toJson (s : Settings) : ofJson s.toJson = .ok s :=
  regular.decode_object ["async_result_ttl_secs", "default_link_name", "eviction_interval_secs",
    "link_name_header", "readiness_timeout_ms", "source_id_header"] rfl (by decide)
    (.and (.and (.and (.and (.and (.map
      (.found rfl (Wire.uint64_ofUInt64 s.readinessMillis)))
      (.found rfl rfl))
      (.found rfl rfl))
      (.found rfl rfl))
      (.found rfl (Wire.option_uint64 s.ttlSecs?)))
      (.found rfl (Wire.uint64_ofUInt64 s.evictionSecs)))

end Settings

/-! ## Variants -/

namespace Wire

/-- A kind that is given by its bare name can be given as an object over null. -/
theorem variant_object_of_text {α : Type} {kinds : List (String × Kind α)} {name : String} {a : α}
    (h : variant kinds (.text name) = .ok a) : variant kinds (.object [(name, .null)]) = .ok a := by
  obtain ⟨kind, hkind, h⟩ := bind_eq_ok_iff.1 h
  refine bind_eq_ok_iff.2 ⟨kind, hkind, ?_⟩
  cases kind with
  | bare value => exact h
  | carrying decode => contradiction

end Wire

/-- A secret in an array is read as the object that has its kind and its value. -/
theorem Secret.ofJson_array (kind : String) (value : Json) :
    ofJson (.array [.text kind, value]) =
      ofJson (.object [("kind", .text kind), ("value", value)]) := rfl

namespace Outcome

theorem faithful {ε α : Type} {answer : Decoder α} {ofAnswer : α → Json} {error : Decoder ε}
    {ofError : ε → Json} (ha : ∀ a, answer (ofAnswer a) = .ok a)
    (he : ∀ e, error (ofError e) = .ok e) :
    Wire.Faithful (ofJson answer error) (toJson ofAnswer ofError) :=
  .of_reads_back (ofJson_toJson ha he)

end Outcome

namespace Wire

/-- Every typed value is read back from what it is written as, different values are written
differently, and whatever a type accepts is written once in a form that a second pass leaves as it
is. Members with unknown names make no difference to a record, an array is read as the object of its
items, a bare name as an object over null, and a secret in an array as one in an object. -/
theorem typed_values_survive :
    (Faithful Document.ofJson Document.toJson ∧
      Faithful DocumentError.ofJson DocumentError.toJson ∧
      Faithful StoreError.ofJson StoreError.toJson ∧
      Faithful Receipt.ofJson Receipt.toJson ∧
      Faithful ReadResult.ofJson ReadResult.toJson ∧
      Faithful ReplicaResult.ofJson ReplicaResult.toJson ∧
      Faithful KeyPage.ofJson KeyPage.toJson ∧
      Faithful Link.Definition.ofJson Link.Definition.toJson ∧
      Faithful Secret.ofJson Secret.toJson ∧
      Faithful Settings.ofJson Settings.toJson) ∧
    (Faithful (Outcome.ofJson ReadResult.ofJson DocumentError.ofJson)
        (Outcome.toJson ReadResult.toJson DocumentError.toJson) ∧
      Faithful (Outcome.ofJson Receipt.ofJson DocumentError.ofJson)
        (Outcome.toJson Receipt.toJson DocumentError.toJson) ∧
      Faithful (Outcome.ofJson uint64 StoreError.ofJson)
        (Outcome.toJson Json.ofUInt64 StoreError.toJson) ∧
      Faithful (Outcome.ofJson unit StoreError.ofJson)
        (Outcome.toJson (fun _ ↦ .null) StoreError.toJson) ∧
      Faithful (Outcome.ofJson (option bytes) StoreError.ofJson)
        (Outcome.toJson (ofOption ofBytes) StoreError.toJson)) ∧
    (Receipt.record.Lenient ∧ ReadResult.record.Lenient ∧ ReplicaResult.record.Lenient ∧
      KeyPage.record.Lenient ∧ Link.Definition.record.Lenient ∧ Settings.record.Lenient) ∧
    (∀ name e, DocumentError.ofJson (.text name) = .ok e →
      DocumentError.ofJson (.object [(name, .null)]) = .ok e) ∧
    (∀ name e, StoreError.ofJson (.text name) = .ok e →
      StoreError.ofJson (.object [(name, .null)]) = .ok e) ∧
    ∀ kind value, Secret.ofJson (.array [.text kind, value]) =
      Secret.ofJson (.object [("kind", .text kind), ("value", value)]) := by
  have hunit : ∀ u : Unit, unit .null = .ok u := fun _ ↦ rfl
  have hbytes : ∀ content?, option bytes (ofOption ofBytes content?) = .ok content? :=
    option_ofOption bytes_ofBytes fun _ h ↦ by cases h
  refine ⟨⟨.of_reads_back Document.ofJson_toJson, .of_reads_back DocumentError.ofJson_toJson,
    .of_reads_back StoreError.ofJson_toJson, .of_reads_back Receipt.ofJson_toJson,
    .of_reads_back ReadResult.ofJson_toJson, .of_reads_back ReplicaResult.ofJson_toJson,
    .of_reads_back KeyPage.ofJson_toJson, .of_reads_back Link.Definition.ofJson_toJson,
    .of_reads_back Secret.ofJson_toJson, .of_reads_back Settings.ofJson_toJson⟩,
    ⟨Outcome.faithful ReadResult.ofJson_toJson DocumentError.ofJson_toJson,
    Outcome.faithful Receipt.ofJson_toJson DocumentError.ofJson_toJson,
    Outcome.faithful uint64_ofUInt64 StoreError.ofJson_toJson,
    Outcome.faithful hunit StoreError.ofJson_toJson,
    Outcome.faithful hbytes StoreError.ofJson_toJson⟩,
    ⟨Receipt.regular.lenient, ReadResult.regular.lenient, ReplicaResult.regular.lenient,
    KeyPage.regular.lenient, Link.Definition.regular.lenient, Settings.regular.lenient⟩,
    fun _ _ ↦ variant_object_of_text, fun _ _ ↦ variant_object_of_text, Secret.ofJson_array⟩

end Wire
end Depot
