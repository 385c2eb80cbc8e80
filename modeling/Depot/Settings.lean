import Depot.Wire.Record

/-!
The settings of a provider. Every one of them has a default.
-/

set_option autoImplicit false
set_option relaxedAutoImplicit false

namespace Depot

open Wire (Record)

structure Settings where
  /-- How long attaching a link waits for its bucket, in milliseconds. -/
  readinessMillis : UInt64 := 5000
  /-- The header that names the calling component. -/
  sourceHeader : String := "source-id"
  /-- The header that selects one of the caller's links. -/
  linkHeader : String := "link-name"
  /-- The link for requests that select none. -/
  defaultLink : String := "default"
  /-- How long a result waits to be fetched, in seconds; none is for ever. -/
  ttlSecs? : Option UInt64 := none
  /-- How often results that waited too long are dropped, in seconds. -/
  evictionSecs : UInt64 := 60
  deriving DecidableEq, Repr

namespace Settings

instance : Inhabited Settings := ⟨{}⟩

def nanosPerSec : Nat := 1000000000

/-- The time that a result waits to be fetched, in nanoseconds. -/
def ttl? (s : Settings) : Option Nat := s.ttlSecs?.map fun n ↦ n.toNat * nanosPerSec

/-- The seconds between two sweeps; at least one. -/
def sweepSecs (s : Settings) : Nat := max s.evictionSecs.toNat 1

def toJson (s : Settings) : Json :=
  .object [("async_result_ttl_secs", Wire.ofOption .ofUInt64 s.ttlSecs?),
    ("default_link_name", .text s.defaultLink),
    ("eviction_interval_secs", .ofUInt64 s.evictionSecs),
    ("link_name_header", .text s.linkHeader),
    ("readiness_timeout_ms", .ofUInt64 s.readinessMillis),
    ("source_id_header", .text s.sourceHeader)]

def record : Record Settings :=
  let d : Settings := {}
  ((((((Record.ofSlot (.defaulted "readiness_timeout_ms" Wire.uint64 d.readinessMillis)).map
    Settings.mk).and
    (.defaulted "source_id_header" Wire.text d.sourceHeader)).and
    (.defaulted "link_name_header" Wire.text d.linkHeader)).and
    (.defaulted "default_link_name" Wire.text d.defaultLink)).and
    (.defaulted "async_result_ttl_secs" (Wire.option Wire.uint64) d.ttlSecs?)).and
    (.defaulted "eviction_interval_secs" Wire.uint64 d.evictionSecs)

def ofJson : Wire.Decoder Settings := record.decode

/-- The names under which settings are given. -/
def names : List String := record.checks.map Prod.fst

end Settings
end Depot
