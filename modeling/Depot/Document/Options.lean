import Depot.Call
import Depot.Wire.Record

/-!
The options of document operations as callers send them. Every part has a default; times come in
nanoseconds.
-/

set_option autoImplicit false
set_option relaxedAutoImplicit false

namespace Depot.Options

open Wire (Slot Record)

def timeoutSlot : Slot (Option UInt64) :=
  .defaulted "timeout_ns" (Wire.option Wire.uint64) none

def ofTimeout (timeout? : Option UInt64) : String × Json :=
  ("timeout_ns", Wire.ofOption .ofUInt64 timeout?)

def nanos? (time? : Option UInt64) : Option Nat := time?.map UInt64.toNat

/-- Options of a plain read. -/
structure Read where
  timeout? : Option UInt64 := none
  withExpiry : Bool := false
  project : List String := []
  deriving DecidableEq, Repr

namespace Read

def toCall (o : Read) : ReadOptions := ⟨nanos? o.timeout?, o.withExpiry, o.project⟩

def toJson (o : Read) : Json :=
  .object [("project", .array (o.project.map .text)), ofTimeout o.timeout?,
    ("with_expiry", .bool o.withExpiry)]

def record : Record Read :=
  (((Record.ofSlot timeoutSlot).map Read.mk).and
    (.defaulted "with_expiry" Wire.bool false)).and
    (.defaulted "project" (Wire.list Wire.text) [])

def ofJson : Wire.Decoder Read := record.decode

end Read

/-- Options of an insert or an upsert. -/
structure Write where
  timeout? : Option UInt64 := none
  expiry? : Option UInt64 := none
  deriving DecidableEq, Repr

namespace Write

def toCall (o : Write) : WriteOptions := ⟨nanos? o.timeout?, nanos? o.expiry?, none⟩

def toJson (o : Write) : Json :=
  .object [("expires_in_ns", Wire.ofOption .ofUInt64 o.expiry?), ofTimeout o.timeout?]

def record : Record Write :=
  ((Record.ofSlot timeoutSlot).map Write.mk).and
    (.defaulted "expires_in_ns" (Wire.option Wire.uint64) none)

def ofJson : Wire.Decoder Write := record.decode

end Write

/-- Options of a replace. -/
structure Replace where
  timeout? : Option UInt64 := none
  expiry? : Option UInt64 := none
  cas? : Option UInt64 := none
  deriving DecidableEq, Repr

namespace Replace

def toCall (o : Replace) : WriteOptions := ⟨nanos? o.timeout?, nanos? o.expiry?, o.cas?⟩

def toJson (o : Replace) : Json :=
  .object [("cas", Wire.ofOption .ofUInt64 o.cas?),
    ("expires_in_ns", Wire.ofOption .ofUInt64 o.expiry?), ofTimeout o.timeout?]

def record : Record Replace :=
  (((Record.ofSlot timeoutSlot).map Replace.mk).and
    (.defaulted "expires_in_ns" (Wire.option Wire.uint64) none)).and
    (.defaulted "cas" (Wire.option Wire.uint64) none)

def ofJson : Wire.Decoder Replace := record.decode

end Replace

/-- Options of a remove. -/
structure Remove where
  timeout? : Option UInt64 := none
  cas? : Option UInt64 := none
  deriving DecidableEq, Repr

namespace Remove

def toCall (o : Remove) : WriteOptions := ⟨nanos? o.timeout?, none, o.cas?⟩

def toJson (o : Remove) : Json :=
  .object [("cas", Wire.ofOption .ofUInt64 o.cas?), ofTimeout o.timeout?]

def record : Record Remove :=
  ((Record.ofSlot timeoutSlot).map Remove.mk).and
    (.defaulted "cas" (Wire.option Wire.uint64) none)

def ofJson : Wire.Decoder Remove := record.decode

end Remove

/-- Options of a touch, with or without a read. -/
structure Touch where
  timeout? : Option UInt64 := none
  expiry : UInt64 := 0
  deriving DecidableEq, Repr

namespace Touch

def toJson (o : Touch) : Json :=
  .object [("expires_in_ns", .ofUInt64 o.expiry), ofTimeout o.timeout?]

def record : Record Touch :=
  ((Record.ofSlot timeoutSlot).map Touch.mk).and (.defaulted "expires_in_ns" Wire.uint64 0)

def ofJson : Wire.Decoder Touch := record.decode

end Touch

/-- Options of a read that locks. -/
structure Lock where
  timeout? : Option UInt64 := none
  time : UInt64 := 0
  deriving DecidableEq, Repr

namespace Lock

def toJson (o : Lock) : Json :=
  .object [("lock_time_ns", .ofUInt64 o.time), ofTimeout o.timeout?]

def record : Record Lock :=
  ((Record.ofSlot timeoutSlot).map Lock.mk).and (.defaulted "lock_time_ns" Wire.uint64 0)

def ofJson : Wire.Decoder Lock := record.decode

end Lock

/-- Options of an unlock. -/
structure Unlock where
  timeout? : Option UInt64 := none
  cas : UInt64 := 0
  deriving DecidableEq, Repr

namespace Unlock

def toJson (o : Unlock) : Json := .object [("cas", .ofUInt64 o.cas), ofTimeout o.timeout?]

def record : Record Unlock :=
  ((Record.ofSlot timeoutSlot).map Unlock.mk).and (.defaulted "cas" Wire.uint64 0)

def ofJson : Wire.Decoder Unlock := record.decode

end Unlock

/-- Options of a read from copies. -/
structure Replica where
  timeout? : Option UInt64 := none
  deriving DecidableEq, Repr

namespace Replica

def toJson (o : Replica) : Json := .object [ofTimeout o.timeout?]

def record : Record Replica := (Record.ofSlot timeoutSlot).map Replica.mk

def ofJson : Wire.Decoder Replica := record.decode

end Replica
end Depot.Options
