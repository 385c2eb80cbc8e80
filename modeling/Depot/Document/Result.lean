import Depot.Call
import Depot.Document.Basic
import Depot.Wire.Record

/-!
What document operations answer, with the written form of each answer.
-/

set_option autoImplicit false
set_option relaxedAutoImplicit false

namespace Depot

open Wire (Slot Record)

/-- The answer to a mutation. -/
structure Receipt where
  cas : UInt64
  bucket : String
  partition : UInt16
  uuid : UInt64
  sequence : UInt64
  deriving DecidableEq, Repr

namespace Receipt

def ofMutation (m : Mutation) : Receipt :=
  ⟨m.cas, m.token.bucket, m.token.partition, m.token.uuid, m.token.sequence⟩

def toJson (r : Receipt) : Json :=
  .object [("bucket", .text r.bucket), ("cas", .ofUInt64 r.cas),
    ("partition_id", Wire.ofUInt16 r.partition), ("partition_uuid", .ofUInt64 r.uuid),
    ("seq", .ofUInt64 r.sequence)]

def record : Record Receipt :=
  ((((Record.ofSlot (.required "cas" Wire.uint64)).map Receipt.mk).and
    (.required "bucket" Wire.text)).and
    (.required "partition_id" Wire.uint16)).and
    (.required "partition_uuid" Wire.uint64) |>.and
    (.required "seq" Wire.uint64)

def ofJson : Wire.Decoder Receipt := record.decode

end Receipt

/-- The answer to a read. -/
structure ReadResult where
  document : Document
  cas : UInt64
  expiresIn? : Option UInt64

namespace ReadResult

def ofReading (r : Reading) : Except DocumentError ReadResult :=
  (Document.ofBytes r.content).map fun d ↦ ⟨d, r.cas, r.remaining?.map UInt64.ofNat⟩

/-- The lifetime is written only where there is one. -/
def toJson (r : ReadResult) : Json :=
  .object ([("cas", .ofUInt64 r.cas), ("document", r.document.toJson)] ++
    (r.expiresIn?.map fun n ↦ ("expires_in_ns", Json.ofUInt64 n)).toList)

def record : Record ReadResult :=
  (((Record.ofSlot (.required "document" Document.ofJson)).map ReadResult.mk).and
    (.required "cas" Wire.uint64)).and
    (.optional "expires_in_ns" Wire.uint64)

def ofJson : Wire.Decoder ReadResult := record.decode

end ReadResult

/-- The answer of one copy. -/
structure ReplicaResult where
  document : Document
  cas : UInt64
  isReplica : Bool

namespace ReplicaResult

def ofCopy (c : Copy) : Except DocumentError ReplicaResult :=
  (Document.ofBytes c.content).map fun d ↦ ⟨d, c.cas, c.isReplica⟩

/-- The answers of all copies, or the error of the first that is not text. -/
def ofCopies : List Copy → Except DocumentError (List ReplicaResult)
  | [] => .ok []
  | c :: rest =>
    match ofCopy c with
    | .error e => .error e
    | .ok r => (ofCopies rest).map (r :: ·)

def toJson (r : ReplicaResult) : Json :=
  .object [("cas", .ofUInt64 r.cas), ("document", r.document.toJson),
    ("is_replica", .bool r.isReplica)]

def record : Record ReplicaResult :=
  (((Record.ofSlot (.required "document" Document.ofJson)).map ReplicaResult.mk).and
    (.required "cas" Wire.uint64)).and
    (.required "is_replica" Wire.bool)

def ofJson : Wire.Decoder ReplicaResult := record.decode

end ReplicaResult
end Depot
