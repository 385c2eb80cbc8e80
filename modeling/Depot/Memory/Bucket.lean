import Depot.Memory.Entry
import Depot.Memory.Projection
import Depot.Partition
import Depot.Table

/-!
Buckets. A bucket keeps the documents of all its collections, one clock that numbers their versions
and one sequence of mutations for each partition. A call either answers and gives the bucket that it
leaves behind, or fails and leaves the bucket as it was. A document past its deadline stays where it
is until it is purged or written over, but every call goes through `live?`, which does not see it.
-/

set_option autoImplicit false
set_option relaxedAutoImplicit false

namespace Depot.Memory

/-- What a new bucket draws: its mark, and where its clock starts. -/
structure Seed where
  uuid : UInt64 := 0
  clock : UInt32 := 0
  deriving DecidableEq, Repr

structure Keyspace where
  scope : String
  collection : String
  deriving DecidableEq, Repr

/-- The collection of a link that names none. -/
def Keyspace.default : Keyspace := ⟨"_default", "_default"⟩

def Keyspace.ofNames : Option (String × String) → Keyspace
  | some (scope, collection) => ⟨scope, collection⟩
  | none => .default

/-- Where a document is in its bucket. -/
structure Location where
  keyspace : Keyspace
  id : String
  deriving DecidableEq, Repr

structure Bucket where
  name : String
  uuid : UInt64
  replicas : Nat
  /-- The version that was given last. -/
  clock : UInt64
  /-- How many mutations each partition has seen. -/
  sequences : UInt16 → UInt64
  documents : Table Location Entry

namespace Bucket

/-- The time that a lock holds when none is asked for: fifteen seconds. -/
def defaultLockTime : Nat := 15000000000

def create (name : String) (replicas : Nat) (seed : Seed) : Bucket :=
  ⟨name, seed.uuid, replicas, seed.clock.toUInt64 + 1, fun _ ↦ 0, .empty⟩

/-- The document at a location, unless its deadline has come. -/
def live? (b : Bucket) (l : Location) (now : Nat) : Option Entry :=
  (b.documents.get? l).filter fun e ↦ !e.isExpired now

/-- Drops every document whose deadline has come. -/
def purge (b : Bucket) (now : Nat) : Bucket :=
  { b with documents := b.documents.filter fun _ e ↦ !e.isExpired now }

/-- The version that is given next. -/
def nextCas (b : Bucket) : UInt64 := b.clock + 1

/-- Gives the next version to the entry at a location. -/
def write (b : Bucket) (l : Location) (e : UInt64 → Entry) : Bucket :=
  { b with clock := b.nextCas, documents := b.documents.insert l (e b.nextCas) }

/-- Gives the next version to the absence of an entry. -/
def drop (b : Bucket) (l : Location) : Bucket :=
  { b with clock := b.nextCas, documents := b.documents.erase l }

/-- The place that a mutation of a document takes next in its partition. -/
def nextSequence (b : Bucket) (id : String) : UInt64 := b.sequences (Partition.ofId id) + 1

/-- Counts a mutation of a document. -/
def advance (b : Bucket) (id : String) : Bucket :=
  { b with sequences := fun p ↦ if p = Partition.ofId id then b.nextSequence id else b.sequences p }

/-- What a mutation of a document answers. -/
def mutation (b : Bucket) (id : String) : Mutation :=
  ⟨b.nextCas, b.name, Partition.ofId id, b.uuid, b.nextSequence id⟩

/-- Stores content with a lifetime from now and without a lock. The deadline is assumed to be within
what the clock can tell (see `deadline?`). -/
def store (b : Bucket) (l : Location) (content : Bytes) (expiry? : Option Nat) (now : Nat) :
    Bucket :=
  (b.write l fun cas ↦ ⟨content, cas, deadline? now expiry?, none⟩).advance l.id

/-- The document at a location, or the fault that there is none. -/
def find (b : Bucket) (l : Location) (now : Nat) : Except Fault Entry :=
  match b.live? l now with
  | some e => .ok e
  | none => .error .documentNotFound

/-- The document at a location, if no lock holds on it. -/
def findUnlocked (b : Bucket) (l : Location) (now : Nat) : Except Fault Entry :=
  match b.find l now with
  | .error f => .error f
  | .ok e => if e.isLocked now then .error .documentLocked else .ok e

/-- The document at a location, if a replace or remove with this CAS may go on. -/
def findMutable (b : Bucket) (l : Location) (cas? : Option UInt64) (now : Nat) :
    Except Fault Entry :=
  match b.find l now with
  | .error f => .error f
  | .ok e => (e.checkMutable cas? now).map fun _ ↦ e

def get (b : Bucket) (l : Location) (o : ReadOptions) (now : Nat) : Except Fault Reading := do
  let e ← b.find l now
  let content ← if o.project = [] then .ok e.content else Projection.ofContent e.content o.project
  .ok ⟨content, e.cas, if o.withExpiry then e.remaining? now else none⟩

def insert (b : Bucket) (l : Location) (content : Bytes) (o : WriteOptions) (now : Nat) :
    Except Fault (Mutation × Bucket) :=
  if (b.live? l now).isSome then .error .documentExists
  else .ok (b.mutation l.id, b.store l content o.expiry? now)

def upsert (b : Bucket) (l : Location) (content : Bytes) (o : WriteOptions) (now : Nat) :
    Except Fault (Mutation × Bucket) :=
  if (b.live? l now).any (·.isLocked now) then .error .documentLocked
  else .ok (b.mutation l.id, b.store l content o.expiry? now)

def replace (b : Bucket) (l : Location) (content : Bytes) (o : WriteOptions) (now : Nat) :
    Except Fault (Mutation × Bucket) := do
  let _ ← b.findMutable l o.cas? now
  .ok (b.mutation l.id, b.store l content o.expiry? now)

def remove (b : Bucket) (l : Location) (o : WriteOptions) (now : Nat) :
    Except Fault (Mutation × Bucket) := do
  let _ ← b.findMutable l o.cas? now
  .ok (b.mutation l.id, (b.drop l).advance l.id)

def touch (b : Bucket) (l : Location) (expiry now : Nat) : Except Fault (Mutation × Bucket) := do
  let e ← b.findUnlocked l now
  let touched := b.write l fun cas ↦ { e with cas, expiresAt? := deadline? now (some expiry) }
  .ok (b.mutation l.id, touched.advance l.id)

def getAndLock (b : Bucket) (l : Location) (lockTime now : Nat) :
    Except Fault (Reading × Bucket) := do
  let e ← b.findUnlocked l now
  let lockEnd := now + if lockTime = 0 then defaultLockTime else lockTime
  .ok (⟨e.content, b.nextCas, none⟩,
    b.write l fun cas ↦ { e with cas, lockedUntil? := some lockEnd })

def getAndTouch (b : Bucket) (l : Location) (expiry now : Nat) :
    Except Fault (Reading × Bucket) := do
  let e ← b.findUnlocked l now
  let deadline? := deadline? now (some expiry)
  .ok (⟨e.content, b.nextCas, deadline?.map (· - now)⟩,
    b.write l fun cas ↦ { e with cas, expiresAt? := deadline? })

/-- Ends a lock; the version stays. -/
def unlock (b : Bucket) (l : Location) (cas : UInt64) (now : Nat) : Except Fault Bucket := do
  let e ← b.find l now
  if !e.isLocked now then .error .documentNotLocked
  else if e.cas ≠ cas then .error .casMismatch
  else .ok { b with documents := b.documents.insert l { e with lockedUntil? := none } }

/-- The value that a counter gets. -/
def nextCount (b : Bucket) (l : Location) (o : CountOptions) (now : Nat) : Except Fault UInt64 :=
  match b.live? l now with
  | none =>
    match o.initial? with
    | none => .error .documentNotFound
    | some n => .ok n
  | some e =>
    if e.isLocked now then .error .documentLocked
    else
      match e.counter? with
      | none => .error (.invalidArgument "document value is not a counter")
      | some n => .ok (n + o.delta)

/-- The content of a counter. -/
def countText (n : UInt64) : Bytes := Text.encodeChars (Text.writeNumeral n.toNat)

def increment (b : Bucket) (l : Location) (o : CountOptions) (now : Nat) :
    Except Fault (Count × Bucket) := do
  let n ← b.nextCount l o now
  let m := b.mutation l.id
  .ok (⟨n, m.cas, m.token⟩, b.store l (countText n) o.expiry? now)

/-- What a call on one of the collections answers at a time, and the bucket that it leaves. -/
def step (b : Bucket) (k : Keyspace) (now : Nat) : (c : Call) → Except Fault (c.Answer × Bucket)
  | .get id o => (b.get ⟨k, id⟩ o now).map fun r ↦ (r, b)
  | .contains id _ => .ok ((b.live? ⟨k, id⟩ now).isSome, b)
  | .insert id content o => b.insert ⟨k, id⟩ content o now
  | .upsert id content o => b.upsert ⟨k, id⟩ content o now
  | .replace id content o => b.replace ⟨k, id⟩ content o now
  | .remove id o => b.remove ⟨k, id⟩ o now
  | .touch id expiry _ => b.touch ⟨k, id⟩ expiry now
  | .getAndLock id lockTime _ => b.getAndLock ⟨k, id⟩ lockTime now
  | .getAndTouch id expiry _ => b.getAndTouch ⟨k, id⟩ expiry now
  | .unlock id cas _ => (b.unlock ⟨k, id⟩ cas now).map fun b' ↦ ((), b')
  | .getAllReplicas id _ => (b.find ⟨k, id⟩ now).map fun e ↦ (e.copies b.replicas, b)
  | .getAnyReplica id _ => (b.find ⟨k, id⟩ now).map fun e ↦ (⟨e.content, e.cas, false⟩, b)
  | .increment id o => b.increment ⟨k, id⟩ o now

end Bucket
end Depot.Memory
