import Depot.Backend.Basic
import Depot.Memory.Address
import Depot.Memory.Bucket

/-!
The store in memory: buckets by host and name. Connecting to a bucket for the first time creates it,
and links with the same host and bucket see the same documents. A bucket on an unreachable host
exists like any other, but nothing can be asked of it.
-/

set_option autoImplicit false
set_option relaxedAutoImplicit false

namespace Depot.Memory

/-- What a store accepts, and what its buckets draw when they are created. -/
structure Policy where
  replicas : Nat := 1
  /-- The only user and password that are accepted; none accepts all. -/
  credentials? : Option (String × String) := none
  unreachable : List String := []
  seeds : Nat → Seed := fun _ ↦ {}

namespace Policy

def accepts (p : Policy) (args : Link.Args) : Bool :=
  p.credentials?.all fun c ↦ c.1 = args.username && c.2 = args.password

def reaches (p : Policy) (host : String) : Bool := !p.unreachable.contains host

end Policy

/-- Where a bucket is. -/
structure Site where
  host : String
  bucket : String
  deriving DecidableEq, Repr

/-- A collection of a bucket. -/
structure Collection where
  site : Site
  keyspace : Keyspace
  deriving DecidableEq, Repr

abbrev Store := Table Site Bucket

namespace Store

def unreachableReason (bucket : String) : String := s!"bucket {bucket} is unreachable"

/-- The store with a bucket at the site, created now if it is not there. The n-th bucket draws the
n-th seed. -/
def ensure (p : Policy) (site : Site) (s : Store) : Store :=
  if s.contains site then s
  else s.insert site (.create site.bucket p.replicas (p.seeds s.size))

/-- What connecting to a site gives. -/
def opened (p : Policy) (site : Site) (keyspace : Keyspace) : Opened Collection :=
  if p.reaches site.host then ⟨.ok (), .live ⟨site, keyspace⟩⟩
  else ⟨.error .timeout, .unavailable (unreachableReason site.bucket)⟩

/-- The connection string is looked at before the credentials. -/
def connect (p : Policy) (args : Link.Args) (s : Store) :
    Except Fault (Opened Collection) × Store :=
  match Address.host? args.connection with
  | none => (.error (.invalidArgument s!"unsupported connection string: {args.connection}"), s)
  | some host =>
    if p.accepts args then
      let site : Site := ⟨host, args.bucket⟩
      (.ok (opened p site (.ofNames args.keyspace?)), ensure p site s)
    else (.error .authentication, s)

/-- A call on a collection. What fails leaves the store as it was. -/
def step (k : Collection) (now : Nat) (c : Call) (s : Store) : Except Fault c.Answer × Store :=
  match s.get? k.site with
  | none => (.error (.unavailable (unreachableReason k.site.bucket)), s)
  | some b =>
    match b.step k.keyspace now c with
    | .error f => (.error f, s)
    | .ok (answer, b') => (.ok answer, s.insert k.site b')

end Store

def backend (p : Policy) : Backend Store Collection where
  connect := Store.connect p
  call k now c s :=
    let (r, s') := Store.step k now c s
    (.ofExcept r, s')

end Depot.Memory
