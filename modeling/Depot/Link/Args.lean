import Depot.Link.Definition
import Depot.Text.Quoted

/-!
What it takes to connect a link. Four entries are required, each with a text that is not empty; a
secret is looked at before the configuration. Scope and collection count only together.
-/

set_option autoImplicit false
set_option relaxedAutoImplicit false

namespace Depot.Link

/-- An entry that a link lacks, and where it is looked for by name. -/
structure Gap where
  key : String
  place : String
  deriving DecidableEq, Repr

def Gap.message (g : Gap) : String := s!"{g.key} {g.place} is required"

structure Args where
  username : String
  password : String
  bucket : String
  connection : String
  scope? : Option String
  collection? : Option String
  deriving DecidableEq

/-- The entry under a key: the text of the secret first, the configuration otherwise. An empty text
counts as none. -/
def entry? (config : Fields String) (secrets : Fields Secret) (key : String) : Option String :=
  match ((secrets.get? key).bind Secret.reveal?).filter (· ≠ "") with
  | some text => some text
  | none => (config.get? key).filter (· ≠ "")

def required (config : Fields String) (secrets : Fields Secret) (key place : String) :
    Except Gap String :=
  match entry? config secrets key with
  | some text => .ok text
  | none => .error ⟨key, place⟩

namespace Args

def ofEntries (config : Fields String) (secrets : Fields Secret) : Except Gap Args := do
  let username ← required config secrets "username" "config"
  let password ← required config secrets "password" "secret"
  let bucket ← required config secrets "bucketName" "config"
  let connection ← required config secrets "connectionString" "config"
  .ok ⟨username, password, bucket, connection, entry? config secrets "scopeName",
    entry? config secrets "collectionName"⟩

def ofDefinition (d : Definition) : Except Gap Args := ofEntries d.config d.secrets

/-- The scope and the collection to open; none is the default collection. -/
def keyspace? (a : Args) : Option (String × String) :=
  match a.scope?, a.collection? with
  | some scope, some collection => some (scope, collection)
  | _, _ => none

def reportOption : Option String → String
  | none => "None"
  | some s => s!"Some({Text.quote s})"

/-- What a report shows of the entries; the password is left out. -/
def report (a : Args) : String :=
  "ConnectionArgs \x7b username: " ++ Text.quote a.username ++
    ", password: " ++ Text.quote "<redacted>" ++
    ", bucket_name: " ++ Text.quote a.bucket ++
    ", connection_string: " ++ Text.quote a.connection ++
    ", scope_name: " ++ reportOption a.scope? ++
    ", collection_name: " ++ reportOption a.collection? ++ " \x7d"

theorem report_password (a : Args) (password : String) :
    report { a with password } = report a := rfl

end Args
end Depot.Link
