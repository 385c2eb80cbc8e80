import Depot.Fault
import Depot.Json.Parser
import Depot.Json.Printer
import Depot.Text.Cut

/-!
Projections of JSON documents. A path names a member of an object, a member of that one, and so on,
with points between the names; a projection keeps what the paths reach and the objects around it.
-/

set_option autoImplicit false
set_option relaxedAutoImplicit false

namespace Depot.Memory.Projection

/-- The names that a path consists of. -/
def segments (path : String) : List String := (Text.pieces '.' path.toList).map String.ofList

/-- What a list of names leads to; only objects are walked through. -/
def lookup? (source : Json) : List String → Option Json
  | [] => some source
  | name :: rest => (source.get? name).bind fun j ↦ lookup? j rest

/-- Puts a value where the names lead, with objects on the way. -/
def place (value : Json) : List String → Members Json → Members Json
  | [], m => m
  | [name], m => Members.insert name value m
  | name :: next :: rest, m =>
    match Members.get? m name with
    | none => Members.insert name (.object (place value (next :: rest) [])) m
    | some (.object child) =>
      Members.insert name (.object (place value (next :: rest) child)) m
    | some _ => m

/-- Adds what one path reaches. -/
def add (source : Json) (m : Members Json) (path : List String) : Members Json :=
  match lookup? source path with
  | none => m
  | some j => place j path m

def project (source : Json) (paths : List (List String)) : Json :=
  .object (paths.foldl (add source) [])

/-- The compact text of a projection of stored content. -/
def ofContent (content : Bytes) (paths : List String) : Except Fault Bytes :=
  match Json.parse content with
  | none => .error (.decoding "projection requires a JSON document: malformed JSON")
  | some source => .ok (Text.encodeChars (project source (paths.map segments)).write)

end Depot.Memory.Projection
