import Depot.Text.Cut

/-!
Connection strings: a scheme, then the host up to the first slash or question mark, then anything.
Two strings with the same host reach the same buckets.
-/

set_option autoImplicit false
set_option relaxedAutoImplicit false

namespace Depot.Memory.Address

def schemes : List String := ["couchbase", "couchbases", "cb", "mem"]

def isHostChar (c : Char) : Bool := c ≠ '/' && c ≠ '?'

/-- The host behind one scheme; it is not empty. -/
def hostBehind? (scheme : String) (s : List Char) : Option String :=
  match (Text.behind? (scheme.toList ++ [':', '/', '/']) s).map (·.takeWhile isHostChar) with
  | some (c :: host) => some (String.ofList (c :: host))
  | _ => none

def host? (connection : String) : Option String :=
  schemes.findSome? fun scheme ↦ hostBehind? scheme connection.toList

end Depot.Memory.Address
