import Depot.Json.Skim
import Depot.Settings

/-!
Settings out of the text of a file. Values under unknown names are passed over, whatever they are;
a known name may be given only once.
-/

set_option autoImplicit false
set_option relaxedAutoImplicit false

namespace Depot.Settings

open Json (Reader skipGap)

/-- One member, with its value if the name is known. -/
def entry : Reader (Option (String × Json)) := fun s ↦ do
  let (name, rest) ← Json.quoted (skipGap s)
  match skipGap rest with
  | ':' :: rest =>
    if name ∈ names then do
      let (j, rest) ← Json.value (Json.nestingLimit - 1) (skipGap rest)
      some (some (name, j), rest)
    else (Json.skim (skipGap rest)).map fun rest ↦ (none, rest)
  | _ => none

/-- The value that the text of a file gives, as far as it matters here. -/
def known : Reader Json
  | '\x7b' :: rest => do
    let (entries, rest) ← Json.objectRest entry rest
    let given := entries.filterMap id
    if (given.map Prod.fst).Nodup then some (Json.ofMembers given, rest) else none
  | s => Json.value Json.nestingLimit s

def ofChars? (s : List Char) : Option Settings :=
  (Json.whole known s).bind fun j ↦ (ofJson j).toOption

/-- Why the settings in a file cannot be had. -/
inductive FileFault where
  | unreadable (path : String)
  | malformed (path : String)
  deriving DecidableEq, Repr

def FileFault.message : FileFault → String
  | .unreadable path => s!"Failed to read config file: {path}"
  | .malformed path => s!"Failed to parse config file: {path}"

/-- The settings in a file at a path, given its content if it is there. -/
def load (path : String) (content? : Option Bytes) : Except FileFault Settings :=
  match content?.bind fun s ↦ (Text.decodeChars s).toOption with
  | none => .error (.unreadable path)
  | some s =>
    match ofChars? s with
    | none => .error (.malformed path)
    | some settings => .ok settings

end Depot.Settings
