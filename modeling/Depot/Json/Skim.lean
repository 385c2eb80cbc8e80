import Depot.Json.Parser

/-!
Passing over a value that nobody asked for. The grammar is the same as in reading, but nothing is
built: nesting is not limited, numbers may lie beyond the doubles, and surrogates may stand alone.
-/

set_option autoImplicit false
set_option relaxedAutoImplicit false

namespace Depot.Json

/-- Four hexadecimal digits, whatever they name. -/
def anyUnit : Reader Char := fun s ↦ (unit? s).map fun p ↦ (Char.ofNat p.1, p.2)

def skimQuoted : Reader Unit := fun s ↦ (quotedWith anyUnit s).map fun p ↦ ((), p.2)

def skimScalar : Reader Unit :=
  scalarWith (fun tail _ s ↦ (Text.behind? tail s).map fun rest ↦ ((), rest)) skimQuoted
    (fun s ↦ (written? s).map fun p ↦ ((), p.2))

def skimGrammar : Grammar Unit Unit := ⟨skimScalar, skimQuoted, fun _ ↦ (), fun _ ↦ ()⟩

/-- What follows the value at the front. -/
def skim (s : List Char) : Option (List Char) := (skimGrammar.value s.length s).map Prod.snd

end Depot.Json
