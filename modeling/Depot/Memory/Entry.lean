import Depot.Call
import Depot.Text.Blank
import Depot.Text.Numeral

/-!
Stored documents with their version, their deadline and their lock.
-/

set_option autoImplicit false
set_option relaxedAutoImplicit false

namespace Depot.Memory

structure Entry where
  content : Bytes
  cas : UInt64
  expiresAt? : Option Nat
  lockedUntil? : Option Nat
  deriving DecidableEq, Repr

/-- When a lifetime that begins now ends; a lifetime of zero never does. Times are numbers without a
bound here; on a clock that has one, the deadline is assumed to be within it. -/
def deadline? (now : Nat) (expiry? : Option Nat) : Option Nat :=
  (expiry?.filter (· ≠ 0)).map (now + ·)

namespace Entry

/-- A document is gone from the moment of its deadline on. -/
def isExpired (e : Entry) (now : Nat) : Bool := e.expiresAt?.any (· ≤ now)

/-- A lock holds until just before its end. -/
def isLocked (e : Entry) (now : Nat) : Bool := e.lockedUntil?.any (now < ·)

def remaining? (e : Entry) (now : Nat) : Option Nat := e.expiresAt?.map (· - now)

/-- Whether a replace or remove may go on. A locked document wants the CAS of its lock; otherwise a
given CAS must be the current one. The CAS zero is none. -/
def checkMutable (e : Entry) (cas? : Option UInt64) (now : Nat) : Except Fault Unit :=
  let cas? := cas?.filter (· ≠ 0)
  if e.isLocked now then
    if cas? = some e.cas then .ok () else .error .documentLocked
  else if cas? = none ∨ cas? = some e.cas then .ok ()
  else .error .casMismatch

/-- The entry as a counter: blank characters around the numeral do not matter. -/
def counter? (e : Entry) : Option UInt64 :=
  ((Text.decodeChars e.content).toOption.bind fun s ↦
    Text.numeralBelow? Text.limit64 (Text.trim s)).map UInt64.ofNat

def copies (e : Entry) (replicas : Nat) : List Copy :=
  ⟨e.content, e.cas, false⟩ :: List.replicate replicas ⟨e.content, e.cas, true⟩

end Entry
end Depot.Memory
