/-!
Why a store refuses a call. The kind is a stable name without detail; only the message carries the
text of the few faults that have one.
-/

set_option autoImplicit false
set_option relaxedAutoImplicit false

namespace Depot

inductive Fault where
  | documentNotFound
  | documentExists
  | documentLocked
  | documentNotLocked
  | casMismatch
  | decoding (text : String)
  | invalidArgument (text : String)
  | authentication
  | timeout
  | unavailable (text : String)
  deriving DecidableEq, Repr

namespace Fault

def kind : Fault → String
  | documentNotFound => "document-not-found"
  | documentExists => "document-exists"
  | documentLocked => "document-locked"
  | documentNotLocked => "document-not-locked"
  | casMismatch => "cas-mismatch"
  | decoding _ => "decoding-failure"
  | invalidArgument _ => "invalid-argument"
  | authentication => "authentication-failure"
  | timeout => "timeout"
  | unavailable _ => "unavailable"

def message : Fault → String
  | documentNotFound => "document not found"
  | documentExists => "document already exists"
  | documentLocked => "document is locked"
  | documentNotLocked => "document is not locked"
  | casMismatch => "cas mismatch"
  | decoding text => s!"decoding failure: {text}"
  | invalidArgument text => s!"invalid argument: {text}"
  | authentication => "authentication failure"
  | timeout => "operation timed out"
  | unavailable text => s!"service unavailable: {text}"

/-- The fault of a kind; the text goes to those that carry one. -/
def ofKind? (kind text : String) : Option Fault :=
  [documentNotFound, documentExists, documentLocked, documentNotLocked, casMismatch, decoding text,
    invalidArgument text, authentication, timeout, unavailable text].find? fun f ↦ f.kind = kind

end Fault
end Depot
