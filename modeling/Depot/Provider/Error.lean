import Depot.Deferred
import Depot.Link.Args
import Depot.Rpc.Message
import Depot.Wire.Decoder

/-!
Failures of a request before and around the call on the store. What the store itself says is never
told this way, but in the result.
-/

set_option autoImplicit false
set_option relaxedAutoImplicit false

namespace Depot

inductive ProviderError where
  | missingIdentity
  | unlinkedSource (source : String)
  | configInvalid (text : String)
  | handleNotFound (handle : String)
  | handleNotReady (handle : String)
  | invalidParams (text : String)
  | methodNotFound (method : String)
  | task (text : String)
  deriving DecidableEq, Repr

namespace ProviderError

def message : ProviderError → String
  | missingIdentity => "request carries no caller identity"
  | unlinkedSource source => s!"received request from unlinked source: {source}"
  | configInvalid text => s!"invalid link config: {text}"
  | handleNotFound handle => (HandleFault.notFound handle).message
  | handleNotReady handle => (HandleFault.notReady handle).message
  | invalidParams text => s!"invalid params: {text}"
  | methodNotFound method => s!"method not found: {method}"
  | task text => s!"task failed: {text}"

def code : ProviderError → Int32
  | missingIdentity => -32001
  | unlinkedSource _ => -32002
  | configInvalid _ => -32003
  | handleNotFound _ => -32004
  | handleNotReady _ => -32005
  | invalidParams _ => -32602
  | methodNotFound _ => -32601
  | task _ => -32603

/-- A name that programs can rely on. -/
def kind : ProviderError → String
  | missingIdentity => "missing-identity"
  | unlinkedSource _ => "unlinked-source"
  | configInvalid _ => "config-invalid"
  | handleNotFound _ => "not-found"
  | handleNotReady _ => "not-ready"
  | invalidParams _ => "invalid-params"
  | methodNotFound _ => "method-not-found"
  | task _ => "internal"

def ofHandleFault : HandleFault → ProviderError
  | .notFound handle => handleNotFound handle
  | .notReady handle => handleNotReady handle

def ofGap (g : Link.Gap) : ProviderError := configInvalid g.message

def ofMismatch (m : Wire.Mismatch) : ProviderError := invalidParams m.message

/-- A call on the store that did not come back. -/
def crashed : ProviderError := task "the call did not come back"

def toRpc (e : ProviderError) : Rpc.Error :=
  ⟨e.code, e.message, some (.object [("kind", .text e.kind)])⟩

end ProviderError
end Depot
