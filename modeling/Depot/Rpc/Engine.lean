import Depot.Rpc.Message
import Depot.Table

/-!
The engine between two channels. It numbers the requests that go out and matches the responses that
come in: a request is pending until it ends, in one way and once.
-/

set_option autoImplicit false
set_option relaxedAutoImplicit false

namespace Depot.Rpc

/-- Why an outgoing request got no response. -/
inductive RequestError where
  | send
  | timeout (millis : UInt64)
  | stopped
  deriving DecidableEq, Repr

/-- The text of a message that cannot leave. -/
def closedChannel : String := "channel closed"

def RequestError.message : RequestError → String
  | send => s!"failed to send request: {closedChannel}"
  | timeout millis => s!"request timed out after {millis.toNat}ms"
  | stopped => "engine stopped before a response arrived"

/-- How a request ended. -/
abbrev RequestEnd := Except RequestError Response

structure Engine where
  nextId : UInt64 := 1
  /-- The requests that wait for a response. -/
  pending : List UInt64 := []
  /-- The requests that are over, latest first. -/
  finished : List (UInt64 × RequestEnd) := []
  /-- Whether messages still come in. -/
  running : Bool := true
  /-- Whether messages can leave. -/
  sending : Bool := true
  /-- Whether somebody asked for the end. -/
  cancelled : Bool := false

namespace Engine

/-- Ends a request that is still pending. -/
def finish (e : Engine) (id : UInt64) (ending : RequestEnd) : Engine :=
  if id ∈ e.pending then
    { e with pending := e.pending.filter (· ≠ id), finished := (id, ending) :: e.finished }
  else e

/-- Sends a request out under the next number. Where nothing can leave it is over at once. -/
def request (e : Engine) (method : String) (params? : Option Json) (headers : Fields String) :
    Request × Engine :=
  let r : Request := ⟨e.nextId, method, params?, headers⟩
  let e := { e with nextId := e.nextId + 1, pending := e.nextId :: e.pending }
  (r, if e.sending then e else e.finish r.id (.error .send))

/-- Takes a response in. One that nobody waits for changes nothing. -/
def respond (e : Engine) (r : Response) : Engine := e.finish r.id (.ok r)

/-- The time of a request is up. -/
def expire (e : Engine) (id millis : UInt64) : Engine := e.finish id (.error (.timeout millis))

/-- No message comes in any more: whoever waits now waits no longer. -/
def stop (e : Engine) : Engine :=
  if e.running then
    { e with
      running := false
      pending := []
      finished := e.pending.map (fun id ↦ (id, .error .stopped)) ++ e.finished }
  else e

/-- Ends the engine on demand. -/
def shutdown (e : Engine) : Engine := { e.stop with cancelled := true }

/-- Nothing leaves any more. -/
def closeOutbound (e : Engine) : Engine := { e with sending := false }

def ending? (e : Engine) (id : UInt64) : Option RequestEnd :=
  (e.finished.find? fun p ↦ p.1 = id).map Prod.snd

end Engine

/-- Who serves what comes in. -/
structure Handler (σ : Type) where
  onRequest : Request → σ → Response × σ
  onNotification : Notification → σ → σ

namespace Engine

/-- Takes a message in. A request is answered under its id; nothing else is. -/
def receive {σ : Type} (h : Handler σ) (e : Engine) (s : σ) : Payload → Option Response × Engine × σ
  | .request r =>
    let (response, s) := h.onRequest r s
    (some response, e, s)
  | .notification n => (none, e, h.onNotification n s)
  | .response r => (none, e.respond r, s)

end Engine
end Depot.Rpc
