import Depot.Provider.Basic
import Depot.Rpc.Intake

/-!
A session: frames come in, the provider serves the messages in them, and frames go out. The input
may come in any pieces; what is left of it waits in a buffer. Broken framing ends the session.
-/

set_option autoImplicit false
set_option relaxedAutoImplicit false

namespace Depot

structure Session (σ κ : Type) where
  provider : Provider σ κ
  engine : Rpc.Engine := {}
  /-- What has come in and was not a whole frame yet. -/
  buffer : Bytes := []
  /-- How reading ended, once it has. -/
  ended? : Option Rpc.Frame.Ending := none

namespace Session

variable {σ κ : Type}

/-- Why a session is over. -/
inductive Reason where
  | inputClosed
  | readError (text : String)
  | writeError (text : String)
  deriving DecidableEq, Repr

/-- Serves one body: what is answered, if anything. -/
def serve (g : Ground σ κ) (now : Nat) (body : Bytes) (s : Session σ κ) :
    Option Rpc.Response × Session σ κ :=
  match Rpc.handle body with
  | .discard => (none, s)
  | .reject response => (some response, s)
  | .deliver payload =>
    let (response?, engine, provider) :=
      s.engine.receive (Provider.handler g now) s.provider payload
    (response?, { s with engine, provider })

/-- Serves the frames in the buffer, one after another. -/
def drain (g : Ground σ κ) (now : Nat) (closed : Bool) :
    (fuel : Nat) → Session σ κ → List Rpc.Response × Session σ κ
  | 0, s => ([], s)
  | fuel + 1, s =>
    match Rpc.Frame.next closed s.buffer with
    | .frame body rest =>
      let (response?, s) := s.serve g now body
      let (responses, s) := drain g now closed fuel { s with buffer := rest }
      (response?.toList ++ responses, s)
    | .more _ => ([], s)
    | .ended => ([], { s with ended? := some .ended })
    | .fault f => ([], { s with ended? := some (.fault f) })
    | .oversize n => ([], { s with ended? := some (.oversize n) })

/-- Takes in more of the input; nothing once reading has ended. -/
def feed (g : Ground σ κ) (now : Nat) (input : Bytes) (s : Session σ κ) :
    List Rpc.Response × Session σ κ :=
  if s.ended?.isSome then ([], s)
  else
    let buffer := s.buffer ++ input
    drain g now false (buffer.length + 1) { s with buffer }

/-- How much of the input has to come before anything more can be served. -/
def wanted (s : Session σ κ) : Nat :=
  match Rpc.Frame.next false s.buffer with
  | .more missing => missing
  | _ => 1

/-- The input ends. -/
def close (g : Ground σ κ) (now : Nat) (s : Session σ κ) : List Rpc.Response × Session σ κ :=
  if s.ended?.isSome then ([], s) else drain g now true (s.buffer.length + 1) s

/-- Why the session is over, seen from its input. -/
def reason (s : Session σ κ) : Reason :=
  match s.ended? with
  | some (.fault f) => .readError f.message
  | _ => .inputClosed

/-- A response as it goes out. -/
def output (r : Rpc.Response) : Bytes := Rpc.Frame.write (Rpc.Payload.response r).encode

end Session
end Depot
