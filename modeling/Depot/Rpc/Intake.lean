import Depot.Rpc.Codec
import Depot.Rpc.Frame

/-!
What becomes of the bodies of a stream. A message is delivered. A body that is no message, but an
object with a method and a readable id, is rejected under its id; any other is passed over.
-/

set_option autoImplicit false
set_option relaxedAutoImplicit false

namespace Depot.Rpc

/-- The response to a malformed request whose id can be read. -/
def rejection? (body : Bytes) (fault : DecodeFault) : Option Response := do
  let j ← Json.parse body
  let m ← j.members?
  let _ ← Members.get? m "method"
  let id ← (Members.get? m "id").bind Json.toUInt64?
  some (.failure id (.invalidRequest (some fault.message)))

/-- What becomes of one body. -/
inductive Handling where
  | deliver (payload : Payload)
  | reject (response : Response)
  | discard

def handle (body : Bytes) : Handling :=
  match Payload.decode body with
  | .ok payload => .deliver payload
  | .error fault =>
    match rejection? body fault with
    | some response => .reject response
    | none => .discard

/-- What came of a stream. -/
structure Intake where
  payloads : List Payload := []
  replies : List Response := []
  ending : Frame.Ending := .ended

namespace Intake

/-- Reads a frame, handles its body and goes on; each frame takes a byte. Once a message finds
nobody to take it, reading ends for good. -/
def readFrom (accepting : Bool) : (fuel : Nat) → Bytes → Intake
  | 0, _ => {}
  | fuel + 1, s =>
    match Frame.next true s with
    | .frame body rest =>
      match handle body with
      | .deliver payload =>
        if accepting then
          let i := readFrom accepting fuel rest
          { i with payloads := payload :: i.payloads }
        else {}
      | .reject response =>
        let i := readFrom accepting fuel rest
        { i with replies := response :: i.replies }
      | .discard => readFrom accepting fuel rest
    | .fault f => { ending := .fault f }
    | .oversize n => { ending := .oversize n }
    | .ended => {}
    | .more _ => {}

def read (accepting : Bool) (s : Bytes) : Intake := readFrom accepting (s.length + 1) s

end Intake
end Depot.Rpc
