import Depot.Json.Parser
import Depot.Json.Printer
import Depot.Rpc.Message

/-!
Messages as JSON. The members that are there tell what a message is: a method with an id is a
request, a method alone a notification, an id alone a response.
-/

set_option autoImplicit false
set_option relaxedAutoImplicit false

namespace Depot.Rpc

/-- Why a body is no message. -/
inductive DecodeFault where
  | notJson
  | notObject
  | requestId
  | method
  | responseId
  | noKind
  deriving DecidableEq, Repr

def DecodeFault.message : DecodeFault → String
  | notJson => "JSON parse error: malformed JSON"
  | notObject => "JSON must be an object"
  | requestId => "Request id must be a number"
  | method => "Method must be a string"
  | responseId => "Response id must be a number"
  | noKind => "Invalid JSON-RPC payload structure"

/-! ## Writing -/

/-- A member that is written only where it has a value. -/
def member? (key : String) (value? : Option Json) : Members Json :=
  (value?.map fun j ↦ (key, j)).toList

def version : String × Json := ("jsonrpc", .text "2.0")

def Error.toJson (e : Error) : Json :=
  .object (("code", .integer (.ofInt32 e.code)) :: member? "data" e.data? ++
    [("message", .text e.message)])

/-- Headers are written only if there are any. -/
def headersMember (headers : Fields String) : Members Json :=
  member? "headers" (if headers.isEmpty then none else some (.ofTexts headers))

/-- An error wins over a result, and without either the result is null. -/
def Payload.toJson : Payload → Json
  | .request r =>
    .object (headersMember r.headers ++
      [("id", .ofUInt64 r.id), version, ("method", .text r.method)] ++ member? "params" r.params?)
  | .notification n =>
    .object ([version, ("method", .text n.method)] ++ member? "params" n.params?)
  | .response r =>
    match r.error? with
    | some e => .object [("error", e.toJson), ("id", .ofUInt64 r.id), version]
    | none => .object [("id", .ofUInt64 r.id), version, ("result", r.result?.getD .null)]

def Payload.encodeChars (p : Payload) : List Char := p.toJson.write

def Payload.encode (p : Payload) : Bytes := Text.encodeChars p.encodeChars

/-! ## Reading -/

/-- The headers with a text; all others count as absent. -/
def headersOf : Option Json → Fields String
  | some (.object members) => .ofList (members.filterMap fun p ↦ p.2.text?.map fun s ↦ (p.1, s))
  | _ => .empty

/-- A whole number of 64 bits with sign, cut down to its last 32. -/
def codeOf? (j : Json) : Option Int32 :=
  (j.integer?.filter (·.value < 0x8000000000000000)).map fun i ↦ Int32.ofInt i.value

/-- An error with a code and a message; anything else is none. -/
def Error.ofJson? (j : Json) : Option Error := do
  let m ← j.members?
  let code ← (Members.get? m "code").bind codeOf?
  let message ← (Members.get? m "message").bind Json.text?
  some ⟨code, message, Members.get? m "data"⟩

def methodOf (j : Json) : Except DecodeFault String :=
  match j.text? with
  | some s => .ok s
  | none => .error .method

def idOf (fault : DecodeFault) (j : Json) : Except DecodeFault UInt64 :=
  match j.toUInt64? with
  | some n => .ok n
  | none => .error fault

def Payload.ofMembers (m : Members Json) : Except DecodeFault Payload :=
  match Members.get? m "id", Members.get? m "method" with
  | some id, some method => do
    let id ← idOf .requestId id
    let method ← methodOf method
    .ok (.request ⟨id, method, Members.get? m "params", headersOf (Members.get? m "headers")⟩)
  | none, some method => do
    let method ← methodOf method
    .ok (.notification ⟨method, Members.get? m "params"⟩)
  | some id, none => do
    let id ← idOf .responseId id
    .ok (.response ⟨id, Members.get? m "result", (Members.get? m "error").bind Error.ofJson?⟩)
  | none, none => .error .noKind

def Payload.ofJson (j : Json) : Except DecodeFault Payload :=
  match j.members? with
  | some m => Payload.ofMembers m
  | none => .error .notObject

/-- The message in a body. -/
def Payload.decode (body : Bytes) : Except DecodeFault Payload :=
  match Json.parse body with
  | some j => Payload.ofJson j
  | none => .error .notJson

end Depot.Rpc
