import Depot.Json.Basic

/-!
Messages between the provider and its host: requests that want an answer, notifications that do not,
and responses that carry the number of the request they answer.
-/

set_option autoImplicit false
set_option relaxedAutoImplicit false

namespace Depot

/-- A signed number of 32 bits among those of 64. -/
def Integer.ofInt32 (n : Int32) : Integer :=
  ⟨n.toInt, by have := n.le_toInt; omega, by have := n.toInt_lt; omega⟩

namespace Rpc

structure Request where
  id : UInt64
  method : String
  params? : Option Json := none
  /-- What the host says about the request, the caller among it. -/
  headers : Fields String := .empty

structure Notification where
  method : String
  params? : Option Json := none

/-- Why a request failed. -/
structure Error where
  code : Int32
  message : String
  data? : Option Json := none

structure Response where
  id : UInt64
  result? : Option Json := none
  error? : Option Error := none

inductive Payload where
  | request (request : Request)
  | notification (notification : Notification)
  | response (response : Response)

namespace Response

def success (id : UInt64) (result : Json) : Response := { id, result? := some result }

def failure (id : UInt64) (error : Error) : Response := { id, error? := some error }

end Response

namespace Error

def parseError (message? : Option String) : Error := ⟨-32700, message?.getD "Parse error", none⟩

def invalidRequest (message? : Option String) : Error :=
  ⟨-32600, message?.getD "Invalid Request", none⟩

def methodNotFound (message? : Option String) (data? : Option Json) : Error :=
  ⟨-32601, message?.getD "Method not found", data?⟩

def invalidParams (message? : Option String) (data? : Option Json) : Error :=
  ⟨-32602, message?.getD "Invalid params", data?⟩

def internalError (message? : Option String) (data? : Option Json) : Error :=
  ⟨-32603, message?.getD "Internal error", data?⟩

end Error
end Rpc
end Depot
