import Depot.Call
import Depot.Link.Args

/-!
What a provider needs of a store of documents: connecting the links of callers, and answering calls
on what was connected. Nothing is said about how a store does it, nor that its calls come back.
-/

set_option autoImplicit false
set_option relaxedAutoImplicit false

namespace Depot

/-- A connection that serves calls, or the reason why there is none. -/
inductive Connection (κ : Type) where
  | live (key : κ)
  | unavailable (reason : String)
  deriving DecidableEq, Repr

/-- What connecting gives: a connection, and whether it was ready in time. -/
structure Opened (κ : Type) where
  ready : Except Fault Unit
  connection : Connection κ

/-- A store with states `σ` and collections `κ`. -/
structure Backend (σ κ : Type) where
  connect : Link.Args → σ → Except Fault (Opened κ) × σ
  /-- A call on a collection at a time in nanoseconds. -/
  call : κ → (now : Nat) → (c : Call) → σ → Attempt c.Answer × σ

namespace Backend

variable {σ κ : Type}

/-- A call on a connection. Without a collection every call fails for the same reason. -/
def perform (b : Backend σ κ) (connection : Connection κ) (now : Nat) (c : Call) (s : σ) :
    Attempt c.Answer × σ :=
  match connection with
  | .live key => b.call key now c s
  | .unavailable reason => (.fault (.unavailable reason), s)

/-- Connects a link for good or ill: if connecting fails, every call will tell why. -/
def establish (b : Backend σ κ) (args : Link.Args) (s : σ) : Connection κ × σ :=
  match b.connect args s with
  | (.ok opened, s') => (opened.connection, s')
  | (.error f, s') => (.unavailable f.message, s')

end Backend
end Depot
