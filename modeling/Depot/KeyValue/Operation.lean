import Depot.Backend.Basic
import Depot.KeyValue.Basic

/-!
Key-value operations on the caller's collection. The bucket that a caller names says nothing: the
store is whatever the link leads to.
-/

set_option autoImplicit false
set_option relaxedAutoImplicit false

namespace Depot.KeyValue

inductive Operation where
  | get (bucket key : String)
  | set (bucket key : String) (value : Bytes)
  | delete (bucket key : String)
  | contains (bucket key : String)
  | listKeys (bucket : String) (cursor? : Option UInt64)
  | increment (bucket key : String) (delta : UInt64)
  deriving DecidableEq, Repr

namespace Operation

/-- The type of what an operation answers when it succeeds. -/
@[reducible] def Answer : Operation → Type
  | get .. => Option Bytes
  | set .. => Unit
  | delete .. => Unit
  | contains .. => Bool
  | listKeys .. => KeyPage
  | increment .. => UInt64

/-- What callers are told about keys. -/
def noListing : StoreError := .other "list-keys operation not supported"

variable {σ κ ε α : Type}

/-- An attempted call, put into other words. -/
def conclude (onAnswer : α → Except StoreError ε) (onFault : Fault → Except StoreError ε) :
    Attempt α → Option (Except StoreError ε)
  | .answer a => some (onAnswer a)
  | .fault f => some (onFault f)
  | .crash => none

def refuse (f : Fault) : Except StoreError ε := .error (.ofFault f)

/-- A key that is not there reads as none. -/
def absentAsNone : Fault → Except StoreError (Option Bytes)
  | .documentNotFound => .ok none
  | f => refuse f

/-- A key that is not there counts as deleted. -/
def absentAsDone : Fault → Except StoreError Unit
  | .documentNotFound => .ok ()
  | f => refuse f

/-- Carries an operation out on a connection. A counter that is not there starts at the delta. -/
def run (b : Backend σ κ) (connection : Connection κ) (now : Nat) (s : σ) :
    (op : Operation) → Option (Except StoreError op.Answer) × σ
  | get _ key =>
    let (r, s) := b.perform connection now (.get key {}) s
    (conclude (fun a ↦ .ok (some a.content)) absentAsNone r, s)
  | set _ key value =>
    let (r, s) := b.perform connection now (.upsert key value {}) s
    (conclude (fun _ ↦ .ok ()) refuse r, s)
  | delete _ key =>
    let (r, s) := b.perform connection now (.remove key {}) s
    (conclude (fun _ ↦ .ok ()) absentAsDone r, s)
  | contains _ key =>
    let (r, s) := b.perform connection now (.contains key none) s
    (conclude .ok refuse r, s)
  | listKeys _ _ => (some (.error noListing), s)
  | increment _ key delta =>
    let (r, s) := b.perform connection now (.increment key { delta, initial? := some delta }) s
    (conclude (fun c ↦ .ok c.value) refuse r, s)

def answerJson : (op : Operation) → op.Answer → Json
  | get .., content? => Wire.ofOption Wire.ofBytes content?
  | set .., _ => .null
  | delete .., _ => .null
  | contains .., b => .bool b
  | listKeys .., page => page.toJson
  | increment .., n => .ofUInt64 n

end Operation
end Depot.KeyValue
