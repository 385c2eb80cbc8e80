import Depot.Fault
import Depot.Text.Utf8

/-!
The calls that a collection of documents answers, each with the type of its answer. Times are whole
nanoseconds; a timeout is carried along for stores that can be slow.
-/

set_option autoImplicit false
set_option relaxedAutoImplicit false

namespace Depot

/-- What a plain read asks for; an empty projection asks for the full document. -/
structure ReadOptions where
  timeout? : Option Nat := none
  withExpiry : Bool := false
  project : List String := []
  deriving DecidableEq, Repr

/-- What a write asks for. Without a CAS, or with the CAS zero, any version may be overwritten. -/
structure WriteOptions where
  timeout? : Option Nat := none
  expiry? : Option Nat := none
  cas? : Option UInt64 := none
  deriving DecidableEq, Repr

/-- What a counter is to do; the initial value is stored where there is no counter yet. -/
structure CountOptions where
  timeout? : Option Nat := none
  delta : UInt64 := 0
  initial? : Option UInt64 := none
  expiry? : Option Nat := none
  deriving DecidableEq, Repr

/-- Where a mutation stands in the history of its bucket. -/
structure Token where
  bucket : String
  partition : UInt16
  uuid : UInt64
  sequence : UInt64
  deriving DecidableEq, Repr

/-- What a mutation answers. -/
structure Mutation where
  cas : UInt64
  token : Token
  deriving DecidableEq, Repr

/-- What a read answers; the remaining lifetime only where it was asked for and there is one. -/
structure Reading where
  content : Bytes
  cas : UInt64
  remaining? : Option Nat
  deriving DecidableEq, Repr

/-- What one copy of a document answers. -/
structure Copy where
  content : Bytes
  cas : UInt64
  isReplica : Bool
  deriving DecidableEq, Repr

/-- What a counter answers. -/
structure Count where
  value : UInt64
  cas : UInt64
  token : Token
  deriving DecidableEq, Repr

inductive Call where
  | get (id : String) (options : ReadOptions)
  | contains (id : String) (timeout? : Option Nat)
  | insert (id : String) (content : Bytes) (options : WriteOptions)
  | upsert (id : String) (content : Bytes) (options : WriteOptions)
  | replace (id : String) (content : Bytes) (options : WriteOptions)
  | remove (id : String) (options : WriteOptions)
  | touch (id : String) (expiry : Nat) (timeout? : Option Nat)
  | getAndLock (id : String) (lockTime : Nat) (timeout? : Option Nat)
  | getAndTouch (id : String) (expiry : Nat) (timeout? : Option Nat)
  | unlock (id : String) (cas : UInt64) (timeout? : Option Nat)
  | getAllReplicas (id : String) (timeout? : Option Nat)
  | getAnyReplica (id : String) (timeout? : Option Nat)
  | increment (id : String) (options : CountOptions)
  deriving DecidableEq, Repr

namespace Call

/-- The type of what a call answers when it succeeds. -/
@[reducible] def Answer : Call → Type
  | get .. => Reading
  | contains .. => Bool
  | insert .. => Mutation
  | upsert .. => Mutation
  | replace .. => Mutation
  | remove .. => Mutation
  | touch .. => Mutation
  | getAndLock .. => Reading
  | getAndTouch .. => Reading
  | unlock .. => Unit
  | getAllReplicas .. => List Copy
  | getAnyReplica .. => Copy
  | increment .. => Count

/-- The document that a call is about. -/
def id : Call → String
  | get id _ => id
  | contains id _ => id
  | insert id _ _ => id
  | upsert id _ _ => id
  | replace id _ _ => id
  | remove id _ => id
  | touch id _ _ => id
  | getAndLock id _ _ => id
  | getAndTouch id _ _ => id
  | unlock id _ _ => id
  | getAllReplicas id _ => id
  | getAnyReplica id _ => id
  | increment id _ => id

/-- The kinds of call, by name. -/
def name : Call → String
  | get .. => "get"
  | contains .. => "exists"
  | insert .. => "insert"
  | upsert .. => "upsert"
  | replace .. => "replace"
  | remove .. => "remove"
  | touch .. => "touch"
  | getAndLock .. => "get_and_lock"
  | getAndTouch .. => "get_and_touch"
  | unlock .. => "unlock"
  | getAllReplicas .. => "get_all_replicas"
  | getAnyReplica .. => "get_any_replica"
  | increment .. => "increment"

/-- A call that only looks. -/
def isRead : Call → Bool
  | get .. => true
  | contains .. => true
  | getAllReplicas .. => true
  | getAnyReplica .. => true
  | _ => false

end Call

/-- How a call ended: with an answer, with a fault, or not at all. -/
inductive Attempt (α : Type) where
  | answer (value : α)
  | fault (fault : Fault)
  | crash
  deriving DecidableEq, Repr

def Attempt.ofExcept {α : Type} : Except Fault α → Attempt α
  | .ok a => .answer a
  | .error f => .fault f

end Depot
