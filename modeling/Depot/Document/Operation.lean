import Depot.Backend.Basic
import Depot.Document.Options
import Depot.Document.Result

/-!
Document operations: each is one call on the caller's collection, and what the call answers is put
into the words of the interface. Contents that are no text are an error of the answer alone.
-/

set_option autoImplicit false
set_option relaxedAutoImplicit false

namespace Depot.Document

inductive Operation where
  | get (id : String) (options : Options.Read)
  | insert (id : String) (document : Document) (options : Options.Write)
  | upsert (id : String) (document : Document) (options : Options.Write)
  | replace (id : String) (document : Document) (options : Options.Replace)
  | remove (id : String) (options : Options.Remove)
  | touch (id : String) (options : Options.Touch)
  | unlock (id : String) (options : Options.Unlock)
  | getAndLock (id : String) (options : Options.Lock)
  | getAndTouch (id : String) (options : Options.Touch)
  | getAllReplicas (id : String) (options : Options.Replica)
  | getAnyReplica (id : String) (options : Options.Replica)

namespace Operation

open Options (nanos?)

/-- The type of what an operation answers when it succeeds. -/
@[reducible] def Answer : Operation → Type
  | get .. => ReadResult
  | insert .. => Receipt
  | upsert .. => Receipt
  | replace .. => Receipt
  | remove .. => Receipt
  | touch .. => Receipt
  | unlock .. => Unit
  | getAndLock .. => ReadResult
  | getAndTouch .. => ReadResult
  | getAllReplicas .. => List ReplicaResult
  | getAnyReplica .. => ReplicaResult

/-- The call that an operation makes. -/
def call : Operation → Call
  | get id o => .get id o.toCall
  | insert id d o => .insert id d.toBytes o.toCall
  | upsert id d o => .upsert id d.toBytes o.toCall
  | replace id d o => .replace id d.toBytes o.toCall
  | remove id o => .remove id o.toCall
  | touch id o => .touch id o.expiry.toNat (nanos? o.timeout?)
  | unlock id o => .unlock id o.cas (nanos? o.timeout?)
  | getAndLock id o => .getAndLock id o.time.toNat (nanos? o.timeout?)
  | getAndTouch id o => .getAndTouch id o.expiry.toNat (nanos? o.timeout?)
  | getAllReplicas id o => .getAllReplicas id (nanos? o.timeout?)
  | getAnyReplica id o => .getAnyReplica id (nanos? o.timeout?)

/-- What an answered call means for the caller. -/
def ofAnswer : (op : Operation) → op.call.Answer → Except DocumentError op.Answer
  | get .., r => ReadResult.ofReading r
  | insert .., m => .ok (.ofMutation m)
  | upsert .., m => .ok (.ofMutation m)
  | replace .., m => .ok (.ofMutation m)
  | remove .., m => .ok (.ofMutation m)
  | touch .., m => .ok (.ofMutation m)
  | unlock .., _ => .ok ()
  | getAndLock .., r => ReadResult.ofReading r
  | getAndTouch .., r => ReadResult.ofReading r
  | getAllReplicas .., cs => ReplicaResult.ofCopies cs
  | getAnyReplica .., c => ReplicaResult.ofCopy c

/-- What an attempted call means for the caller; none if it did not come back. -/
def ofAttempt (op : Operation) : Attempt op.call.Answer → Option (Except DocumentError op.Answer)
  | .answer a => some (op.ofAnswer a)
  | .fault f => some (.error (.ofFault f))
  | .crash => none

def answerJson : (op : Operation) → op.Answer → Json
  | get .., r => r.toJson
  | insert .., r => r.toJson
  | upsert .., r => r.toJson
  | replace .., r => r.toJson
  | remove .., r => r.toJson
  | touch .., r => r.toJson
  | unlock .., _ => .null
  | getAndLock .., r => r.toJson
  | getAndTouch .., r => r.toJson
  | getAllReplicas .., rs => .array (rs.map ReplicaResult.toJson)
  | getAnyReplica .., r => r.toJson

variable {σ κ : Type}

/-- Carries an operation out on a connection. -/
def run (op : Operation) (b : Backend σ κ) (connection : Connection κ) (now : Nat) (s : σ) :
    Option (Except DocumentError op.Answer) × σ :=
  let (r, s) := b.perform connection now op.call s
  (op.ofAttempt r, s)

end Operation
end Depot.Document
