import Depot.Proofs.Memory.Operation

/-!
# What calls answer

Every operation of a bucket makes its own checks in its own order. `Call.refusal?` is the table of
what the thirteen calls are refused for on a document that is live, with a lock on it and without,
and `answersOn_of_live?` says that the operations come to this table; an answer that is given tells
what `Call.Tells` says of the document. Where there is no live document, a call that needs one does
not find it, and the others are answered (`step_of_absent`).
-/

set_option autoImplicit false
set_option relaxedAutoImplicit false

namespace Depot

namespace Memory

/-- Whether the version that a replace or remove carries lets it through to a document with the
version `v`. Zero is no version, and to carry none is enough only where there is no lock. -/
def admits (v : UInt64) (isLocked : Bool) (cas? : Option UInt64) : Bool :=
  decide (v ≠ 0 ∧ cas? = some v ∨ isLocked = false ∧ (cas? = none ∨ cas? = some 0))

/-- The entry has a lock, which ends later than now. -/
def Entry.LockedAt (e : Entry) (now : Nat) : Prop :=
  ∃ deadline, e.lockedUntil? = some deadline ∧ now < deadline

theorem Entry.isLocked_iff {e : Entry} {now : Nat} : e.isLocked now = true ↔ e.LockedAt now := by
  simp [isLocked, LockedAt, Option.any_eq_true]

theorem Entry.isLocked_eq_false_iff {e : Entry} {now : Nat} :
    e.isLocked now = false ↔ ¬ e.LockedAt now := by
  rw [← Entry.isLocked_iff, Bool.not_eq_true]

end Memory

open Memory

namespace Call

/-- What a call on a live document is refused for, with or without a lock on the document. -/
def refusal? (e : Entry) (isLocked : Bool) : Call → Option Fault
  | get _ o =>
    if o.project = [] then none
    else match Projection.ofContent e.content o.project with
      | .error f => some f
      | .ok _ => none
  | contains .. => none
  | insert .. => some .documentExists
  | upsert .. => if isLocked then some .documentLocked else none
  | replace _ _ o =>
    if admits e.cas isLocked o.cas? then none
    else some (if isLocked then .documentLocked else .casMismatch)
  | remove _ o =>
    if admits e.cas isLocked o.cas? then none
    else some (if isLocked then .documentLocked else .casMismatch)
  | touch .. => if isLocked then some .documentLocked else none
  | getAndLock .. => if isLocked then some .documentLocked else none
  | getAndTouch .. => if isLocked then some .documentLocked else none
  | unlock _ cas _ =>
    if isLocked then if cas = e.cas then none else some .casMismatch
    else some .documentNotLocked
  | getAllReplicas .. => none
  | getAnyReplica .. => none
  | increment .. =>
    if isLocked then some .documentLocked
    else if e.counter?.isNone then some (.invalidArgument "document value is not a counter")
    else none

/-- The call fails where no document is live. -/
def needsDocument : Call → Bool
  | contains .. => false
  | insert .. => false
  | upsert .. => false
  | increment _ o => o.initial?.isNone
  | _ => true

/-- What an answer tells of the document that was read. -/
def Tells (e : Entry) : (c : Call) → c.Answer → Prop
  | get _ o, r => r.cas = e.cas ∧ (o.project = [] → r.content = e.content)
  | contains .., found => found = true
  | getAndLock .., r => r.content = e.content
  | getAndTouch .., r => r.content = e.content
  | getAllReplicas .., copies =>
    copies ≠ [] ∧ ∀ copy ∈ copies, copy.content = e.content ∧ copy.cas = e.cas
  | getAnyReplica .., copy => copy.content = e.content ∧ copy.cas = e.cas
  | _, _ => True

/-- What a call comes to on a live document: it fails as the table says, or it is answered. -/
def AnswersOn (e : Entry) (isLocked : Bool) (c : Call) (r : Attempt c.Answer) : Prop :=
  match c.refusal? e isLocked with
  | some f => r = .fault f
  | none => ∃ a, r = .answer a ∧ c.Tells e a

theorem answersOn_of_some {e : Entry} {isLocked : Bool} {c : Call} {r : Attempt c.Answer}
    {f : Fault} (h : c.refusal? e isLocked = some f) : c.AnswersOn e isLocked r ↔ r = .fault f := by
  rw [AnswersOn, h]

theorem answersOn_of_none {e : Entry} {isLocked : Bool} {c : Call} {r : Attempt c.Answer}
    (h : c.refusal? e isLocked = none) :
    c.AnswersOn e isLocked r ↔ ∃ a, r = .answer a ∧ c.Tells e a := by
  rw [AnswersOn, h]

/-- Without a lock nothing is refused for one. -/
theorem refusal?_ne_documentLocked (e : Entry) (c : Call) :
    c.refusal? e false ≠ some .documentLocked := by
  cases c with
  | get id o =>
    unfold refusal? Projection.ofContent
    by_cases hproject : o.project = []
    · simp [hproject]
    · cases Json.parse e.content <;> simp [hproject]
  | replace id content o =>
    rw [refusal?]
    split <;> simp
  | remove id o =>
    rw [refusal?]
    split <;> simp
  | increment id o =>
    unfold refusal?
    cases e.counter? <;> simp
  | _ => simp [refusal?]

end Call

namespace Memory

/-! ## Answers -/

namespace Bucket

variable {b : Bucket} {k : Keyspace} {l : Location} {now : Nat} {e : Entry}

theorem find_of_live? (he : b.live? l now = some e) : b.find l now = .ok e := find_eq_ok_iff.2 he

theorem findUnlocked_of_live? (he : b.live? l now = some e) :
    b.findUnlocked l now = if e.isLocked now then .error .documentLocked else .ok e := by
  rw [findUnlocked, find_of_live? he]

theorem admits_iff {v : UInt64} {isLocked : Bool} {cas? : Option UInt64} :
    admits v isLocked cas? = true ↔ cas?.filter (· ≠ 0) = some v ∨
      isLocked = false ∧ cas?.filter (· ≠ 0) = none := by
  have hsome : cas?.filter (· ≠ 0) = some v ↔ v ≠ 0 ∧ cas? = some v := by
    rw [Option.filter_eq_some_iff, decide_eq_true_iff, and_comm]
  have hnone : cas?.filter (· ≠ 0) = none ↔ cas? = none ∨ cas? = some 0 := by
    cases cas? <;> simp [Option.filter_some]
  rw [admits, decide_eq_true_iff, hsome, hnone]

/-- The check of a replace or remove, told by the version that it carries. -/
theorem findMutable_of_live? (he : b.live? l now = some e) (cas? : Option UInt64) :
    b.findMutable l cas? now = if admits e.cas (e.isLocked now) cas? then .ok e
      else .error (if e.isLocked now then .documentLocked else .casMismatch) := by
  rw [findMutable, find_of_live? he]
  change (e.checkMutable cas? now).map (fun _ ↦ e) = _
  simp only [Entry.checkMutable, admits_iff]
  cases e.isLocked now with
  | false =>
    simp only [Bool.false_eq_true, if_false, true_and, or_comm]
    split <;> rfl
  | true =>
    simp only [if_true, reduceCtorEq, false_and, or_false]
    split <;> rfl

theorem nextCount_of_live? (he : b.live? l now = some e) (o : CountOptions) :
    b.nextCount l o now = if e.isLocked now then .error .documentLocked
      else e.counter?.elim (.error (.invalidArgument "document value is not a counter"))
        fun n ↦ .ok (n + o.delta) := by
  simp only [nextCount, he]
  cases e.counter? <;> rfl

theorem get_of_live? (he : b.live? l now = some e) (o : ReadOptions) :
    b.get l o now = (if o.project = [] then .ok e.content
      else Projection.ofContent e.content o.project).map fun content ↦
        ⟨content, e.cas, if o.withExpiry then e.remaining? now else none⟩ := by
  unfold get
  rw [find_of_live? he]
  by_cases hproject : o.project = []
  · simp only [hproject, if_true]
    rfl
  · simp only [hproject, if_false]
    change (Projection.ofContent e.content o.project).bind _ = _
    cases Projection.ofContent e.content o.project <;> rfl

/-- The operations answer on a live document as the table says. -/
theorem answersOn_of_live? {c : Call} (he : b.live? ⟨k, c.id⟩ now = some e) :
    c.AnswersOn e (e.isLocked now) (.ofExcept ((b.step k now c).map Prod.fst)) := by
  cases c with
  | get id o =>
    change b.live? ⟨k, id⟩ now = some e at he
    have hstep : b.step k now (.get id o) = (b.get ⟨k, id⟩ o now).map fun r ↦ (r, b) := rfl
    rw [hstep, get_of_live? he, Call.AnswersOn, Call.refusal?]
    by_cases hproject : o.project = []
    · rw [if_pos hproject, if_pos hproject]
      exact ⟨_, rfl, rfl, fun _ ↦ rfl⟩
    · rw [if_neg hproject, if_neg hproject]
      cases Projection.ofContent e.content o.project with
      | error f => rfl
      | ok content => exact ⟨_, rfl, rfl, fun h ↦ absurd h hproject⟩
  | contains id timeout? =>
    change b.live? ⟨k, id⟩ now = some e at he
    refine ⟨_, rfl, ?_⟩
    change (b.live? ⟨k, id⟩ now).isSome = true
    rw [he]
    rfl
  | insert id content o =>
    change b.live? ⟨k, id⟩ now = some e at he
    change Attempt.ofExcept ((b.insert ⟨k, id⟩ content o now).map Prod.fst) = _
    rw [insert, he]
    rfl
  | upsert id content o =>
    change b.live? ⟨k, id⟩ now = some e at he
    have hstep : b.step k now (.upsert id content o) = b.upsert ⟨k, id⟩ content o now := rfl
    rw [hstep, upsert, he, Option.any_some]
    cases e.isLocked now with
    | false => exact ⟨_, rfl, trivial⟩
    | true => rfl
  | replace id content o =>
    change b.live? ⟨k, id⟩ now = some e at he
    have hstep : b.step k now (.replace id content o) = b.replace ⟨k, id⟩ content o now := rfl
    rw [hstep, replace, findMutable_of_live? he, Call.AnswersOn, Call.refusal?]
    by_cases hadmits : admits e.cas (e.isLocked now) o.cas? = true
    · rw [if_pos hadmits, if_pos hadmits]
      exact ⟨_, rfl, trivial⟩
    · rw [if_neg hadmits, if_neg hadmits]
      rfl
  | remove id o =>
    change b.live? ⟨k, id⟩ now = some e at he
    have hstep : b.step k now (.remove id o) = b.remove ⟨k, id⟩ o now := rfl
    rw [hstep, remove, findMutable_of_live? he, Call.AnswersOn, Call.refusal?]
    by_cases hadmits : admits e.cas (e.isLocked now) o.cas? = true
    · rw [if_pos hadmits, if_pos hadmits]
      exact ⟨_, rfl, trivial⟩
    · rw [if_neg hadmits, if_neg hadmits]
      rfl
  | touch id expiry timeout? =>
    change b.live? ⟨k, id⟩ now = some e at he
    have hstep : b.step k now (.touch id expiry timeout?) = b.touch ⟨k, id⟩ expiry now := rfl
    rw [hstep, touch, findUnlocked_of_live? he]
    cases e.isLocked now with
    | false => exact ⟨_, rfl, trivial⟩
    | true => rfl
  | getAndLock id time timeout? =>
    change b.live? ⟨k, id⟩ now = some e at he
    have hstep : b.step k now (.getAndLock id time timeout?) = b.getAndLock ⟨k, id⟩ time now := rfl
    rw [hstep, getAndLock, findUnlocked_of_live? he]
    cases e.isLocked now with
    | false => exact ⟨_, rfl, rfl⟩
    | true => rfl
  | getAndTouch id expiry timeout? =>
    change b.live? ⟨k, id⟩ now = some e at he
    have hstep : b.step k now (.getAndTouch id expiry timeout?) =
        b.getAndTouch ⟨k, id⟩ expiry now := rfl
    rw [hstep, getAndTouch, findUnlocked_of_live? he]
    cases e.isLocked now with
    | false => exact ⟨_, rfl, rfl⟩
    | true => rfl
  | unlock id cas timeout? =>
    change b.live? ⟨k, id⟩ now = some e at he
    have hstep : b.step k now (.unlock id cas timeout?) =
        (b.unlock ⟨k, id⟩ cas now).map fun b' ↦ ((), b') := rfl
    rw [hstep, unlock, find_of_live? he, Call.AnswersOn, Call.refusal?]
    cases hlocked : e.isLocked now with
    | false =>
      simp [bind, Except.bind, hlocked, Except.map, Attempt.ofExcept]
    | true =>
      by_cases hcas : cas = e.cas
      · simp [bind, Except.bind, hlocked, hcas, Except.map, Attempt.ofExcept, Call.Tells]
      · simp [bind, Except.bind, hlocked, hcas, Ne.symm hcas, Except.map, Attempt.ofExcept]
  | getAllReplicas id timeout? =>
    change b.live? ⟨k, id⟩ now = some e at he
    have hstep : b.step k now (.getAllReplicas id timeout?) =
        (b.find ⟨k, id⟩ now).map fun e ↦ (e.copies b.replicas, b) := rfl
    rw [hstep, find_of_live? he]
    refine ⟨_, rfl, List.cons_ne_nil _ _, fun copy hcopy ↦ ?_⟩
    rcases List.mem_cons.1 hcopy with rfl | hcopy
    · exact ⟨rfl, rfl⟩
    · rw [List.eq_of_mem_replicate hcopy]
      exact ⟨rfl, rfl⟩
  | getAnyReplica id timeout? =>
    change b.live? ⟨k, id⟩ now = some e at he
    have hstep : b.step k now (.getAnyReplica id timeout?) =
        (b.find ⟨k, id⟩ now).map fun e ↦ (⟨e.content, e.cas, false⟩, b) := rfl
    rw [hstep, find_of_live? he]
    exact ⟨_, rfl, rfl, rfl⟩
  | increment id o =>
    change b.live? ⟨k, id⟩ now = some e at he
    have hstep : b.step k now (.increment id o) = b.increment ⟨k, id⟩ o now := rfl
    rw [hstep, increment, nextCount_of_live? he, Call.AnswersOn, Call.refusal?]
    cases e.isLocked now with
    | true => rfl
    | false =>
      cases e.counter? with
      | none => rfl
      | some n => exact ⟨_, rfl, trivial⟩

/-- On a live document a call fails for what the table says, and for nothing else. -/
theorem step_eq_error_iff {c : Call} {f : Fault} (he : b.live? ⟨k, c.id⟩ now = some e) :
    b.step k now c = .error f ↔ c.refusal? e (e.isLocked now) = some f := by
  have hanswers := answersOn_of_live? he
  cases hrefusal : c.refusal? e (e.isLocked now) with
  | none =>
    obtain ⟨a, ha, -⟩ := (Call.answersOn_of_none hrefusal).1 hanswers
    refine iff_of_false (fun hstep ↦ ?_) nofun
    rw [hstep] at ha
    cases ha
  | some f' =>
    have hfault := (Call.answersOn_of_some hrefusal).1 hanswers
    cases hstep : b.step k now c with
    | ok done =>
      rw [hstep] at hfault
      cases hfault
    | error f'' =>
      rw [hstep] at hfault
      cases hfault
      rw [Except.error.injEq, Option.some.injEq]

/-- Where no document is live, what needs one fails, and nothing else does. -/
theorem step_of_absent {c : Call} (hnone : b.live? ⟨k, c.id⟩ now = none) :
    if c.needsDocument then b.step k now c = .error .documentNotFound
    else ∃ done, b.step k now c = .ok done := by
  cases c with
  | contains id timeout? => exact ⟨_, rfl⟩
  | insert id content o =>
    change b.live? ⟨k, id⟩ now = none at hnone
    change ∃ done, b.insert ⟨k, id⟩ content o now = .ok done
    rw [insert, hnone]
    exact ⟨_, rfl⟩
  | upsert id content o =>
    change b.live? ⟨k, id⟩ now = none at hnone
    change ∃ done, b.upsert ⟨k, id⟩ content o now = .ok done
    rw [upsert, hnone]
    exact ⟨_, rfl⟩
  | increment id o =>
    change b.live? ⟨k, id⟩ now = none at hnone
    have hstep : b.step k now (.increment id o) = b.increment ⟨k, id⟩ o now := rfl
    have hcount : b.nextCount ⟨k, id⟩ o now =
        o.initial?.elim (.error .documentNotFound) .ok := by
      simp only [nextCount, hnone]
      cases o.initial? <;> rfl
    rw [hstep, increment, hcount, Call.needsDocument]
    cases o.initial? with
    | none => rfl
    | some n => exact ⟨_, rfl⟩
  | _ id =>
    change b.live? ⟨k, id⟩ now = none at hnone
    have hfind : b.find ⟨k, id⟩ now = .error .documentNotFound := by rw [find, hnone]
    simp [step, Call.needsDocument, get, replace, remove, touch, getAndLock, getAndTouch, unlock,
      findMutable, findUnlocked, hfind, bind, Except.bind, Except.map]

end Bucket
end Memory
end Depot
