import Depot.Memory.Store
import Depot.Proofs.Memory.Deed

/-!
# Calls that leave the store as it was

A call that fails does not touch the store, and neither does a read; every other answer is that of
a bucket, which is put back (`Store.perform_cases`). An untouched store is the same value, and not
only one that answers the same: writing back what is there changes nothing (`Table.insert_of_get?`).
-/

set_option autoImplicit false
set_option relaxedAutoImplicit false

namespace Depot

namespace Memory

/-- A read leaves its bucket as it was. -/
theorem Bucket.eq_of_isRead {b b' : Bucket} {k : Keyspace} {now : Nat} {c : Call} {a : c.Answer}
    (hread : c.isRead = true) (h : b.step k now c = .ok (a, b')) : b' = b := by
  cases c with
  | get id o =>
    obtain ⟨r, _, hr⟩ := map_eq_ok_iff.1 h
    cases hr
    rfl
  | contains id timeout? =>
    cases h
    rfl
  | getAllReplicas id timeout? =>
    obtain ⟨e, _, he⟩ := map_eq_ok_iff.1 h
    cases he
    rfl
  | getAnyReplica id timeout? =>
    obtain ⟨e, _, he⟩ := map_eq_ok_iff.1 h
    cases he
    rfl
  | _ => cases hread

namespace Store

variable {p : Policy} {s s' : Store} {k : Collection} {now : Nat} {c : Call} {b b' : Bucket}

theorem step_of_none (h : s.get? k.site = none) :
    step k now c s = (.error (.unavailable (unreachableReason k.site.bucket)), s) := by
  rw [step, h]

theorem step_of_error {f : Fault} (hb : s.get? k.site = some b)
    (h : b.step k.keyspace now c = .error f) : step k now c s = (.error f, s) := by
  rw [step, hb]
  simp only [h]

theorem step_of_ok {a : c.Answer} (hb : s.get? k.site = some b)
    (h : b.step k.keyspace now c = .ok (a, b')) :
    step k now c s = (.ok a, s.insert k.site b') := by
  rw [step, hb]
  simp only [h]

/-- A call over a connection to a collection is a step there. -/
theorem perform_of_step {r : Except Fault c.Answer} (h : step k now c s = (r, s')) :
    (backend p).perform (.live k) now c s = (.ofExcept r, s') := by
  have hperform : (backend p).perform (.live k) now c s =
      (.ofExcept (step k now c s).1, (step k now c s).2) := rfl
  rw [hperform, h]

/-- What a call over a connection comes to: a fault and the same store, or the answer of a bucket,
which is put back. -/
theorem perform_cases (p : Policy) (connection : Connection Collection) (now : Nat) (c : Call)
    (s : Store) :
    (∃ f, (backend p).perform connection now c s = (.fault f, s)) ∨
      ∃ k b b' a, connection = .live k ∧ s.get? k.site = some b ∧
        b.step k.keyspace now c = .ok (a, b') ∧
        (backend p).perform connection now c s = (.answer a, s.insert k.site b') := by
  cases connection with
  | unavailable reason => exact Or.inl ⟨_, rfl⟩
  | live k =>
    cases hb : s.get? k.site with
    | none => exact Or.inl ⟨_, perform_of_step (step_of_none hb)⟩
    | some b =>
      cases hstep : b.step k.keyspace now c with
      | error f => exact Or.inl ⟨f, perform_of_step (step_of_error hb hstep)⟩
      | ok done =>
        obtain ⟨a, b'⟩ := done
        exact Or.inr ⟨k, b, b', a, rfl, hb, hstep, perform_of_step (step_of_ok hb hstep)⟩

/-- A read leaves the store as it was. -/
theorem eq_of_isRead {connection : Connection Collection} {r : Attempt c.Answer}
    (hread : c.isRead = true) (h : (backend p).perform connection now c s = (r, s')) : s' = s := by
  rcases perform_cases p connection now c s with
    ⟨f, hperform⟩ | ⟨k, b, b', a, _, hb, hstep, hperform⟩
  · rw [hperform] at h
    exact (Prod.mk.inj h).2.symm
  · rw [hperform] at h
    rw [← (Prod.mk.inj h).2, Bucket.eq_of_isRead hread hstep]
    exact Table.insert_of_get? hb

end Store
end Memory
end Depot
