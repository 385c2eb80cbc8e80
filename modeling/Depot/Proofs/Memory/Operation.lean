import Depot.Memory.Bucket
import Depot.Proofs.Chaining
import Depot.Proofs.Text.Numeral

/-!
# When operations succeed

Each operation of a bucket first finds its document, live, live and unlocked, or live and open to a
given version, and then either fails or leaves one bucket behind. For every operation that can
change a bucket there is one equivalence here: it answers `a` and leaves `b'` exactly when what it
asks of the document holds, and then `a` and `b'` are the ones named. Later modules cite these
equivalences and do not open the operations.
-/

set_option autoImplicit false
set_option relaxedAutoImplicit false

namespace Depot.Memory.Bucket

variable {b b' : Bucket} {l : Location} {now : Nat}

/-! ## Finding documents -/

theorem live?_eq_some_iff {e : Entry} :
    b.live? l now = some e ↔ b.documents.get? l = some e ∧ e.isExpired now = false := by
  simp [live?, Option.filter_eq_some_iff]

theorem find_eq_ok_iff {e : Entry} : b.find l now = .ok e ↔ b.live? l now = some e := by
  unfold find
  cases b.live? l now <;> simp

theorem findUnlocked_eq_ok_iff {e : Entry} :
    b.findUnlocked l now = .ok e ↔ b.live? l now = some e ∧ e.isLocked now = false := by
  unfold findUnlocked find
  cases b.live? l now with
  | none => simp
  | some e' =>
    by_cases hlocked : e'.isLocked now = true
    · simp only [hlocked, if_true, reduceCtorEq, Option.some.injEq, false_iff, not_and]
      rintro rfl
      simp [hlocked]
    · simp only [hlocked, Bool.false_eq_true, if_false, Except.ok.injEq, Option.some.injEq]
      refine ⟨?_, fun h ↦ h.1⟩
      rintro rfl
      exact ⟨rfl, by simpa using hlocked⟩

theorem findMutable_eq_ok_iff {cas? : Option UInt64} {e : Entry} :
    b.findMutable l cas? now = .ok e ↔
      b.live? l now = some e ∧ e.checkMutable cas? now = .ok () := by
  unfold findMutable find
  cases b.live? l now with
  | none => simp
  | some e' =>
    change (e'.checkMutable cas? now).map (fun _ ↦ e') = .ok e ↔ _
    cases hcheck : e'.checkMutable cas? now with
    | error f =>
      simp only [Except.map, reduceCtorEq, Option.some.injEq, false_iff, not_and]
      rintro rfl
      simp [hcheck]
    | ok u =>
      simp only [Except.map, Except.ok.injEq, Option.some.injEq]
      refine ⟨?_, fun h ↦ h.1⟩
      rintro rfl
      exact ⟨rfl, hcheck⟩

/-! ## Reads -/

theorem get_eq_ok_iff {o : ReadOptions} {r : Reading} :
    b.get l o now = .ok r ↔ ∃ e, b.live? l now = some e ∧ ∃ content,
      (if o.project = [] then .ok e.content else Projection.ofContent e.content o.project) =
        .ok content ∧
      ⟨content, e.cas, if o.withExpiry then e.remaining? now else none⟩ = r := by
  unfold get
  simp only [bind_eq_ok_iff, find_eq_ok_iff]
  refine exists_congr fun e ↦ and_congr_right fun _ ↦ ?_
  by_cases hproject : o.project = []
  · simp only [hproject, if_true, bind_eq_ok_iff, Except.ok.injEq]
  · simp only [hproject, if_false, bind_eq_ok_iff, Except.ok.injEq]

/-! ## Writes -/

theorem insert_eq_ok_iff {content : Bytes} {o : WriteOptions} {m : Mutation} :
    b.insert l content o now = .ok (m, b') ↔
      b.live? l now = none ∧ b.mutation l.id = m ∧ b.store l content o.expiry? now = b' := by
  unfold insert
  cases b.live? l now <;> simp

theorem upsert_eq_ok_iff {content : Bytes} {o : WriteOptions} {m : Mutation} :
    b.upsert l content o now = .ok (m, b') ↔
      (∀ e, b.live? l now = some e → e.isLocked now = false) ∧
        b.mutation l.id = m ∧ b.store l content o.expiry? now = b' := by
  unfold upsert
  cases b.live? l now with
  | none => simp
  | some e => cases hlocked : e.isLocked now <;> simp [hlocked]

theorem replace_eq_ok_iff {content : Bytes} {o : WriteOptions} {m : Mutation} :
    b.replace l content o now = .ok (m, b') ↔
      ∃ e, (b.live? l now = some e ∧ e.checkMutable o.cas? now = .ok ()) ∧
        b.mutation l.id = m ∧ b.store l content o.expiry? now = b' := by
  unfold replace
  simp only [bind_eq_ok_iff, findMutable_eq_ok_iff, Except.ok.injEq, Prod.mk.injEq]

theorem remove_eq_ok_iff {o : WriteOptions} {m : Mutation} :
    b.remove l o now = .ok (m, b') ↔
      ∃ e, (b.live? l now = some e ∧ e.checkMutable o.cas? now = .ok ()) ∧
        b.mutation l.id = m ∧ (b.drop l).advance l.id = b' := by
  unfold remove
  simp only [bind_eq_ok_iff, findMutable_eq_ok_iff, Except.ok.injEq, Prod.mk.injEq]

/-- A counter is stored as the decimal digits of its value. -/
theorem increment_eq_ok_iff {o : CountOptions} {r : Count} :
    b.increment l o now = .ok (r, b') ↔ ∃ n, b.nextCount l o now = .ok n ∧
      ⟨n, b.nextCas, (b.mutation l.id).token⟩ = r ∧
        b.store l (Text.digitBytes n.toNat) o.expiry? now = b' := by
  unfold increment
  simp only [bind_eq_ok_iff, Except.ok.injEq, Prod.mk.injEq, countText,
    Text.encodeChars_writeNumeral]
  rfl

/-! ## Touches and locks -/

theorem touch_eq_ok_iff {expiry : Nat} {m : Mutation} :
    b.touch l expiry now = .ok (m, b') ↔
      ∃ e, (b.live? l now = some e ∧ e.isLocked now = false) ∧ b.mutation l.id = m ∧
        (b.write l fun cas ↦
          { e with cas, expiresAt? := deadline? now (some expiry) }).advance l.id = b' := by
  unfold touch
  simp only [bind_eq_ok_iff, findUnlocked_eq_ok_iff, Except.ok.injEq, Prod.mk.injEq]

/-- A lock that is asked for no time holds for fifteen seconds. -/
theorem getAndLock_eq_ok_iff {time : Nat} {r : Reading} :
    b.getAndLock l time now = .ok (r, b') ↔
      ∃ e, (b.live? l now = some e ∧ e.isLocked now = false) ∧
        ⟨e.content, b.nextCas, none⟩ = r ∧
        (b.write l fun cas ↦ { e with
          cas, lockedUntil? := some (now + if time = 0 then 15000000000 else time) }) = b' := by
  unfold getAndLock
  simp only [bind_eq_ok_iff, findUnlocked_eq_ok_iff, Except.ok.injEq, Prod.mk.injEq,
    defaultLockTime]

theorem getAndTouch_eq_ok_iff {expiry : Nat} {r : Reading} :
    b.getAndTouch l expiry now = .ok (r, b') ↔
      ∃ e, (b.live? l now = some e ∧ e.isLocked now = false) ∧
        ⟨e.content, b.nextCas, (deadline? now (some expiry)).map (· - now)⟩ = r ∧
        (b.write l fun cas ↦ { e with cas, expiresAt? := deadline? now (some expiry) }) = b' := by
  unfold getAndTouch
  simp only [bind_eq_ok_iff, findUnlocked_eq_ok_iff, Except.ok.injEq, Prod.mk.injEq]

theorem unlock_eq_ok_iff {cas : UInt64} :
    b.unlock l cas now = .ok b' ↔
      ∃ e, b.live? l now = some e ∧ e.isLocked now = true ∧ e.cas = cas ∧
        { b with documents := b.documents.insert l { e with lockedUntil? := none } } = b' := by
  unfold unlock
  simp only [bind_eq_ok_iff, find_eq_ok_iff]
  refine exists_congr fun e ↦ and_congr_right fun _ ↦ ?_
  cases e.isLocked now
  · simp
  · by_cases hcas : e.cas = cas <;> simp [hcas]

end Depot.Memory.Bucket
