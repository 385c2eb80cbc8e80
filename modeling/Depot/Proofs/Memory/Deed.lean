import Depot.Proofs.Memory.Operation

/-!
# What calls do to documents

An answered call does one of six things to the one document that it names: it looks, writes,
touches, locks, unlocks or removes. Which of them it was, with the content, the lifetime and the
version that came of it, can be told from the request and the answer alone; that is its `Deed`.
`Deed.apply` says what becomes of a document under a deed, and `Bucket.follows_of_step` that this is
all that an answered call does to a bucket: no other document changes, and the clock moves to the
version that the deed gave, which is the next one. The histories of documents are lists of deeds,
and every statement about runs rests on that lemma and not on the thirteen calls.
-/

set_option autoImplicit false
set_option relaxedAutoImplicit false

namespace Depot.Memory

theorem deadline?_of_ne_zero {now span : Nat} (h : span ≠ 0) :
    deadline? now (some span) = some (now + span) := by
  simp [deadline?, Option.filter_some, h]

/-- What an answered call did to its document. -/
inductive Deed where
  | looked
  | wrote (content : Bytes) (expiry? : Option Nat) (cas : UInt64)
  | touched (expiry : Nat) (cas : UInt64)
  | locked (time : Nat) (cas : UInt64)
  | unlocked
  | removed (cas : UInt64)
  deriving DecidableEq, Repr

namespace Deed

/-- The deed of an answered call. A counter writes the decimal digits of the value that it
answers. -/
def of : (c : Call) → c.Answer → Deed
  | .get .., _ => looked
  | .contains .., _ => looked
  | .insert _ content o, m => wrote content o.expiry? m.cas
  | .upsert _ content o, m => wrote content o.expiry? m.cas
  | .replace _ content o, m => wrote content o.expiry? m.cas
  | .remove .., m => removed m.cas
  | .touch _ expiry _, m => touched expiry m.cas
  | .getAndLock _ time _, r => locked time r.cas
  | .getAndTouch _ expiry _, r => touched expiry r.cas
  | .unlock .., _ => unlocked
  | .getAllReplicas .., _ => looked
  | .getAnyReplica .., _ => looked
  | .increment _ o, n => wrote (Text.digitBytes n.value.toNat) o.expiry? n.cas

/-- The version that a deed gave; looking and unlocking give none. -/
def version? : Deed → Option UInt64
  | looked => none
  | wrote _ _ cas => some cas
  | touched _ cas => some cas
  | locked _ cas => some cas
  | unlocked => none
  | removed cas => some cas

/-- How long a lock holds that was asked for a time; zero asks for fifteen seconds. -/
def lockSpan (time : Nat) : Nat := if time = 0 then 15000000000 else time

/-- What becomes of a document, or of its absence, under a deed at a time. -/
def apply (now : Nat) : Deed → Option Entry → Option Entry
  | looked, e? => e?
  | wrote content expiry? cas, _ => some ⟨content, cas, deadline? now expiry?, none⟩
  | touched expiry cas, e? =>
    e?.map fun e ↦ { e with cas, expiresAt? := deadline? now (some expiry) }
  | locked time cas, e? => e?.map fun e ↦ { e with cas, lockedUntil? := some (now + lockSpan time) }
  | unlocked, e? => e?.map fun e ↦ { e with lockedUntil? := none }
  | removed _, _ => none

/-- Whatever is there after a deed that gives a version has that version. -/
theorem cas_of_apply {now : Nat} {d : Deed} {e? : Option Entry} {e : Entry} {cas : UInt64}
    (happly : d.apply now e? = some e) (hversion : d.version? = some cas) : e.cas = cas := by
  cases d with
  | looked => simp [version?] at hversion
  | unlocked => simp [version?] at hversion
  | removed => simp [apply] at happly
  | wrote content expiry? given =>
    simp only [apply, Option.some.injEq] at happly
    simp only [version?, Option.some.injEq] at hversion
    rw [← happly, ← hversion]
  | touched expiry given =>
    obtain ⟨old, _, rfl⟩ := Option.map_eq_some_iff.1 happly
    exact Option.some.inj hversion
  | locked time given =>
    obtain ⟨old, _, rfl⟩ := Option.map_eq_some_iff.1 happly
    exact Option.some.inj hversion

theorem looked_or_unlocked_of_version? {d : Deed} (hversion : d.version? = none) :
    d = looked ∨ d = unlocked := by
  cases d with
  | looked => exact Or.inl rfl
  | unlocked => exact Or.inr rfl
  | _ => cases hversion

/-- A deed that gives no version keeps the document but for its lock. -/
theorem apply_of_version?_eq_none {now : Nat} {d : Deed} {e : Entry}
    (hversion : d.version? = none) :
    ∃ until?, d.apply now (some e) = some { e with lockedUntil? := until? } := by
  rcases looked_or_unlocked_of_version? hversion with rfl | rfl
  · exact ⟨e.lockedUntil?, rfl⟩
  · exact ⟨none, rfl⟩

/-- A deed that gives no version does not bring a document about. -/
theorem apply_none_of_version?_eq_none {now : Nat} {d : Deed} (hversion : d.version? = none) :
    d.apply now none = none := by
  rcases looked_or_unlocked_of_version? hversion with rfl | rfl <;> rfl

end Deed

namespace Bucket

variable {b b' : Bucket} {l : Location} {now : Nat}

/-! ## Steps -/

/-- What a deed on the document at `l` makes of the bucket `b`. -/
structure Follows (b : Bucket) (l : Location) (now : Nat) (d : Deed) (b' : Bucket) : Prop where
  document : b'.documents.get? l = d.apply now (b.documents.get? l)
  others : ∀ other, l ≠ other → b'.documents.get? other = b.documents.get? other
  version : ∀ cas, d.version? = some cas → cas = b.nextCas
  clock : b'.clock = d.version?.getD b.clock

theorem follows_looked : Follows b l now .looked b :=
  ⟨rfl, fun _ _ ↦ rfl, nofun, rfl⟩

/-- Giving the next version to an entry follows every deed that makes that entry. -/
theorem follows_write {d : Deed} {e : UInt64 → Entry}
    (happly : d.apply now (b.documents.get? l) = some (e b.nextCas))
    (hversion : d.version? = some b.nextCas) : Follows b l now d (b.write l e) where
  document := by rw [happly]; exact Table.get?_insert_self _ _ _
  others := fun _ hne ↦ Table.get?_insert_of_ne _ hne _
  version := fun cas h ↦ Option.some.inj (h ▸ hversion)
  clock := by rw [hversion]; rfl

theorem follows_rewrite {d : Deed} {old : Entry} {e : UInt64 → Entry}
    (hold : b.documents.get? l = some old) (happly : d.apply now (some old) = some (e b.nextCas))
    (hversion : d.version? = some b.nextCas) : Follows b l now d (b.write l e) :=
  follows_write (hold ▸ happly) hversion

/-- Counting a mutation changes neither documents nor the clock. -/
theorem Follows.advance {d : Deed} (h : Follows b l now d b') (id : String) :
    Follows b l now d (b'.advance id) :=
  ⟨h.document, h.others, h.version, h.clock⟩

theorem follows_store {content : Bytes} {expiry? : Option Nat} :
    Follows b l now (.wrote content expiry? b.nextCas) (b.store l content expiry? now) :=
  (follows_write rfl rfl).advance l.id

theorem follows_drop : Follows b l now (.removed b.nextCas) ((b.drop l).advance l.id) where
  document := by simp [advance, drop, Table.get?_erase, Deed.apply]
  others := fun other hne ↦ by simp [advance, drop, Table.get?_erase, hne]
  version := fun cas h ↦ (Option.some.inj h).symm
  clock := rfl

theorem follows_unlock {e : Entry} (he : b.documents.get? l = some e) :
    Follows b l now .unlocked
      { b with documents := b.documents.insert l { e with lockedUntil? := none } } where
  document := by
    rw [he]
    exact Table.get?_insert_self _ _ _
  others := fun _ hne ↦ Table.get?_insert_of_ne _ hne _
  version := nofun
  clock := rfl

/-- An answered call does to its bucket what its deed says, and nothing else. -/
theorem follows_of_step {k : Keyspace} {c : Call} {a : c.Answer}
    (h : b.step k now c = .ok (a, b')) : Follows b ⟨k, c.id⟩ now (.of c a) b' := by
  cases c with
  | get id o =>
    obtain ⟨r, _, hr⟩ := map_eq_ok_iff.1 h
    cases hr
    exact follows_looked
  | contains id timeout? =>
    cases h
    exact follows_looked
  | getAllReplicas id timeout? =>
    obtain ⟨e, _, he⟩ := map_eq_ok_iff.1 h
    cases he
    exact follows_looked
  | getAnyReplica id timeout? =>
    obtain ⟨e, _, he⟩ := map_eq_ok_iff.1 h
    cases he
    exact follows_looked
  | insert id content o =>
    obtain ⟨_, rfl, rfl⟩ := insert_eq_ok_iff.1 h
    exact follows_store
  | upsert id content o =>
    obtain ⟨_, rfl, rfl⟩ := upsert_eq_ok_iff.1 h
    exact follows_store
  | replace id content o =>
    obtain ⟨_, _, rfl, rfl⟩ := replace_eq_ok_iff.1 h
    exact follows_store
  | increment id o =>
    obtain ⟨n, _, rfl, rfl⟩ := increment_eq_ok_iff.1 h
    exact follows_store
  | remove id o =>
    obtain ⟨_, _, rfl, rfl⟩ := remove_eq_ok_iff.1 h
    exact follows_drop
  | touch id expiry timeout? =>
    obtain ⟨e, ⟨he, _⟩, rfl, rfl⟩ := touch_eq_ok_iff.1 h
    exact (follows_rewrite (live?_eq_some_iff.1 he).1 rfl rfl).advance id
  | getAndLock id time timeout? =>
    obtain ⟨e, ⟨he, _⟩, rfl, rfl⟩ := getAndLock_eq_ok_iff.1 h
    exact follows_rewrite (live?_eq_some_iff.1 he).1 rfl rfl
  | getAndTouch id expiry timeout? =>
    obtain ⟨e, ⟨he, _⟩, rfl, rfl⟩ := getAndTouch_eq_ok_iff.1 h
    exact follows_rewrite (live?_eq_some_iff.1 he).1 rfl rfl
  | unlock id cas timeout? =>
    obtain ⟨b₁, hunlock, hb⟩ := map_eq_ok_iff.1 h
    cases hb
    obtain ⟨e, he, _, _, rfl⟩ := unlock_eq_ok_iff.1 hunlock
    exact follows_unlock (live?_eq_some_iff.1 he).1

end Bucket
end Depot.Memory
