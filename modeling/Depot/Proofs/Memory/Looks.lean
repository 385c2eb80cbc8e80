import Depot.Proofs.Memory.Expiry

/-!
# Looking at documents

Eleven of the thirteen calls tell whether their document is there, each in its own way
(`Call.Finds`, `Call.Misses`); an upsert and a counter take both cases, and a projection can fail
for the content. All of them come to the one lookup of their bucket, so over every link that leads
to a place they find its document where it is live (`finds_iff`) and miss it where it is not
(`misses_of_absent`), and what they show of it is the same document (`presents_of_live?`), in as
many copies as the policy says (`replicated_after`). A lock is no part of what a read answers
(`Bucket.read_restamp`): hubs that differ in locks answer reads alike, and locking a document
changes only the version (`answer?_locked`).
-/

set_option autoImplicit false
set_option relaxedAutoImplicit false

namespace Depot

open Memory

namespace Call

/-- The calls that tell whether their document is there. -/
def looks : Call → Bool
  | get _ o => o.project.isEmpty
  | upsert .. => false
  | increment .. => false
  | _ => true

/-- What such a call comes to where its document is there. -/
def Finds : (c : Call) → Attempt c.Answer → Prop
  | contains .., r => r = .answer true
  | get .., r => ∃ reading, r = .answer reading
  | getAllReplicas .., r => ∃ copies, r = .answer copies
  | getAnyReplica .., r => ∃ copy, r = .answer copy
  | insert .., r => r = .fault .documentExists
  | _, r => r ≠ .fault .documentNotFound

/-- What such a call comes to where its document is not there. -/
def Misses : (c : Call) → Attempt c.Answer → Prop
  | contains .., r => r = .answer false
  | insert .., r => ∃ m, r = .answer m
  | _, r => r = .fault .documentNotFound

/-- The answer of a read with other versions. -/
def restamp (f : UInt64 → UInt64) : (c : Call) → c.Answer → c.Answer
  | get .., r => { r with cas := f r.cas }
  | getAllReplicas .., copies => copies.map fun copy ↦ { copy with cas := f copy.cas }
  | getAnyReplica .., copy => { copy with cas := f copy.cas }
  | _, a => a

variable {c : Call} {e : Entry} {isLocked : Bool} {r : Attempt c.Answer}

theorem not_finds_of_misses (hlooks : c.looks = true) (hmisses : c.Misses r) : ¬ c.Finds r := by
  cases c with
  | upsert id content o => cases hlooks
  | increment id o => cases hlooks
  | insert id content o =>
    obtain ⟨m, rfl⟩ := hmisses
    exact nofun
  | replace id content o => exact fun hfinds ↦ hfinds hmisses
  | remove id o => exact fun hfinds ↦ hfinds hmisses
  | touch id expiry timeout? => exact fun hfinds ↦ hfinds hmisses
  | getAndLock id time timeout? => exact fun hfinds ↦ hfinds hmisses
  | getAndTouch id expiry timeout? => exact fun hfinds ↦ hfinds hmisses
  | unlock id cas timeout? => exact fun hfinds ↦ hfinds hmisses
  | _ =>
    obtain rfl := hmisses
    simp [Finds]

theorem restamp_id (hread : c.isRead = true) (a : c.Answer) : c.restamp (fun v ↦ v) a = a := by
  cases c with
  | getAllReplicas id timeout? => exact List.map_id _
  | get id o => rfl
  | contains id timeout? => rfl
  | getAnyReplica id timeout? => rfl
  | _ => cases hread

/-- Nothing is missed that is there. -/
theorem refusal?_ne_documentNotFound (e : Entry) (isLocked : Bool) (c : Call) :
    c.refusal? e isLocked ≠ some .documentNotFound := by
  cases c with
  | get id o =>
    unfold refusal? Projection.ofContent
    by_cases hproject : o.project = []
    · simp [hproject]
    · cases Json.parse e.content <;> simp [hproject]
  | replace id content o =>
    rw [refusal?]
    split <;> cases isLocked <;> simp
  | remove id o =>
    rw [refusal?]
    split <;> cases isLocked <;> simp
  | unlock id cas timeout? =>
    rw [refusal?]
    split
    · split <;> simp
    · simp
  | increment id o =>
    unfold refusal?
    cases e.counter? <;> cases isLocked <;> simp
  | _ => cases isLocked <;> simp [refusal?]

theorem AnswersOn.ne_documentNotFound (hanswers : c.AnswersOn e isLocked r) :
    r ≠ .fault .documentNotFound := by
  cases hrefusal : c.refusal? e isLocked with
  | none =>
    obtain ⟨a, rfl, -⟩ := (answersOn_of_none hrefusal).1 hanswers
    exact nofun
  | some f =>
    rw [answersOn_of_some hrefusal] at hanswers
    rintro rfl
    injection hanswers with hf
    exact refusal?_ne_documentNotFound e isLocked c (hf ▸ hrefusal)

/-- On a live document a call that looks finds it. -/
theorem AnswersOn.finds (hlooks : c.looks = true) (hanswers : c.AnswersOn e isLocked r) :
    c.Finds r := by
  cases c with
  | upsert id content o => cases hlooks
  | increment id o => cases hlooks
  | get id o =>
    have hproject : refusal? e isLocked (.get id o) = none := if_pos (List.isEmpty_iff.1 hlooks)
    obtain ⟨a, rfl, -⟩ := (answersOn_of_none hproject).1 hanswers
    exact ⟨a, rfl⟩
  | contains id timeout? =>
    obtain ⟨a, rfl, rfl⟩ := (answersOn_of_none rfl).1 hanswers
    rfl
  | getAllReplicas id timeout? =>
    obtain ⟨a, rfl, -⟩ := (answersOn_of_none rfl).1 hanswers
    exact ⟨a, rfl⟩
  | getAnyReplica id timeout? =>
    obtain ⟨a, rfl, -⟩ := (answersOn_of_none rfl).1 hanswers
    exact ⟨a, rfl⟩
  | insert id content o => exact (answersOn_of_some rfl).1 hanswers
  | _ => exact hanswers.ne_documentNotFound

end Call

namespace Memory

namespace Bucket

variable {b b' : Bucket} {k : Keyspace} {now : Nat} {c : Call} {e : Entry}

/-! ## Finding and missing -/

/-- Where no document is live, a call that looks misses it. -/
theorem misses_of_absent (hlooks : c.looks = true) (hnone : b.live? ⟨k, c.id⟩ now = none) :
    c.Misses (.ofExcept ((b.step k now c).map Prod.fst)) := by
  have habsent := step_of_absent hnone
  cases c with
  | upsert id content o => cases hlooks
  | increment id o => cases hlooks
  | contains id timeout? =>
    change b.live? ⟨k, id⟩ now = none at hnone
    change Attempt.answer (b.live? ⟨k, id⟩ now).isSome = .answer false
    rw [hnone]
    rfl
  | insert id content o =>
    obtain ⟨done, hdone⟩ := habsent
    rw [hdone]
    exact ⟨done.1, rfl⟩
  | _ =>
    rw [show b.step k now _ = .error .documentNotFound from habsent]
    rfl

/-! ## What reads show -/

/-- Reads of two buckets answer alike but for the versions, if they find the same content with the
same lifetime there. -/
theorem read_restamp (f : UInt64 → UInt64) (until? : Entry → Option Nat) (hread : c.isRead = true)
    (hreplicas : b'.replicas = b.replicas)
    (hlive : b'.live? ⟨k, c.id⟩ now = (b.live? ⟨k, c.id⟩ now).map fun e ↦
      { e with cas := f e.cas, lockedUntil? := until? e }) :
    (b'.step k now c).map Prod.fst = ((b.step k now c).map Prod.fst).map (c.restamp f) := by
  cases c with
  | get id o =>
    change b'.live? ⟨k, id⟩ now = (b.live? ⟨k, id⟩ now).map _ at hlive
    simp only [step]
    cases he : b.live? ⟨k, id⟩ now with
    | none =>
      rw [he] at hlive
      simp only [get, find, he, hlive]
      rfl
    | some e =>
      rw [he] at hlive
      rw [get_of_live? he, get_of_live? hlive]
      by_cases hproject : o.project = []
      · simp only [hproject, if_true]
        rfl
      · simp only [hproject, if_false]
        cases Projection.ofContent e.content o.project <;> rfl
  | contains id timeout? =>
    change b'.live? ⟨k, id⟩ now = (b.live? ⟨k, id⟩ now).map _ at hlive
    simp only [step, hlive]
    cases b.live? ⟨k, id⟩ now <;> rfl
  | getAllReplicas id timeout? =>
    change b'.live? ⟨k, id⟩ now = (b.live? ⟨k, id⟩ now).map _ at hlive
    simp only [step, find, hlive, hreplicas]
    cases b.live? ⟨k, id⟩ now with
    | none => rfl
    | some e => simp [Except.map, Entry.copies, Call.restamp]
  | getAnyReplica id timeout? =>
    change b'.live? ⟨k, id⟩ now = (b.live? ⟨k, id⟩ now).map _ at hlive
    simp only [step, find, hlive]
    cases b.live? ⟨k, id⟩ now <;> rfl
  | _ => cases hread

/-! ## Replicas and locks -/

theorem replicas_of_step {a : c.Answer} (h : b.step k now c = .ok (a, b')) :
    b'.replicas = b.replicas := by
  cases hread : c.isRead with
  | true => rw [eq_of_isRead hread h]
  | false =>
    cases c with
    | insert id content o =>
      obtain ⟨-, -, rfl⟩ := insert_eq_ok_iff.1 h
      rfl
    | upsert id content o =>
      obtain ⟨-, -, rfl⟩ := upsert_eq_ok_iff.1 h
      rfl
    | replace id content o =>
      obtain ⟨-, -, -, rfl⟩ := replace_eq_ok_iff.1 h
      rfl
    | remove id o =>
      obtain ⟨-, -, -, rfl⟩ := remove_eq_ok_iff.1 h
      rfl
    | increment id o =>
      obtain ⟨-, -, -, rfl⟩ := increment_eq_ok_iff.1 h
      rfl
    | touch id expiry timeout? =>
      obtain ⟨-, -, -, rfl⟩ := touch_eq_ok_iff.1 h
      rfl
    | getAndLock id time timeout? =>
      obtain ⟨-, -, -, rfl⟩ := getAndLock_eq_ok_iff.1 h
      rfl
    | getAndTouch id expiry timeout? =>
      obtain ⟨-, -, -, rfl⟩ := getAndTouch_eq_ok_iff.1 h
      rfl
    | unlock id cas timeout? =>
      obtain ⟨b₁, hunlock, hb⟩ := map_eq_ok_iff.1 h
      cases hb
      obtain ⟨-, -, -, -, rfl⟩ := unlock_eq_ok_iff.1 hunlock
      rfl
    | _ => cases hread

/-- The same bucket with no lock on any document. -/
def withoutLocks (b : Bucket) : Bucket :=
  { b with documents := b.documents.mapValues fun e ↦ { e with lockedUntil? := none } }

theorem live?_withoutLocks (b : Bucket) (l : Location) (now : Nat) :
    b.withoutLocks.live? l now =
      (b.live? l now).map fun e ↦ { e with lockedUntil? := none } := by
  simp only [live?, withoutLocks, Table.get?_mapValues, Option.filter_map]
  rfl

theorem map_restamp_id (hread : c.isRead = true) (r : Except Fault c.Answer) :
    r.map (c.restamp fun v ↦ v) = r := by
  cases r with
  | error f => rfl
  | ok a => exact congrArg Except.ok (Call.restamp_id hread a)

/-- A lock is no part of what a read answers. -/
theorem read_withoutLocks (hread : c.isRead = true) :
    (b.withoutLocks.step k now c).map Prod.fst = (b.step k now c).map Prod.fst := by
  have hreplicas : b.withoutLocks.replicas = b.replicas := rfl
  rw [read_restamp (fun v ↦ v) (fun _ ↦ none) hread hreplicas (live?_withoutLocks b ⟨k, c.id⟩ now),
    map_restamp_id hread]

/-- An unlock changes nothing but a lock. -/
theorem withoutLocks_unlock {id : String} {cas : UInt64} {timeout? : Option Nat} :
    (b.handle ⟨k, now, .unlock id cas timeout?⟩).withoutLocks = b.withoutLocks := by
  cases hstep : b.step k now (.unlock id cas timeout?) with
  | error f => rw [handle, answer, hstep]
  | ok done =>
    obtain ⟨b₁, hunlock, hb⟩ := map_eq_ok_iff.1 hstep
    obtain ⟨e, he, -, -, rfl⟩ := unlock_eq_ok_iff.1 hunlock
    rw [handle, answer, hstep, ← hb]
    simp only [withoutLocks, Table.mapValues_insert]
    rw [Table.insert_of_get?]
    rw [Table.get?_mapValues, (live?_eq_some_iff.1 he).1]
    rfl

/-- A document that was locked reads as before, with the version of its lock. -/
theorem read_locked {id : String} {time since : Nat} {timeout? : Option Nat} {r : Reading}
    (hlock : b.step k since (.getAndLock id time timeout?) = .ok (r, b')) (hread : c.isRead = true)
    (hid : c.id = id) :
    (b'.step k now c).map Prod.fst =
      ((b.step k now c).map Prod.fst).map (c.restamp fun _ ↦ r.cas) := by
  have hdocument : b'.documents.get? ⟨k, id⟩ =
      (Deed.locked time r.cas).apply since (b.documents.get? ⟨k, id⟩) :=
    (follows_of_step hlock).document
  refine read_restamp _ (fun _ ↦ some (since + Deed.lockSpan time)) hread
    (replicas_of_step hlock) ?_
  rw [live?, hid, hdocument, Deed.apply, Option.filter_map]
  rfl

/-- Other documents read as before. -/
theorem read_others {c' : Call} {a : c'.Answer} {k' : Keyspace} {since : Nat}
    (hstep : b.step k' since c' = .ok (a, b')) (hread : c.isRead = true)
    (hother : (⟨k', c'.id⟩ : Location) ≠ ⟨k, c.id⟩) :
    (b'.step k now c).map Prod.fst = (b.step k now c).map Prod.fst := by
  have hsame := (follows_of_step hstep).others _ hother
  have hlive : b'.live? ⟨k, c.id⟩ now = (b.live? ⟨k, c.id⟩ now).map fun e ↦ e := by
    rw [live?, hsame, ← live?]
    exact Option.map_id'.symm
  rw [read_restamp (fun v ↦ v) Entry.lockedUntil? hread (replicas_of_step hstep) hlive,
    map_restamp_id hread]

end Bucket

namespace Hub

variable {p : Policy} {h h' : Hub} {place : Place} {link now : Nat} {c : Call}

/-- A bucket has as many replicas as its policy says. -/
def Replicated (p : Policy) (h : Hub) : Prop :=
  ∀ site b, h.store.get? site = some b → b.replicas = p.replicas

theorem Replicated.act (hreplicated : h.Replicated p) (action : Action) :
    (h.act p action).Replicated p := by
  intro site b hb
  cases action with
  | connect args =>
    rcases store_connect p h args with hstore | ⟨opened, hstore⟩
    · exact hreplicated site b (hstore ▸ hb)
    · rw [hstore, Store.get?_ensure_eq] at hb
      split at hb
      · cases hold : h.store.get? opened with
        | some old =>
          rw [hold] at hb
          exact Option.some.inj hb ▸ hreplicated _ _ hold
        | none =>
          rw [hold] at hb
          exact Option.some.inj hb ▸ rfl
      · exact hreplicated site b hb
  | call link now c =>
    rcases act_call_cases p h link now c with
      ⟨-, -, hact⟩ | ⟨place, old, new, a, -, hold, hstep, -, -, hact⟩
    · exact hreplicated site b (hact ▸ hb)
    · rw [hact, Table.get?_insert] at hb
      split at hb
      · obtain rfl := Option.some.inj hb
        exact (Bucket.replicas_of_step hstep).trans (hreplicated _ _ hold)
      · exact hreplicated site b hb

theorem replicated_after (p : Policy) (run : List Action) : (empty.after p run).Replicated p := by
  suffices ∀ h : Hub, h.Replicated p → (h.after p run).Replicated p from this empty nofun
  induction run with
  | nil => exact fun h hreplicated ↦ hreplicated
  | cons action run ih => exact fun h hreplicated ↦ ih _ (hreplicated.act action)

/-! ## Locks -/

/-- Two hubs that differ in the locks on their documents at most. -/
abbrev SameButLocks : Hub → Hub → Prop := Related fun _ b b' ↦ b'.withoutLocks = b.withoutLocks

theorem SameButLocks.answer? (hsame : h.SameButLocks h') (link now : Nat)
    (hread : c.isRead = true) : h'.answer? p link now c = h.answer? p link now c :=
  hsame.answers_alike fun _ _ _ _ hlocks ↦ by
    rw [← Bucket.read_withoutLocks hread, hlocks, Bucket.read_withoutLocks hread]

theorem sameButLocks_unlock (p : Policy) (h : Hub) (link now : Nat) (id : String) (cas : UInt64)
    (timeout? : Option Nat) :
    h.SameButLocks (h.act p (.call link now (.unlock id cas timeout?))) := by
  have hself : h.SameButLocks h :=
    related_self (R := fun _ b b' ↦ b'.withoutLocks = b.withoutLocks) (fun _ _ ↦ rfl) h
  refine hself.bucketwise (Bucketwise.refl h)
    (bucketwise_call p h link now _) fun site b b' hb ↦ ?_
  unfold moved
  cases h.place? link (Call.unlock id cas timeout?).id with
  | none => exact hb
  | some place =>
    dsimp only
    split
    · exact Bucket.withoutLocks_unlock.trans hb
    · exact hb

/-- Locking a document changes only the version that reads of it answer, to that of the lock. -/
theorem answer?_locked {id : String} {since time : Nat} {timeout? : Option Nat} {r : Reading}
    (hanswer : h.answer? p link since (.getAndLock id time timeout?) = some (.answer r)) :
    ∃ place, h.place? link id = some place ∧ ∀ link' now c other, c.isRead = true →
      h.place? link' c.id = some other → (∃ b, h.store.get? other.site = some b) →
      ∃ attempt : Except Fault c.Answer,
        h.answer? p link' now c = some (.ofExcept attempt) ∧
        (h.act p (.call link since (.getAndLock id time timeout?))).answer? p link' now c =
          some (.ofExcept (if other = place then attempt.map (c.restamp fun _ ↦ r.cas)
            else attempt)) := by
  obtain ⟨place, b, b', hplace, hb, hstep⟩ := bucket_of_answer? hanswer
  refine ⟨place, hplace, fun link' now c other hread hother ⟨found, hfound⟩ ↦
    ⟨_, answer?_of_bucket hother hfound, ?_⟩⟩
  have hwise := bucketwise_call p h link since (.getAndLock id time timeout?)
  have hmoved := hwise.bucket other.site
  rw [hfound, Option.map_some] at hmoved
  rw [answer?_of_bucket ((place?_congr hwise.links link' c.id).trans hother) hmoved]
  simp only [moved, show h.place? link (Call.getAndLock id time timeout?).id = _ from hplace]
  by_cases hsite : place.site = other.site
  · obtain rfl : b = found := Option.some.inj (hb.symm.trans (hsite ▸ hfound))
    have hhandle : b.handle ⟨place.collection.keyspace, since, .getAndLock id time timeout?⟩ = b' :=
      (Bucket.deed?_of_answered (q := ⟨_, since, .getAndLock id time timeout?⟩) hstep).2
    rw [if_pos hsite, hhandle]
    have hlocation : place.location = ⟨place.collection.keyspace, id⟩ :=
      location_of_place? hplace
    have hlocation' := location_of_place? hother
    by_cases hsame : other = place
    · subst hsame
      have hid : c.id = id := congrArg Location.id (hlocation'.symm.trans hlocation)
      rw [if_pos rfl, Bucket.read_locked hstep hread hid]
    · have hne : (⟨place.collection.keyspace, id⟩ : Location) ≠
          ⟨other.collection.keyspace, c.id⟩ := by
        rw [← hlocation, ← hlocation']
        exact fun heq ↦ hsame (Place.ext_of_location hsite heq).symm
      rw [if_neg hsame, Bucket.read_others hstep hread hne]
  · have hother : other ≠ place := fun heq ↦ hsite (heq ▸ rfl)
    rw [if_neg hsite, if_neg hother]

/-! ## Looking -/

/-- The call finds its document over the link. -/
def Finds (p : Policy) (h : Hub) (link now : Nat) (c : Call) : Prop :=
  ∃ r, h.answer? p link now c = some r ∧ c.Finds r

/-- The call misses its document over the link. -/
def Misses (p : Policy) (h : Hub) (link now : Nat) (c : Call) : Prop :=
  ∃ r, h.answer? p link now c = some r ∧ c.Misses r

/-- All the ways to read the document at a place show this content and this version. -/
structure Presents (p : Policy) (h : Hub) (place : Place) (now : Nat) (content : Bytes)
    (cas : UInt64) : Prop where
  get : ∀ link o, h.place? link place.id = some place → o.project = [] →
    ∃ remaining?, h.answer? p link now (.get place.id o) =
      some (.answer ⟨content, cas, remaining?⟩)
  anyReplica : ∀ link timeout?, h.place? link place.id = some place →
    h.answer? p link now (.getAnyReplica place.id timeout?) =
      some (.answer ⟨content, cas, false⟩)
  allReplicas : ∀ link timeout?, h.place? link place.id = some place →
    h.answer? p link now (.getAllReplicas place.id timeout?) =
      some (.answer (⟨content, cas, false⟩ :: List.replicate p.replicas ⟨content, cas, true⟩))
  touched : ∀ link later expiry timeout? r, h.place? link place.id = some place →
    h.answer? p link later (.getAndTouch place.id expiry timeout?) = some (.answer r) →
      r.content = content
  locked : ∀ link later time timeout? r, h.place? link place.id = some place →
    h.answer? p link later (.getAndLock place.id time timeout?) = some (.answer r) →
      r.content = content

theorem finds_of_live? {e : Entry} (hplace : h.place? link c.id = some place)
    (he : h.store.live? place now = some e) (hlooks : c.looks = true) : h.Finds p link now c := by
  obtain ⟨r, hr, hanswers⟩ := answersOn_of_live? (p := p) hplace he
  exact ⟨r, hr, hanswers.finds hlooks⟩

theorem misses_of_absent {b : Bucket} (hplace : h.place? link c.id = some place)
    (hb : h.store.get? place.site = some b) (hnone : h.store.live? place now = none)
    (hlooks : c.looks = true) : h.Misses p link now c := by
  rw [Store.live?_of_bucket hb, location_of_place? hplace] at hnone
  exact ⟨_, answer?_of_bucket hplace hb, Bucket.misses_of_absent hlooks hnone⟩

theorem not_finds_of_misses (hlooks : c.looks = true) (hmisses : h.Misses p link now c) :
    ¬ h.Finds p link now c := by
  rintro ⟨r, hr, hfinds⟩
  obtain ⟨r', hr', hmisses⟩ := hmisses
  obtain rfl := Option.some.inj (hr.symm.trans hr')
  exact Call.not_finds_of_misses hlooks hmisses hfinds

/-- A call that looks finds its document where one is live. -/
theorem finds_iff {b : Bucket} (hplace : h.place? link c.id = some place)
    (hb : h.store.get? place.site = some b) (hlooks : c.looks = true) :
    h.Finds p link now c ↔ ∃ e, h.store.live? place now = some e := by
  cases he : h.store.live? place now with
  | some e => exact iff_of_true (finds_of_live? hplace he hlooks) ⟨e, rfl⟩
  | none =>
    have hmisses : h.Misses p link now c := misses_of_absent hplace hb he hlooks
    exact iff_of_false (not_finds_of_misses hlooks hmisses) nofun

/-- An answer that needs a document tells of a live one. -/
theorem tells_of_answer? {a : c.Answer} (hplace : h.place? link c.id = some place)
    (hneeds : c.needsDocument = true) (hanswer : h.answer? p link now c = some (.answer a)) :
    ∃ e, h.store.live? place now = some e ∧ c.Tells e a := by
  cases he : h.store.live? place now with
  | none =>
    obtain ⟨place', b, b', hplace', hb, hstep⟩ := bucket_of_answer? hanswer
    obtain rfl : place = place' := Option.some.inj (hplace.symm.trans hplace')
    rw [Store.live?_of_bucket hb, location_of_place? hplace] at he
    have habsent := Bucket.step_of_absent he
    rw [if_pos hneeds, hstep] at habsent
    cases habsent
  | some e =>
    obtain ⟨r, hr, hanswers⟩ := answersOn_of_live? (p := p) hplace he
    obtain rfl : r = .answer a := Option.some.inj (hr.symm.trans hanswer)
    cases hrefusal : c.refusal? e (e.isLocked now) with
    | none =>
      obtain ⟨_, ha, htells⟩ := (Call.answersOn_of_none hrefusal).1 hanswers
      cases ha
      exact ⟨e, rfl, htells⟩
    | some f => cases (Call.answersOn_of_some hrefusal).1 hanswers

theorem presents_of_live? (hreplicated : h.Replicated p) {e : Entry}
    (he : h.store.live? place now = some e) : h.Presents p place now e.content e.cas := by
  obtain ⟨hdocument, -⟩ := Store.live?_eq_some_iff.1 he
  obtain ⟨b, hb, hentry⟩ := Option.bind_eq_some_iff.1 hdocument
  have hlive : b.live? ⟨place.collection.keyspace, place.id⟩ now = some e := by
    rw [← he, Store.live?_of_bucket hb]
    rfl
  -- whatever is live there at another time is the same document
  have hsame : ∀ later e', h.store.live? place later = some e' → e' = e := fun later e' he' ↦
    Option.some.inj ((Store.live?_eq_some_iff.1 he').1.symm.trans hdocument)
  constructor
  · intro link o hplace hproject
    obtain ⟨r, hr, hanswers⟩ := answersOn_of_live? (p := p) (c := .get place.id o) hplace he
    have hrefusal : (Call.get place.id o).refusal? e (e.isLocked now) = none := if_pos hproject
    obtain ⟨⟨content, cas, remaining?⟩, rfl, rfl, hcontent⟩ :=
      (Call.answersOn_of_none hrefusal).1 hanswers
    obtain rfl := hcontent hproject
    exact ⟨remaining?, hr⟩
  · intro link timeout? hplace
    rw [answer?_of_bucket (c := .getAnyReplica place.id timeout?) hplace hb, Bucket.step,
      Bucket.find_of_live? hlive]
    rfl
  · intro link timeout? hplace
    rw [answer?_of_bucket (c := .getAllReplicas place.id timeout?) hplace hb, Bucket.step,
      Bucket.find_of_live? hlive, ← hreplicated _ b hb]
    rfl
  · intro link later expiry timeout? r hplace hanswer
    obtain ⟨e', he', hcontent⟩ :=
      tells_of_answer? (c := .getAndTouch place.id expiry timeout?) hplace rfl hanswer
    exact hsame later e' he' ▸ hcontent
  · intro link later time timeout? r hplace hanswer
    obtain ⟨e', he', hcontent⟩ :=
      tells_of_answer? (c := .getAndLock place.id time timeout?) hplace rfl hanswer
    exact hsame later e' he' ▸ hcontent

theorem after_of_isRead (p : Policy) (h : Hub) {reads : List Action}
    (hreads : ∀ action ∈ reads, ∃ link now c, action = .call link now c ∧ c.isRead = true) :
    h.after p reads = h := by
  induction reads with
  | nil => rfl
  | cons action reads ih =>
    obtain ⟨link, now, c, rfl, hread⟩ := hreads action List.mem_cons_self
    have hact : h.act p (.call link now c) = h := act_of_idle (.inl hread)
    change (h.act p (.call link now c)).after p reads = h
    rw [hact]
    exact ih fun action hmem ↦ hreads action (List.mem_cons_of_mem _ hmem)

/-- All ways of looking at a document agree. After any run on a new store, at any time and over all
the links that lead to a place: either every call that looks finds the document or every one misses
it. If they find it, all reads show the same content and the same version, the first of the copies
is the one that any replica gives, as many replicas follow it as the policy says, and a touch or
lock that is answered next, after whatever reads, gives the same content. Locks are no part of this:
hubs that differ only in locks answer all reads alike, an unlock changes nothing but a lock, and a
lock only the version, to the one that it answers itself. -/
theorem looks_agree (p : Policy) (run : List Action) (place : Place) (now : Nat) :
    let h := empty.after p run
    (∀ link link' c c', h.place? link c.id = some place → h.place? link' c'.id = some place →
      c.looks = true → c'.looks = true → (h.Finds p link now c ↔ h.Finds p link' now c')) ∧
    (∀ link c, h.place? link c.id = some place → c.looks = true →
      (h.Finds p link now c → ∃ content cas, h.Presents p place now content cas) ∧
      (¬ h.Finds p link now c → h.Misses p link now c)) ∧
    (∀ reads, (∀ action ∈ reads, ∃ link now c, action = .call link now c ∧ c.isRead = true) →
      h.after p reads = h) ∧
    (∀ h', h.SameButLocks h' → ∀ link now c, c.isRead = true →
      h'.answer? p link now c = h.answer? p link now c) ∧
    (∀ link since id cas timeout?,
      h.SameButLocks (h.act p (.call link since (.unlock id cas timeout?)))) ∧
    ∀ link since id time timeout? r,
      h.answer? p link since (.getAndLock id time timeout?) = some (.answer r) →
      ∃ locked, h.place? link id = some locked ∧ ∀ link' now c other, c.isRead = true →
        h.place? link' c.id = some other →
        ∃ attempt : Except Fault c.Answer,
          h.answer? p link' now c = some (.ofExcept attempt) ∧
          (h.act p (.call link since (.getAndLock id time timeout?))).answer? p link' now c =
            some (.ofExcept (if other = locked then attempt.map (c.restamp fun _ ↦ r.cas)
              else attempt)) := by
  intro h
  have hlinked : h.Linked p := (linked_empty p).after run
  refine ⟨fun link link' c c' hplace hplace' hlooks hlooks' ↦ ?_, fun link c hplace hlooks ↦ ?_,
    fun reads ↦ after_of_isRead p h, fun h' hsame link now c ↦ hsame.answer? link now,
    sameButLocks_unlock p h, fun link since id time timeout? r hanswer ↦ ?_⟩
  · obtain ⟨b, hb⟩ := hlinked.bucket_of_place? hplace
    exact (finds_iff hplace hb hlooks).trans (finds_iff hplace' hb hlooks').symm
  · obtain ⟨b, hb⟩ := hlinked.bucket_of_place? hplace
    have hfinds : h.Finds p link now c ↔ _ := finds_iff hplace hb hlooks
    refine ⟨fun hfound ↦ ?_, fun hlost ↦ misses_of_absent hplace hb ?_ hlooks⟩
    · obtain ⟨e, he⟩ := hfinds.1 hfound
      exact ⟨_, _, presents_of_live? (replicated_after p run) he⟩
    · exact Option.eq_none_iff_forall_ne_some.2 fun e he ↦ hlost (hfinds.2 ⟨e, he⟩)
  · obtain ⟨locked, hlocked, hreads⟩ := answer?_locked hanswer
    exact ⟨locked, hlocked, fun link' now c other hread hother ↦
      hreads link' now c other hread hother (hlinked.bucket_of_place? hother)⟩

/-- A document with a lifetime of five is locked over one link, and a second link leads there. -/
def lockedTillFive : List Action :=
  [.connect ⟨"u", "", "x", "cb://h", none, none⟩, .connect ⟨"v", "", "x", "mem://h/y", none, none⟩,
    .call 0 0 (.insert "a" [1] { expiry? := some 5 }), .call 1 1 (.getAndLock "a" 0 none)]

/-- Just before the deadline an unlock with a wrong version finds the locked document, so that all
its copies are shown; at the deadline the same unlock misses it, and so does a read. -/
theorem looks_agree_atDeadline :
    let h := empty.after { replicas := 2 } lockedTillFive
    let place : Place := ⟨⟨⟨"h", "x"⟩, .default⟩, "a"⟩
    h.answer? { replicas := 2 } 0 4 (.unlock "a" 0 none) = some (.fault .casMismatch) ∧
    (∃ content cas, h.Presents { replicas := 2 } place 4 content cas ∧
      h.answer? { replicas := 2 } 1 4 (.getAllReplicas "a" none) =
        some (.answer [⟨content, cas, false⟩, ⟨content, cas, true⟩, ⟨content, cas, true⟩])) ∧
    h.answer? { replicas := 2 } 0 5 (.unlock "a" 0 none) = some (.fault .documentNotFound) ∧
    h.answer? { replicas := 2 } 1 5 (.get "a" {}) = some (.fault .documentNotFound) := by
  intro h place
  have hplace : ∀ link, link < 2 → h.place? link "a" = some place := by decide +kernel
  have hbefore : h.answer? { replicas := 2 } 0 4 (.unlock "a" 0 none) =
      some (.fault .casMismatch) := by decide +kernel
  have hat : h.answer? { replicas := 2 } 0 5 (.unlock "a" 0 none) =
      some (.fault .documentNotFound) := by decide +kernel
  obtain ⟨-, hshown, -⟩ := looks_agree { replicas := 2 } lockedTillFive place 4
  obtain ⟨htogether, hmissed, -⟩ := looks_agree { replicas := 2 } lockedTillFive place 5
  have hfound : h.Finds { replicas := 2 } 0 4 (.unlock "a" 0 none) := ⟨_, hbefore, nofun⟩
  obtain ⟨content, cas, hpresents⟩ :=
    (hshown 0 (.unlock "a" 0 none) (hplace 0 (by decide)) rfl).1 hfound
  have hlost : ¬ h.Finds { replicas := 2 } 1 5 (.get "a" {}) := fun hfinds ↦ by
    obtain ⟨r, hr, hr'⟩ := (htogether 1 0 (.get "a" {}) (.unlock "a" 0 none) (hplace 1 (by decide))
      (hplace 0 (by decide)) rfl rfl).1 hfinds
    exact hr' (Option.some.inj (hr.symm.trans hat))
  obtain ⟨_, hget, rfl⟩ := (hmissed 1 (.get "a" {}) (hplace 1 (by decide)) rfl).2 hlost
  exact ⟨hbefore, ⟨content, cas, hpresents, hpresents.allReplicas 1 none (hplace 1 (by decide))⟩,
    hat, hget⟩

end Hub
end Memory
end Depot
