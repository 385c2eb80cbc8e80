import Depot.Proofs.Memory.Related

/-!
# What leaves no trace

Two buckets agree from a time on when they differ at most in documents whose deadline has come by
then (`Bucket.Agrees`). Every call goes through `live?`, so on buckets that agree it comes to the
same and leaves buckets that agree (`Agrees.step`, one case for each call). Reads, calls that fail
and purges keep a bucket in agreement with what it was. A run may therefore be revised: steps that
only look or that fail may be left out and purges put in, and calls may or may not drop the document
that they come upon past its deadline, without a difference to what any other step comes to.
-/

set_option autoImplicit false
set_option relaxedAutoImplicit false

namespace Depot.Memory

namespace Bucket

variable {b b' b₁ b₂ : Bucket} {l : Location} {now t : Nat}

/-- Drops the document at a location if its deadline has come. -/
def visit (b : Bucket) (l : Location) (now : Nat) : Bucket :=
  { b with documents := b.documents.filter fun other e ↦ other ≠ l || !e.isExpired now }

/-- Two buckets that differ at most in documents whose deadline has come at a time. -/
structure Agrees (now : Nat) (b b' : Bucket) : Prop where
  name : b'.name = b.name
  uuid : b'.uuid = b.uuid
  replicas : b'.replicas = b.replicas
  clock : b'.clock = b.clock
  sequences : b'.sequences = b.sequences
  live : ∀ l t, now ≤ t → b'.live? l t = b.live? l t

namespace Agrees

theorem refl (now : Nat) (b : Bucket) : Agrees now b b :=
  ⟨rfl, rfl, rfl, rfl, rfl, fun _ _ _ ↦ rfl⟩

theorem symm (h : Agrees now b b') : Agrees now b' b :=
  ⟨h.name.symm, h.uuid.symm, h.replicas.symm, h.clock.symm, h.sequences.symm,
    fun l t ht ↦ (h.live l t ht).symm⟩

theorem trans (h : Agrees now b b₁) (h' : Agrees now b₁ b₂) : Agrees now b b₂ :=
  ⟨h'.name.trans h.name, h'.uuid.trans h.uuid, h'.replicas.trans h.replicas,
    h'.clock.trans h.clock, h'.sequences.trans h.sequences,
    fun l t ht ↦ (h'.live l t ht).trans (h.live l t ht)⟩

/-- Buckets that agree go on to do so. -/
theorem of_le (h : Agrees now b b') (ht : now ≤ t) : Agrees t b b' :=
  { h with live := fun l t' ht' ↦ h.live l t' (Nat.le_trans ht ht') }

end Agrees

theorem isExpired_of_le {e : Entry} (he : e.isExpired now = true) (ht : now ≤ t) :
    e.isExpired t = true := by
  unfold Entry.isExpired at *
  cases hdeadline : e.expiresAt? with
  | none => simp [hdeadline] at he
  | some deadline =>
    simp only [hdeadline, Option.any_some, decide_eq_true_eq] at *
    omega

/-- A sweep that keeps every document before its deadline leaves a bucket that agrees. -/
theorem agrees_sweep (b : Bucket) {keep : Location → Entry → Bool}
    (hkeep : ∀ l e, e.isExpired now = false → keep l e = true) :
    Agrees now b { b with documents := b.documents.filter keep } := by
  refine ⟨rfl, rfl, rfl, rfl, rfl, fun l t ht ↦ ?_⟩
  unfold live?
  rw [Table.get?_filter]
  cases b.documents.get? l with
  | none => rfl
  | some e =>
    cases hexpired : e.isExpired now with
    | false => simp [Option.filter_some, hkeep l e hexpired]
    | true => simp [Option.filter_some, isExpired_of_le hexpired ht]

theorem agrees_purge (b : Bucket) (now : Nat) : Agrees now b (b.purge now) :=
  agrees_sweep b fun _ e he ↦ by rw [he]; rfl

theorem agrees_visit (b : Bucket) (l : Location) (now : Nat) : Agrees now b (b.visit l now) :=
  agrees_sweep b fun _ e he ↦ by simp [he]

/-! ## Writing -/

theorem live?_insert (b : Bucket) (l other : Location) (e : Entry) (t : Nat) :
    ({ b with documents := b.documents.insert l e } : Bucket).live? other t =
      if l = other then (some e).filter (!Entry.isExpired · t) else b.live? other t := by
  unfold live?
  rw [Table.get?_insert]
  split <;> rfl

theorem live?_drop (b : Bucket) (l other : Location) (t : Nat) :
    (b.drop l).live? other t = if l = other then none else b.live? other t := by
  unfold live? drop
  rw [Table.get?_erase]
  split <;> rfl

namespace Agrees

theorem nextCas_eq (h : Agrees now b b') : b'.nextCas = b.nextCas := by
  rw [nextCas, nextCas, h.clock]

theorem mutation_eq (h : Agrees now b b') (id : String) : b'.mutation id = b.mutation id := by
  unfold mutation nextSequence
  rw [h.nextCas_eq, h.name, h.uuid, h.sequences]

/-- The same entry in both. -/
theorem insert (h : Agrees now b b') (l : Location) (e : Entry) :
    Agrees now { b with documents := b.documents.insert l e }
      { b' with documents := b'.documents.insert l e } := by
  refine { h with live := fun other t ht ↦ ?_ }
  rw [live?_insert, live?_insert, h.live other t ht]

theorem write (h : Agrees now b b') (l : Location) (e : UInt64 → Entry) :
    Agrees now (b.write l e) (b'.write l e) := by
  have hinsert := h.insert l (e b.nextCas)
  unfold Bucket.write
  rw [h.nextCas_eq]
  exact { hinsert with clock := rfl }

theorem drop (h : Agrees now b b') (l : Location) : Agrees now (b.drop l) (b'.drop l) := by
  refine { h with clock := h.nextCas_eq, live := fun other t ht ↦ ?_ }
  rw [live?_drop, live?_drop, h.live other t ht]

theorem advance (h : Agrees now b b') (id : String) :
    Agrees now (b.advance id) (b'.advance id) := by
  refine { h with sequences := ?_ }
  unfold Bucket.advance nextSequence
  rw [h.sequences]

theorem store (h : Agrees now b b') (l : Location) (content : Bytes) (expiry? : Option Nat)
    (t : Nat) : Agrees now (b.store l content expiry? t) (b'.store l content expiry? t) :=
  (h.write l _).advance l.id

/-! ## Looking -/

theorem find_eq (h : Agrees now b b') (l : Location) : b'.find l now = b.find l now := by
  rw [find, find, h.live l now (Nat.le_refl now)]

theorem findUnlocked_eq (h : Agrees now b b') (l : Location) :
    b'.findUnlocked l now = b.findUnlocked l now := by
  rw [findUnlocked, findUnlocked, h.find_eq]

theorem findMutable_eq (h : Agrees now b b') (l : Location) (cas? : Option UInt64) :
    b'.findMutable l cas? now = b.findMutable l cas? now := by
  rw [findMutable, findMutable, h.find_eq]

theorem nextCount_eq (h : Agrees now b b') (l : Location) (o : CountOptions) :
    b'.nextCount l o now = b.nextCount l o now := by
  simp only [nextCount, h.live l now (Nat.le_refl now)]

end Agrees

/-! ## Calls -/

/-- Two outcomes of a call with the same fault, or with the same answer and buckets that agree. -/
inductive SameOutcome {α : Type} (now : Nat) :
    Except Fault (α × Bucket) → Except Fault (α × Bucket) → Prop where
  | fault (f : Fault) : SameOutcome now (.error f) (.error f)
  | answer (a : α) {b b' : Bucket} (h : Agrees now b b') :
      SameOutcome now (.ok (a, b)) (.ok (a, b'))

namespace SameOutcome

variable {α β : Type}

/-- The same check before both. -/
theorem bind (x : Except Fault β) {f g : β → Except Fault (α × Bucket)}
    (h : ∀ y, SameOutcome now (f y) (g y)) : SameOutcome now (x >>= f) (x >>= g) := by
  cases x with
  | error fault => exact .fault fault
  | ok y => exact h y

/-- The same look, which leaves the buckets alone. -/
theorem look (x : Except Fault β) (a : β → α) (h : Agrees now b b') :
    SameOutcome now (x.map fun y ↦ (a y, b)) (x.map fun y ↦ (a y, b')) := by
  cases x with
  | error fault => exact .fault fault
  | ok y => exact .answer (a y) h

theorem map_fst_eq {r r' : Except Fault (α × Bucket)} (h : SameOutcome now r r') :
    r'.map Prod.fst = r.map Prod.fst := by
  cases h <;> rfl

end SameOutcome

/-- On buckets that agree a call comes to the same and leaves buckets that agree. -/
theorem Agrees.step (h : Agrees now b b') (k : Keyspace) (c : Call) :
    SameOutcome now (b.step k now c) (b'.step k now c) := by
  cases c with
  | get id o =>
    have hget : b'.get ⟨k, id⟩ o now = b.get ⟨k, id⟩ o now := by
      unfold get
      rw [h.find_eq]
    simp only [Bucket.step, hget]
    exact .look _ _ h
  | contains id timeout? =>
    simp only [Bucket.step, h.live _ now (Nat.le_refl now)]
    exact .answer _ h
  | insert id content o =>
    simp only [Bucket.step, Bucket.insert, h.live _ now (Nat.le_refl now), h.mutation_eq]
    split
    · exact .fault _
    · exact .answer _ (h.store ..)
  | upsert id content o =>
    simp only [Bucket.step, Bucket.upsert, h.live _ now (Nat.le_refl now), h.mutation_eq]
    split
    · exact .fault _
    · exact .answer _ (h.store ..)
  | replace id content o =>
    simp only [Bucket.step, Bucket.replace, h.findMutable_eq, h.mutation_eq]
    exact .bind _ fun _ ↦ .answer _ (h.store ..)
  | remove id o =>
    simp only [Bucket.step, Bucket.remove, h.findMutable_eq, h.mutation_eq]
    exact .bind _ fun _ ↦ .answer _ ((h.drop _).advance _)
  | touch id expiry timeout? =>
    simp only [Bucket.step, Bucket.touch, h.findUnlocked_eq, h.mutation_eq]
    exact .bind _ fun _ ↦ .answer _ ((h.write _ _).advance _)
  | getAndLock id time timeout? =>
    simp only [Bucket.step, Bucket.getAndLock, h.findUnlocked_eq, h.nextCas_eq]
    exact .bind _ fun _ ↦ .answer _ (h.write _ _)
  | getAndTouch id expiry timeout? =>
    simp only [Bucket.step, Bucket.getAndTouch, h.findUnlocked_eq, h.nextCas_eq]
    exact .bind _ fun _ ↦ .answer _ (h.write _ _)
  | unlock id cas timeout? =>
    simp only [Bucket.step, Bucket.unlock, h.find_eq]
    cases b.find ⟨k, id⟩ now with
    | error f => exact .fault f
    | ok e =>
      simp only [bind, Except.bind]
      split
      · exact .fault _
      · split
        · exact .fault _
        · exact .answer _ (h.insert _ _)
  | getAllReplicas id timeout? =>
    simp only [Bucket.step, h.find_eq, h.replicas]
    exact .look _ _ h
  | getAnyReplica id timeout? =>
    simp only [Bucket.step, h.find_eq]
    exact .look _ _ h
  | increment id o =>
    simp only [Bucket.step, Bucket.increment, h.nextCount_eq, h.mutation_eq]
    exact .bind _ fun _ ↦ .answer _ (h.store ..)

theorem Agrees.handle (h : Agrees now b b') (k : Keyspace) (c : Call) :
    Agrees now (b.handle ⟨k, now, c⟩) (b'.handle ⟨k, now, c⟩) := by
  have hstep := h.step k c
  simp only [Bucket.handle, answer]
  generalize b.step k now c = r at hstep
  generalize b'.step k now c = r' at hstep
  cases hstep with
  | fault f => exact h
  | answer a hagrees => exact hagrees

end Bucket

namespace Store

/-- Drops the document at a place if its deadline has come. -/
def visit (s : Store) (place : Place) (now : Nat) : Store :=
  match s.get? place.site with
  | some b => s.insert place.site (b.visit place.location now)
  | none => s

/-- Drops every document whose deadline has come. -/
def purge (s : Store) (now : Nat) : Store := s.mapValues (·.purge now)

theorem get?_visit (s : Store) (place : Place) (now : Nat) (site : Site) :
    (s.visit place now).get? site = if place.site = site then
      (s.get? site).map (·.visit place.location now) else s.get? site := by
  unfold visit
  cases hb : s.get? place.site with
  | none =>
    dsimp only
    split
    · rename_i hsite
      rw [← hsite, hb]
      rfl
    · rfl
  | some b =>
    dsimp only
    rw [Table.get?_insert]
    split
    · rename_i hsite
      rw [← hsite, hb]
      rfl
    · rfl

theorem size_visit (s : Store) (place : Place) (now : Nat) : (s.visit place now).size = s.size := by
  unfold visit
  cases hb : s.get? place.site with
  | none => rfl
  | some b => exact Table.size_insert_of_some hb _

end Store

/-- A step of a run under revision: one that stays, one that is left out, or a purge put in. -/
inductive Revision where
  | keep (action : Action)
  | leave (action : Action)
  | purge (now : Nat)

/-- The time of a step. -/
def Revision.now? : Revision → Option Nat
  | keep action => action.now?
  | leave action => action.now?
  | purge now => some now

namespace Hub

variable {p : Policy} {h h' : Hub} {drops : Bool} {run : List Revision} {since now : Nat}

/-- The hub with the document of a call dropped, if its deadline has come. -/
def visit (h : Hub) : Action → Hub
  | .connect _ => h
  | .call link now c =>
    match h.place? link c.id with
    | some place => { h with store := h.store.visit place now }
    | none => h

/-- The hub that an action finds where calls drop what they come upon past its deadline, or where
they do not. -/
def meet (drops : Bool) (h : Hub) (action : Action) : Hub := if drops then h.visit action else h

def purge (h : Hub) (now : Nat) : Hub := { h with store := h.store.purge now }

/-- A step of the run as it was. -/
def told (p : Policy) (drops : Bool) (h : Hub) : Revision → Hub
  | .keep action => (h.meet drops action).act p action
  | .leave action => (h.meet drops action).act p action
  | .purge _ => h

/-- A step of the run as it is revised. -/
def retold (p : Policy) (drops : Bool) (h : Hub) : Revision → Hub
  | .keep action => (h.meet drops action).act p action
  | .leave _ => h
  | .purge now => h.purge now

/-- A call that only looks, or that fails. -/
def Idle (p : Policy) (h : Hub) : Action → Prop
  | .connect _ => False
  | .call link now c => c.isRead = true ∨ ∃ f, h.answer? p link now c = some (.fault f)

/-- Two hubs that differ at most in documents whose deadline has come at a time. -/
abbrev Agree (now : Nat) : Hub → Hub → Prop := Related fun _ ↦ Bucket.Agrees now

theorem agree_refl (now : Nat) (h : Hub) : h.Agree now h :=
  related_self (fun _ ↦ Bucket.Agrees.refl now) h

theorem Related.agree_of_le (hagree : h.Agree since h') (hle : since ≤ now) : h.Agree now h' :=
  hagree.bucketwise (Bucketwise.refl h) (Bucketwise.refl h') fun _ _ _ hb ↦ hb.of_le hle

/-- A call that only looks or that fails leaves the hub as it was. -/
theorem act_of_idle {action : Action} (hidle : h.Idle p action) : h.act p action = h := by
  cases action with
  | connect args => exact hidle.elim
  | call link now c =>
    rcases act_call_cases p h link now c with
      ⟨_, _, hact⟩ | ⟨place, b, b', a, _, hb, hstep, hanswer, _, hact⟩
    · exact hact
    · rcases hidle with hread | ⟨f, hfault⟩
      · rw [hact, Bucket.eq_of_isRead hread hstep, Table.insert_of_get? hb]
      · cases hanswer.symm.trans hfault

theorem bucketwise_purge (h : Hub) (now : Nat) :
    Bucketwise (fun _ b ↦ b.purge now) h (h.purge now) :=
  ⟨rfl, Table.size_mapValues _ _, fun _ ↦ Table.get?_mapValues _ _ _⟩

/-- Whether or not calls drop what they come upon, the hub that a call finds agrees with the one
that was there. -/
theorem bucketwise_meet (drops : Bool) (h : Hub) (link now : Nat) (c : Call) :
    ∃ f : Site → Bucket → Bucket, Bucketwise f h (h.meet drops (.call link now c)) ∧
      ∀ site b, Bucket.Agrees now b (f site b) := by
  have hself : ∃ f : Site → Bucket → Bucket, Bucketwise f h h ∧
      ∀ site b, Bucket.Agrees now b (f site b) :=
    ⟨_, Bucketwise.refl h, fun _ ↦ Bucket.Agrees.refl now⟩
  cases drops with
  | false => exact hself
  | true =>
    simp only [meet, visit, if_true]
    cases h.place? link c.id with
    | none => exact hself
    | some place =>
      refine ⟨fun site b ↦ if place.site = site then b.visit place.location now else b,
        ⟨rfl, Store.size_visit h.store place now, fun site ↦ ?_⟩, fun site b ↦ ?_⟩
      · change (h.store.visit place now).get? site = _
        rw [Store.get?_visit]
        split
        · rfl
        · simp
      · dsimp only
        split
        · exact Bucket.agrees_visit b place.location now
        · exact Bucket.Agrees.refl now b

theorem Related.meet (hagree : h.Agree now h') (drops drops' : Bool) (link : Nat) (c : Call) :
    (h.meet drops (.call link now c)).Agree now (h'.meet drops' (.call link now c)) := by
  obtain ⟨f, hleft, hf⟩ := bucketwise_meet drops h link now c
  obtain ⟨g, hright, hg⟩ := bucketwise_meet drops' h' link now c
  exact hagree.bucketwise hleft hright fun site b b' hb ↦
    ((hf site b).symm.trans hb).trans (hg site b')

theorem Related.act_call (hagree : h.Agree now h') (link : Nat) (c : Call) :
    (h.act p (.call link now c)).Agree now (h'.act p (.call link now c)) := by
  refine hagree.bucketwise (bucketwise_call p h link now c) (bucketwise_call p h' link now c) ?_
  intro site b b' hb
  rw [moved_congr hagree.links]
  unfold moved
  cases h.place? link c.id with
  | none => exact hb
  | some place =>
    dsimp only
    split
    · exact hb.handle _ c
    · exact hb

/-- Hubs that agree answer alike. -/
theorem Related.answer?_of_agree (hagree : h.Agree now h') (link : Nat) (c : Call) :
    h'.answer? p link now c = h.answer? p link now c :=
  hagree.answers_alike fun _ _ _ _ hb ↦ (hb.step _ c).map_fst_eq

/-- A call that only looks or that fails leaves a hub that agrees with the one before. -/
theorem agree_told_leave {link now : Nat} {c : Call}
    (hidle : (h.meet drops (.call link now c)).Idle p (.call link now c)) :
    h.Agree now (h.told p drops (.leave (.call link now c))) := by
  change h.Agree now ((h.meet drops (.call link now c)).act p (.call link now c))
  rw [act_of_idle hidle]
  exact (agree_refl now h).meet false drops link c

/-- One step of a run, as it was and as it is revised, keeps two hubs in agreement, from the time of
the step on if it has one. -/
theorem agree_revision {revision : Revision} (drops' : Bool) (hagree : h.Agree since h')
    (htime : ∀ time, revision.now? = some time → since ≤ time)
    (hidle : ∀ action, revision = .leave action → (h.meet drops action).Idle p action) :
    (h.told p drops revision).Agree (revision.now?.getD since)
      (h'.retold p drops' revision) := by
  cases revision with
  | keep action =>
    cases action with
    | connect args =>
      have hmeet : ∀ (drops : Bool) (h : Hub), h.meet drops (.connect args) = h := by
        rintro (_ | _) h <;> rfl
      simp only [told, retold, hmeet]
      exact hagree.connect (fun _ ↦ Bucket.Agrees.refl since) args
    | call link time c =>
      exact ((hagree.agree_of_le (htime time rfl)).meet drops drops' link c).act_call link c
  | leave action =>
    have hleft := hidle action rfl
    cases action with
    | connect args => exact hleft.elim
    | call link time c =>
      change ((h.meet drops (.call link time c)).act p (.call link time c)).Agree time h'
      rw [act_of_idle hleft]
      exact (hagree.agree_of_le (htime time rfl)).meet drops false link c
  | purge time =>
    exact (hagree.agree_of_le (htime time rfl)).bucketwise (Bucketwise.refl h)
      (bucketwise_purge h' time) fun _ _ b' hb ↦ hb.trans (Bucket.agrees_purge b' time)

/-- Every step of a run that stays finds two hubs that agree. -/
theorem agree_revised (drops' : Bool)
    (htimes : (run.filterMap Revision.now?).Pairwise (· ≤ ·))
    (hsince : ∀ now ∈ run.filterMap Revision.now?, since ≤ now)
    (hidle : ∀ i action, run[i]? = some (.leave action) →
      ((stateAt (told p drops) h run i).meet drops action).Idle p action)
    (hagree : h.Agree since h') (i : Nat) {link now : Nat} {c : Call}
    (hcall : run[i]? = some (.keep (.call link now c))) :
    (stateAt (told p drops) h run i).Agree now (stateAt (retold p drops') h' run i) := by
  induction run generalizing h h' since i with
  | nil => cases hcall
  | cons revision rest ih =>
    have hfirst : ∀ time, revision.now? = some time → since ≤ time ∧
        ∀ now ∈ rest.filterMap Revision.now?, time ≤ now := by
      intro time htime
      rw [List.filterMap_cons_some htime] at htimes hsince
      exact ⟨hsince time List.mem_cons_self, (List.pairwise_cons.1 htimes).1⟩
    cases i with
    | zero =>
      cases hcall
      exact hagree.agree_of_le (hfirst now rfl).1
    | succ i =>
      have hnext := agree_revision drops' hagree (fun time htime ↦ (hfirst time htime).1)
        fun action haction ↦ hidle 0 action (congrArg some haction)
      have hidle' : ∀ i action, rest[i]? = some (.leave action) →
          ((stateAt (told p drops) (h.told p drops revision) rest i).meet drops action).Idle p
            action := fun i action haction ↦ hidle (i + 1) action haction
      rw [stateAt_cons_succ, stateAt_cons_succ]
      cases htime : revision.now? with
      | none =>
        rw [List.filterMap_cons_none htime] at htimes hsince
        rw [htime] at hnext
        exact ih htimes hsince hidle' hnext i hcall
      | some time =>
        rw [List.filterMap_cons_some htime] at htimes
        rw [htime] at hnext
        exact ih (List.pairwise_cons.1 htimes).2 (hfirst time htime).2 hidle' hnext i hcall

/-- Reads, failures and expiry leave no trace. Take any run whose times do not go back, leave out
any of its calls that only look or that fail, and put in purges of all documents whose deadline has
come, at any points. Every call that stays comes to the same as before, and it does so whether or
not the calls of either run drop the document that they come upon past its deadline. What is left
out changed no name, clock or sequence of a bucket, and no document but those whose deadline had
come. -/
theorem leaves_no_trace (p : Policy) (h : Hub) (drops drops' : Bool) {run : List Revision}
    (htimes : (run.filterMap Revision.now?).Pairwise (· ≤ ·))
    (hidle : ∀ i action, run[i]? = some (.leave action) →
      ((stateAt (told p drops) h run i).meet drops action).Idle p action) :
    (∀ i link now c, run[i]? = some (.keep (.call link now c)) →
      ((stateAt (retold p drops') h run i).meet drops' (.call link now c)).answer? p link now c =
        ((stateAt (told p drops) h run i).meet drops (.call link now c)).answer? p link now c) ∧
    ∀ i link now c, run[i]? = some (.leave (.call link now c)) →
      (stateAt (told p drops) h run i).Agree now (stateAt (told p drops) h run (i + 1)) := by
  constructor
  · intro i link now c hcall
    have hagree := agree_revised drops' htimes (fun _ _ ↦ Nat.zero_le _) hidle
      (agree_refl 0 h) i hcall
    exact (hagree.meet drops drops' link c).answer?_of_agree link c
  · intro i link now c hcall
    rw [stateAt_succ _ h hcall]
    exact agree_told_leave (hidle i _ hcall)

/-- A document is inserted for a while, read, inserted in vain, touched too late, and inserted anew;
the revised run leaves out all but the two inserts and purges in between. -/
def tidied : List Revision :=
  [.keep (.connect ⟨"u", "", "x", "mem://h", none, none⟩),
    .keep (.call 0 0 (.insert "a" [1] { expiry? := some 5 })), .leave (.call 0 1 (.get "a" {})),
    .leave (.call 0 2 (.insert "a" [2] {})), .purge 6, .leave (.call 0 7 (.touch "a" 9 none)),
    .keep (.call 0 8 (.insert "a" [3] {}))]

theorem leaves_no_trace_tidied :
    (tidied.filterMap Revision.now?).Pairwise (· ≤ ·) ∧
      (∀ i action, tidied[i]? = some (.leave action) →
        ((stateAt (told {} true) empty tidied i).meet true action).Idle {} action) ∧
      (stateAt (retold {} false) empty tidied 6).answer? {} 0 8 (.insert "a" [3] {}) =
        ((stateAt (told {} true) empty tidied 6).meet true
          (.call 0 8 (.insert "a" [3] {}))).answer? {} 0 8 (.insert "a" [3] {}) ∧
      (stateAt (told {} true) empty tidied 3).Agree 2 (stateAt (told {} true) empty tidied 4) := by
  have htimes : (tidied.filterMap Revision.now?).Pairwise (· ≤ ·) := by decide
  have hidle : ∀ i action, tidied[i]? = some (.leave action) →
      ((stateAt (told {} true) empty tidied i).meet true action).Idle {} action := by
    intro i action haction
    match i, haction with
    | 2, haction => cases haction; exact Or.inl rfl
    | 3, haction => cases haction; exact Or.inr ⟨.documentExists, rfl⟩
    | 5, haction => cases haction; exact Or.inr ⟨.documentNotFound, rfl⟩
    | 6, haction => cases haction
    | _ + 7, haction => cases haction
  obtain ⟨hanswer, hagree⟩ := leaves_no_trace {} empty true false htimes hidle
  exact ⟨htimes, hidle, hanswer 6 0 8 _ rfl, hagree 3 0 2 _ rfl⟩

end Hub
end Depot.Memory
