import Depot.Proofs.Memory.Hub

/-!
# Locks

Whoever locks a document is handed a version, and until the lock or the document ends only a call
that carries this version gets through to the document. By the table of refusals a call that finds a
locked document either does nothing to it or carries its version (`looked_or_opens`), so that along
a run the document stays as it was locked until the first call that does (`held_before`). A lock
that was ended, or whose time has come, does not come back unless somebody locks the document again
(`lockedUpTo_before`). `lock_excludes` puts these together.
-/

set_option autoImplicit false
set_option relaxedAutoImplicit false

namespace Depot

open Memory

/-- The call carries the version of a lock and ends it. -/
def Call.opens (v : UInt64) : Call → Bool
  | replace _ _ o => admits v true o.cas?
  | remove _ o => admits v true o.cas?
  | unlock _ cas _ => decide (cas = v)
  | _ => false

namespace Memory

/-! ## Calls on a locked document -/

/-- A call that a locked document answers does nothing to it or carries the version of its lock. -/
theorem looked_or_opens {e : Entry} {c : Call} (a : c.Answer) (h : c.refusal? e true = none) :
    Deed.of c a = .looked ∨ c.opens e.cas = true := by
  cases c with
  | get => exact Or.inl rfl
  | contains => exact Or.inl rfl
  | getAllReplicas => exact Or.inl rfl
  | getAnyReplica => exact Or.inl rfl
  | replace id content o =>
    refine Or.inr (Decidable.byContradiction fun hadmits ↦ ?_)
    change ¬ admits e.cas true o.cas? = true at hadmits
    rw [Call.refusal?, if_neg hadmits] at h
    cases h
  | remove id o =>
    refine Or.inr (Decidable.byContradiction fun hadmits ↦ ?_)
    change ¬ admits e.cas true o.cas? = true at hadmits
    rw [Call.refusal?, if_neg hadmits] at h
    cases h
  | unlock id cas timeout? =>
    refine Or.inr (decide_eq_true (Decidable.byContradiction fun hcas ↦ ?_))
    rw [Call.refusal?, if_pos rfl, if_neg hcas] at h
    cases h
  | _ => cases h

theorem refusal?_of_opens {e : Entry} {c : Call} (h : c.opens e.cas = true) :
    c.refusal? e true = none := by
  cases c with
  | replace id content o => exact if_pos h
  | remove id o => exact if_pos h
  | unlock id cas timeout? =>
    have hcas : cas = e.cas := of_decide_eq_true h
    exact if_pos hcas
  | _ => cases h

/-- What carries the version of a lock leaves no lock behind. -/
theorem lockedUntil?_of_opens {c : Call} {v : UInt64} (h : c.opens v = true) (a : c.Answer)
    {now : Nat} {e? : Option Entry} {e : Entry} (happly : (Deed.of c a).apply now e? = some e) :
    e.lockedUntil? = none := by
  cases c with
  | replace id content o =>
    cases happly
    rfl
  | remove id o => cases happly
  | unlock id cas timeout? =>
    obtain ⟨old, _, rfl⟩ := Option.map_eq_some_iff.1 happly
    rfl
  | _ => cases h

/-- A lock that a caller asks for. -/
structure Lock where
  link : Nat
  start : Nat
  id : String
  time : Nat
  timeout? : Option Nat

namespace Lock

def call (lock : Lock) : Call := .getAndLock lock.id lock.time lock.timeout?

def action (lock : Lock) : Action := .call lock.link lock.start lock.call

/-- When the lock ends, if nobody ends it before: after its time, or after fifteen seconds if its
time is zero. -/
def ends (lock : Lock) : Nat := lock.start + if lock.time = 0 then 15000000000 else lock.time

/-- The lock has not come to its end, and the document that it was taken on has not either. -/
def Holds (lock : Lock) (e : Entry) (now : Nat) : Prop :=
  now < lock.ends ∧ ∀ deadline, e.expiresAt? = some deadline → now < deadline

/-- A document under the lock. -/
def entry (lock : Lock) (e : Entry) (cas : UInt64) : Entry :=
  { e with cas, lockedUntil? := some lock.ends }

theorem Holds.isLocked {lock : Lock} {e : Entry} {now : Nat} (h : lock.Holds e now)
    (cas : UInt64) : (lock.entry e cas).isLocked now = true := decide_eq_true h.1

theorem Holds.isExpired {lock : Lock} {e : Entry} {now : Nat} (h : lock.Holds e now)
    (cas : UInt64) : (lock.entry e cas).isExpired now = false := by
  change e.expiresAt?.any (· ≤ now) = false
  cases hdeadline : e.expiresAt? with
  | none => rfl
  | some deadline => exact decide_eq_false (Nat.not_le.2 (h.2 deadline hdeadline))

theorem Holds.of_le {lock : Lock} {e : Entry} {now earlier : Nat} (h : lock.Holds e now)
    (hle : earlier ≤ now) : lock.Holds e earlier :=
  ⟨Nat.lt_of_le_of_lt hle h.1, fun deadline hdeadline ↦
    Nat.lt_of_le_of_lt hle (h.2 deadline hdeadline)⟩

end Lock

namespace Hub

variable {p : Policy} {h : Hub} {place : Place} {e : Entry}

/-- The action is a call about the document at a place that carries the version of its lock. -/
def Opens (h : Hub) (place : Place) (v : UInt64) : Action → Prop
  | .connect _ => False
  | .call link _ c => h.place? link c.id = some place ∧ c.opens v = true

/-- The action locks the document at a place. -/
def Locks (p : Policy) (h : Hub) (place : Place) (action : Action) : Prop :=
  ∃ now time cas, h.event? p action = some ⟨place, now, .locked time cas⟩

theorem now?_of_event? {action : Action} {event : Event} (hevent : h.event? p action = some event) :
    action.now? = some event.now := by
  cases action with
  | connect args => cases hevent
  | call link now c =>
    obtain ⟨place, a, _, _, rfl⟩ := event?_call_eq_some_iff.1 hevent
    rfl

/-- An event at the place of a locked document. -/
theorem looked_or_opens_of_event? {action : Action} {event : Event}
    (he : h.store.document? place = some e) (hevent : h.event? p action = some event)
    (hat : event.place = place) (hlocked : e.isLocked event.now = true)
    (hlive : e.isExpired event.now = false) :
    event.deed = .looked ∨ h.Opens place e.cas action := by
  cases action with
  | connect args => cases hevent
  | call link now c =>
    obtain ⟨at', a, hplace, hanswer, rfl⟩ := event?_call_eq_some_iff.1 hevent
    obtain rfl : at' = place := hat
    change e.isLocked now = true at hlocked
    obtain ⟨r, hr, hanswers⟩ := answersOn_of_live? (p := p) hplace
      (Store.live?_eq_some_iff.2 ⟨he, hlive⟩)
    rw [hlocked] at hanswers
    obtain rfl := Option.some.inj (hanswer.symm.trans hr)
    cases hrefusal : c.refusal? e true with
    | some f =>
      rw [Call.answersOn_of_some hrefusal] at hanswers
      cases hanswers
    | none =>
      rcases looked_or_opens a hrefusal with hlooked | hopens
      · exact Or.inl hlooked
      · exact Or.inr ⟨hplace, hopens⟩

/-- As long as a locked document is there and locked, and nobody carries its version, an action
leaves it as it is. -/
theorem held_act {action : Action} (he : h.store.document? place = some e)
    (hheld : ∀ now, action.now? = some now → e.isLocked now = true ∧ e.isExpired now = false)
    (hopens : ¬ h.Opens place e.cas action) :
    (h.act p action).store.document? place = some e := by
  rw [document?_act, he]
  cases hevent : h.event? p action with
  | none => rfl
  | some event =>
    change Event.apply place (some e) event = some e
    unfold Event.apply
    split
    · rename_i hat
      have hnow : action.now? = some event.now := now?_of_event? hevent
      obtain ⟨hlocked, hlive⟩ := hheld event.now hnow
      rcases looked_or_opens_of_event? he hevent hat hlocked hlive with hlooked | hyes
      · rw [hlooked]
        rfl
      · exact absurd hyes hopens
    · rfl

/-- What the holder's call leaves at the place has no lock. -/
theorem lockedUntil?_of_opens {link now : Nat} {c : Call} {e' : Entry}
    (hplace : h.place? link c.id = some place) (he : h.store.live? place now = some e)
    (hlocked : e.isLocked now = true) (hopens : c.opens e.cas = true)
    (hafter : (h.act p (.call link now c)).store.document? place = some e') :
    e'.lockedUntil? = none := by
  obtain ⟨r, hr, hanswers⟩ := answersOn_of_live? (p := p) hplace he
  rw [hlocked, Call.answersOn_of_none (refusal?_of_opens hopens)] at hanswers
  obtain ⟨a, rfl, _⟩ := hanswers
  have hevent := event?_call_eq_some_iff.2 ⟨place, a, hplace, hr, rfl⟩
  rw [document?_act, hevent] at hafter
  change Event.apply place (h.store.document? place) ⟨place, now, .of c a⟩ = some e' at hafter
  rw [Event.apply, if_pos rfl] at hafter
  exact Memory.lockedUntil?_of_opens hopens a hafter

/-! ## Locks that are over -/

/-- No lock on what is at a place holds longer than up to a time. -/
def LockedUpTo (h : Hub) (place : Place) (time : Nat) : Prop :=
  ∀ e, h.store.document? place = some e → ∀ until', e.lockedUntil? = some until' → until' ≤ time

theorem LockedUpTo.isLocked {time now : Nat} (hlocked : h.LockedUpTo place time)
    (hle : time ≤ now) (he : h.store.document? place = some e) : e.isLocked now = false := by
  unfold Entry.isLocked
  cases huntil : e.lockedUntil? with
  | none => rfl
  | some until' =>
    have hbound := hlocked e he until' huntil
    exact decide_eq_false (by omega)

/-- Only locking brings a lock about. -/
theorem LockedUpTo.act {time : Nat} (hlocked : h.LockedUpTo place time) {action : Action}
    (hlocks : ¬ h.Locks p place action) : (h.act p action).LockedUpTo place time := by
  intro e' hafter until' huntil
  rw [document?_act] at hafter
  cases hevent : h.event? p action with
  | none =>
    rw [hevent] at hafter
    exact hlocked e' hafter until' huntil
  | some event =>
    rw [hevent] at hafter
    change Event.apply place (h.store.document? place) event = some e' at hafter
    unfold Event.apply at hafter
    split at hafter
    · rename_i hat
      obtain ⟨at', now, deed⟩ := event
      obtain rfl : at' = place := hat
      change deed.apply now (h.store.document? at') = some e' at hafter
      cases deed with
      | looked => exact hlocked e' hafter until' huntil
      | wrote content expiry? cas =>
        cases hafter
        cases huntil
      | touched expiry cas =>
        obtain ⟨old, hold, rfl⟩ := Option.map_eq_some_iff.1 hafter
        exact hlocked old hold until' huntil
      | locked span cas => exact absurd ⟨now, span, cas, hevent⟩ hlocks
      | unlocked =>
        obtain ⟨old, hold, rfl⟩ := Option.map_eq_some_iff.1 hafter
        cases huntil
      | removed cas => cases hafter
    · exact hlocked e' hafter until' huntil

/-! ## Along a run -/

/-- Nobody carries the version of a lock to the document at a place from step `i` on and before step
`j`. -/
def UnopenedBetween (p : Policy) (h : Hub) (run : List Action) (place : Place) (v : UInt64)
    (i j : Nat) : Prop :=
  ∀ m action, i ≤ m → m < j → run[m]? = some action → ¬ (h.before p run m).Opens place v action

/-- Nobody locks the document at a place from step `i` on and before step `j`. -/
def UnlockedBetween (p : Policy) (h : Hub) (run : List Action) (place : Place) (i j : Nat) : Prop :=
  ∀ m action, i ≤ m → m < j → run[m]? = some action → ¬ (h.before p run m).Locks p place action

variable {run : List Action}

theorem lockedUpTo_before {time i j : Nat} (hij : i ≤ j)
    (hstart : (h.before p run i).LockedUpTo place time)
    (hunlocked : UnlockedBetween p h run place i j) :
    (h.before p run j).LockedUpTo place time := by
  refine stateAt_induction (P := fun m (h' : Hub) ↦ m ≤ j → h'.LockedUpTo place time)
    (fun _ ↦ hstart) ?_ ?_ hij (Nat.le_refl j)
  · intro m action him haction hm hmj
    exact (hm (Nat.le_of_succ_le hmj)).act (hunlocked m action him hmj haction)
  · intro m _ _ hm hmj
    exact hm (Nat.le_of_succ_le hmj)

/-- Times do not go back along a run. -/
theorem le_of_pairwise_now? (htimes : (run.filterMap Action.now?).Pairwise (· ≤ ·)) {m i : Nat}
    (hmi : m < i) {action action' : Action} (haction : run[m]? = some action)
    (haction' : run[i]? = some action') {now now' : Nat} (hnow : action.now? = some now)
    (hnow' : action'.now? = some now') : now ≤ now' := by
  obtain ⟨hm, rfl⟩ := List.getElem?_eq_some_iff.1 haction
  obtain ⟨hi, rfl⟩ := List.getElem?_eq_some_iff.1 haction'
  exact List.pairwise_iff_getElem.1 (List.pairwise_filterMap.1 htimes) m i hm hi hmi now hnow
    now' hnow'

/-- Until the lock or the document ends, a document is what it was when it was locked, as long as
nobody carries the version of the lock. -/
theorem held_before {lock : Lock} {cas : UInt64}
    (htimes : (run.filterMap Action.now?).Pairwise (· ≤ ·)) {i j now : Nat} (hij : i ≤ j)
    (he : (h.before p run i).store.document? place = some (lock.entry e cas)) {action : Action}
    (haction : run[j]? = some action) (hnow : action.now? = some now) (hholds : lock.Holds e now)
    (hunopened : UnopenedBetween p h run place cas i j) :
    (h.before p run j).store.document? place = some (lock.entry e cas) := by
  refine stateAt_induction (P := fun m (h' : Hub) ↦
    m ≤ j → h'.store.document? place = some (lock.entry e cas)) (fun _ ↦ he) ?_ ?_ hij
    (Nat.le_refl j)
  · intro m earlier him hearlier hm hmj
    refine held_act (hm (Nat.le_of_succ_le hmj)) (fun then' hthen ↦ ?_)
      (hunopened m earlier him hmj hearlier)
    have hle := le_of_pairwise_now? htimes hmj hearlier haction hthen hnow
    exact ⟨(hholds.of_le hle).isLocked cas, (hholds.of_le hle).isExpired cas⟩
  · intro m _ _ hm hmj
    exact hm (Nat.le_of_succ_le hmj)

/-- A call on a locked document `e` is answered as the table says. It leaves the document as it is
unless it carries the version of the lock; then it succeeds and ends the lock. -/
structure Guards (p : Policy) (h : Hub) (place : Place) (e : Entry) (link now : Nat) (c : Call) :
    Prop where
  found : h.store.document? place = some e
  answered : ∃ r, h.answer? p link now c = some r ∧ c.AnswersOn e true r
  kept : c.opens e.cas = false → (h.act p (.call link now c)).store.document? place = some e
  opened : c.opens e.cas = true → (∃ a, h.answer? p link now c = some (.answer a)) ∧
    ∀ e', (h.act p (.call link now c)).store.document? place = some e' → e'.lockedUntil? = none

/-- A call is not refused for a lock, and on a live document it is answered as on one that is not
locked. -/
structure Releases (p : Policy) (h : Hub) (place : Place) (link now : Nat) (c : Call) : Prop where
  free : h.answer? p link now c ≠ some (.fault .documentLocked)
  answered : ∀ e, h.store.live? place now = some e →
    ∃ r, h.answer? p link now c = some r ∧ c.AnswersOn e false r

theorem guards_of_held {lock : Lock} {cas : UInt64} {link now : Nat} {c : Call}
    (hplace : h.place? link c.id = some place)
    (he : h.store.document? place = some (lock.entry e cas)) (hholds : lock.Holds e now) :
    h.Guards p place (lock.entry e cas) link now c := by
  have hlocked := hholds.isLocked cas
  have hexpired := hholds.isExpired cas
  have hlive : h.store.live? place now = some (lock.entry e cas) :=
    Store.live?_eq_some_iff.2 ⟨he, hexpired⟩
  obtain ⟨r, hr, hanswers⟩ := answersOn_of_live? (p := p) hplace hlive
  rw [hlocked] at hanswers
  refine ⟨he, ⟨r, hr, hanswers⟩, fun hcloses ↦ ?_, fun hopens ↦ ⟨?_, ?_⟩⟩
  · refine held_act he (fun now' hnow ↦ ?_) (fun hopens ↦ ?_)
    · obtain rfl := Option.some.inj hnow
      exact ⟨hlocked, hexpired⟩
    · rw [hopens.2] at hcloses
      cases hcloses
  · rw [Call.answersOn_of_none (refusal?_of_opens hopens)] at hanswers
    obtain ⟨a, rfl, _⟩ := hanswers
    exact ⟨a, hr⟩
  · intro e' hafter
    exact lockedUntil?_of_opens hplace hlive hlocked hopens hafter

theorem releases_of_lockedUpTo {time link now : Nat} {c : Call}
    (hplace : h.place? link c.id = some place) (hlocked : h.LockedUpTo place time)
    (hle : time ≤ now) : h.Releases p place link now c := by
  have hanswered : ∀ e, h.store.live? place now = some e →
      ∃ r, h.answer? p link now c = some r ∧ c.AnswersOn e false r := by
    intro e he
    have hfree := hlocked.isLocked hle (Store.live?_eq_some_iff.1 he).1
    have hanswers := answersOn_of_live? (p := p) hplace he
    rwa [hfree] at hanswers
  refine ⟨fun hfault ↦ ?_, hanswered⟩
  cases hlive : h.store.live? place now with
  | some e =>
    obtain ⟨r, hr, hanswers⟩ := hanswered e hlive
    obtain rfl := Option.some.inj (hfault.symm.trans hr)
    cases hrefusal : c.refusal? e false with
    | some f =>
      rw [Call.answersOn_of_some hrefusal] at hanswers
      cases hanswers
      exact Call.refusal?_ne_documentLocked e c hrefusal
    | none =>
      obtain ⟨a, ha, _⟩ := (Call.answersOn_of_none hrefusal).1 hanswers
      cases ha
  | none =>
    cases hb : h.store.get? place.site with
    | none =>
      obtain ⟨args, hl, _⟩ := place?_eq_some_iff.1 hplace
      rw [answer?_eq hl (Store.perform_of_step (Store.step_of_none hb))] at hfault
      cases hfault
    | some b =>
      have habsent : b.live? ⟨place.collection.keyspace, c.id⟩ now = none := by
        rw [← location_of_place? hplace, ← Store.live?_of_bucket hb, hlive]
      rw [answer?_of_bucket hplace hb] at hfault
      cases hstep : b.step place.collection.keyspace now c with
      | error f =>
        rw [hstep] at hfault
        cases hfault
        have hfailed := Bucket.step_of_absent habsent
        rw [hstep] at hfailed
        split at hfailed
        · cases hfailed
        · obtain ⟨_, hdone⟩ := hfailed
          cases hdone
      | ok done =>
        rw [hstep] at hfault
        cases hfault

/-- A lock that is granted hands out the next version, which is the one that the locked document
gets. -/
theorem granted {lock : Lock} {r : Reading}
    (hgranted : h.answer? p lock.link lock.start lock.call = some (.answer r)) :
    ∃ place b e, h.place? lock.link lock.id = some place ∧ h.store.get? place.site = some b ∧
      h.store.live? place lock.start = some e ∧ r.content = e.content ∧ r.cas = b.nextCas ∧
      (h.act p lock.action).store.document? place = some (lock.entry e r.cas) := by
  obtain ⟨place, b, b', hplace, hb, hstep⟩ := bucket_of_answer? hgranted
  obtain ⟨e, ⟨he, _⟩, hr, _⟩ := Bucket.getAndLock_eq_ok_iff.1 hstep
  have hlive : h.store.live? place lock.start = some e := by
    rw [Store.live?_of_bucket hb, location_of_place? hplace]
    exact he
  have hentry := (Store.live?_eq_some_iff.1 hlive).1
  have hevent : h.event? p lock.action = some ⟨place, lock.start, .locked lock.time r.cas⟩ :=
    event?_call_eq_some_iff.2 ⟨place, r, hplace, hgranted, rfl⟩
  refine ⟨place, b, e, hplace, hb, hlive, ?_, ?_, ?_⟩
  · rw [← hr]
  · rw [← hr]
  · rw [document?_act, hevent, hentry]
    change Event.apply place (some e) _ = _
    rw [Event.apply, if_pos rfl]
    rfl

/-- A lock excludes everybody but its holder. In any run on a new store whose times do not go back,
let step `n` lock a document `e` and be handed a version. Whatever anybody does from then on, every
call on the document is guarded until the lock or the document ends or a call carries the version:
the call is answered by the table of locked documents and changes nothing, and the first one that
carries the version succeeds and ends the lock. Once the lock is over, by its time or by its holder,
calls on the document are answered as without a lock, until somebody locks it again. The version is
not zero, which would be none, as long as the clock of the bucket has not run over. -/
theorem lock_excludes (p : Policy) {run : List Action}
    (htimes : (run.filterMap Action.now?).Pairwise (· ≤ ·)) {n : Nat} {lock : Lock} {r : Reading}
    (hlock : run[n]? = some lock.action)
    (hgranted : (empty.before p run n).answer? p lock.link lock.start lock.call =
      some (.answer r)) :
    ∃ place e, (empty.before p run n).place? lock.link lock.id = some place ∧
      (empty.before p run n).store.live? place lock.start = some e ∧ r.content = e.content ∧
      ((empty.history p (run.take n)).countP (Event.drawsAt place.site) < Bucket.roomOfNew →
        r.cas ≠ 0) ∧
      ∀ i link now c, n < i → run[i]? = some (.call link now c) →
        (empty.before p run i).place? link c.id = some place →
        (lock.Holds e now → UnopenedBetween p empty run place r.cas (n + 1) i →
          (empty.before p run i).Guards p place (lock.entry e r.cas) link now c) ∧
        (lock.ends ≤ now → UnlockedBetween p empty run place (n + 1) i →
          (empty.before p run i).Releases p place link now c) ∧
        ∀ j link' now' c', n < j → j < i → run[j]? = some (.call link' now' c') →
          (empty.before p run j).place? link' c'.id = some place → c'.opens r.cas = true →
          lock.Holds e now' → UnopenedBetween p empty run place r.cas (n + 1) j →
          UnlockedBetween p empty run place (j + 1) i →
          (empty.before p run i).Releases p place link now c := by
  have hcounted := counted_empty.after (p := p) (run.take n)
  obtain ⟨place, b, e, hplace, hb, he, hcontent, hcas, hentry⟩ := granted hgranted
  rw [← before_succ hlock] at hentry
  refine ⟨place, e, hplace, he, hcontent, fun hdraws ↦ ?_, ?_⟩
  · rw [hcas]
    exact hcounted.nextCas_ne_zero hb hdraws
  · intro i link now c hni hcall hat
    refine ⟨fun hholds hunopened ↦ ?_, fun hends hunlocked ↦ ?_, ?_⟩
    · exact guards_of_held hat (held_before htimes hni hentry hcall rfl hholds hunopened) hholds
    · have hstart : (empty.before p run (n + 1)).LockedUpTo place lock.ends := by
        intro e' he' until' huntil
        obtain rfl := Option.some.inj (hentry.symm.trans he')
        exact Nat.le_of_eq (Option.some.inj huntil).symm
      exact releases_of_lockedUpTo hat (lockedUpTo_before hni hstart hunlocked) hends
    · intro j link' now' c' hnj hji hcall' hat' hopens hholds hunopened hunlocked
      have hheld := held_before htimes hnj hentry hcall' rfl hholds hunopened
      have hopened := ((guards_of_held (p := p) hat' hheld hholds).opened hopens).2
      have hstart : (empty.before p run (j + 1)).LockedUpTo place 0 := by
        intro e' he' until' huntil
        rw [before_succ hcall'] at he'
        rw [hopened e' he'] at huntil
        cases huntil
      exact releases_of_lockedUpTo hat (lockedUpTo_before hji hstart hunlocked) (Nat.zero_le now)

/-- Two callers with links to one bucket: the first inserts a document and locks it without saying
for how long. The second tries to write it when fifteen seconds are almost over, then the first does
so with the version of its lock, and the second tries again when they are. -/
def lockThenWrite : List Action :=
  let args : Link.Args := ⟨"u", "", "x", "mem://h", none, none⟩
  [.connect args, .connect args, .call 0 0 (.insert "a" [1] { expiry? := some 20000000000 }),
    .call 0 5 (.getAndLock "a" 0 none), .call 1 15000000004 (.upsert "a" [2] {}),
    .call 0 15000000004 (.replace "a" [3] { cas? := some 3 }),
    .call 1 15000000005 (.upsert "a" [2] {})]

theorem lock_excludes_lockThenWrite :
    let lock : Lock := ⟨0, 5, "a", 0, none⟩
    (lockThenWrite.filterMap Action.now?).Pairwise (· ≤ ·) ∧
      lockThenWrite[3]? = some lock.action ∧
      (empty.before {} lockThenWrite 3).answer? {} 0 5 lock.call =
        some (.answer ⟨[1], 3, none⟩) ∧
      ∃ place e, (empty.before {} lockThenWrite 3).place? 0 "a" = some place ∧
        (empty.before {} lockThenWrite 3).store.live? place 5 = some e ∧
        (empty.before {} lockThenWrite 4).Guards {} place (lock.entry e 3) 1 15000000004
          (.upsert "a" [2] {}) ∧
        (empty.before {} lockThenWrite 5).Guards {} place (lock.entry e 3) 0 15000000004
          (.replace "a" [3] { cas? := some 3 }) ∧
        (empty.before {} lockThenWrite 6).Releases {} place 1 15000000005 (.upsert "a" [2] {}) := by
  intro lock
  have htimes : (lockThenWrite.filterMap Action.now?).Pairwise (· ≤ ·) := by decide
  have hlock : lockThenWrite[3]? = some lock.action := rfl
  have hgranted : (empty.before {} lockThenWrite 3).answer? {} 0 5 lock.call =
      some (.answer ⟨[1], 3, none⟩) := rfl
  refine ⟨htimes, hlock, hgranted, ?_⟩
  obtain ⟨place, e, hplace, he, _, _, hafter⟩ := lock_excludes {} htimes hlock hgranted
  have hat : (empty.before {} lockThenWrite 3).place? 0 "a" =
      some ⟨⟨⟨"h", "x"⟩, .default⟩, "a"⟩ := rfl
  obtain rfl := Option.some.inj (hat.symm.trans hplace)
  have hlive : (empty.before {} lockThenWrite 3).store.live? ⟨⟨⟨"h", "x"⟩, .default⟩, "a"⟩ 5 =
      some ⟨[1], 2, some 20000000000, none⟩ := rfl
  obtain rfl := Option.some.inj (hlive.symm.trans he)
  have hholds : lock.Holds ⟨[1], 2, some 20000000000, none⟩ 15000000004 := by
    refine ⟨by decide, fun deadline hdeadline ↦ ?_⟩
    cases hdeadline
    decide
  refine ⟨_, _, hplace, he, ?_, ?_, ?_⟩
  · exact (hafter 4 1 15000000004 _ (by decide) rfl rfl).1 hholds fun m action hm hm' ↦ by omega
  · refine (hafter 5 0 15000000004 _ (by decide) rfl rfl).1 hholds ?_
    -- the only call between the two is that of the other caller, who carries no version
    intro m action hm hm' haction hopens
    obtain rfl : m = 4 := by omega
    cases haction
    exact absurd hopens.2 (by decide)
  · refine (hafter 6 1 15000000005 _ (by decide) rfl rfl).2.1 (by decide) ?_
    rintro m action hm hm' haction ⟨now, time, cas, hevent⟩
    obtain rfl | rfl : m = 4 ∨ m = 5 := by omega
    · cases haction
      cases hevent
    · cases haction
      cases hevent

end Hub
end Memory
end Depot
