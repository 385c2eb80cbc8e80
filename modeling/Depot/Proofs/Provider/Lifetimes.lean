import Depot.Proofs.Memory.LastWrite
import Depot.Proofs.Provider.Counters

/-!
# Remaining lifetimes

A read that asks for the lifetime of a document reports what is left until its deadline
(`Provider.remaining_of_get`), as a number of 64 bits. That nothing is lost in it follows from where
deadlines come from. What an event asks for is told by its request (`Provider.Event.asks?`), and an
event that succeeds sets just that (`Provider.done?_of_asks?`, `Provider.asks?_of_settles`). A step
either sets the deadline of a document or keeps it (`Provider.lifetime_step`), and so the deadline
is that of the last step that set it (`exists_lastSets`), which lies no later than the read
(`LastSets.now_le`). A document that is found is not past its deadline, so what is left is positive
and no more than the lifetime (`reports_of_remaining`).

A step that sets a lifetime and fails is one that touches a document that is no text
(`Provider.succeeds_of_settles`). It does not matter to a read that succeeds, since such a document
stays unreadable until something else is written.
-/

set_option autoImplicit false
set_option relaxedAutoImplicit false

namespace Depot

open Memory

theorem ReadResult.get?_toJson (r : ReadResult) :
    r.toJson.get? "expires_in_ns" = r.expiresIn?.map Json.ofUInt64 := by
  obtain ⟨document, cas, _ | n⟩ := r <;> rfl

/-- The reading that a result was made of is text. -/
theorem ReadResult.of_ofReading {r : Reading} {result : ReadResult}
    (h : ReadResult.ofReading r = .ok result) :
    result.expiresIn? = r.remaining?.map UInt64.ofNat ∧
      ∃ text, Text.decode? r.content = some text := by
  rw [Provider.ofReading_eq] at h
  cases hdecode : Text.decode? r.content with
  | none =>
    rw [hdecode] at h
    contradiction
  | some text =>
    rw [hdecode] at h
    obtain rfl := Except.ok.inj h
    exact ⟨rfl, text, rfl⟩

/-- Only text can be projected. -/
theorem Memory.Projection.exists_decode? {content projected : Bytes} {paths : List String}
    (h : Projection.ofContent content paths = .ok projected) :
    ∃ text, Text.decode? content = some text := by
  unfold Projection.ofContent at h
  cases hparse : Json.parse content with
  | none =>
    rw [hparse] at h
    contradiction
  | some source =>
    obtain ⟨chars, hchars, -⟩ := Option.bind_eq_some_iff.1 hparse
    exact ⟨String.ofList chars, Option.map_eq_some_iff.2 ⟨chars, hchars, rfl⟩⟩

/-- The document whose lifetime an operation sets, and the lifetime that it asks for, in
nanoseconds. -/
def Document.Operation.lifetime? : Document.Operation → Option (String × Option UInt64)
  | .insert id _ o => some (id, o.expiry?)
  | .upsert id _ o => some (id, o.expiry?)
  | .replace id _ o => some (id, o.expiry?)
  | .touch id o => some (id, some o.expiry)
  | .getAndTouch id o => some (id, some o.expiry)
  | _ => none

/-- Key-value operations that write ask for no lifetime. -/
def KeyValue.Operation.lifetime? : KeyValue.Operation → Option (String × Option UInt64)
  | .set _ key _ => some (key, none)
  | .increment _ key _ => some (key, none)
  | _ => none

namespace Provider

section

variable {σ κ : Type} {g : Ground σ κ} {now : Nat} {p : Provider σ κ} {connection : Connection κ}
  {q : Rpc.Request} {op : Document.Operation} {j : Json}

/-- What a document operation is answered with, if it succeeds, is made of what the store
answered. -/
theorem exists_answer_of_gets (hq : Addresses p connection q (.document op))
    (hgets : Gets g now p q (Wire.tagged "ok" j)) :
    ∃ a r, (g.backend.perform connection now op.call p.store).1 = .answer a ∧
      op.ofAnswer a = .ok r ∧ j = op.answerJson r := by
  rw [gets_iff hq] at hgets
  change reply op.answerJson DocumentError.toJson
    (op.ofAttempt (g.backend.perform connection now op.call p.store).1) = _ at hgets
  cases hattempt : (g.backend.perform connection now op.call p.store).1 with
  | crash =>
    rw [hattempt] at hgets
    contradiction
  | fault f =>
    rw [hattempt] at hgets
    have hname := (Wire.tagged_inj.1 (Except.ok.inj hgets)).1
    contradiction
  | answer a =>
    rw [hattempt] at hgets
    cases hanswer : op.ofAnswer a with
    | error e =>
      simp only [Document.Operation.ofAttempt, hanswer] at hgets
      have hname := (Wire.tagged_inj.1 (Except.ok.inj hgets)).1
      contradiction
    | ok r =>
      simp only [Document.Operation.ofAttempt, hanswer] at hgets
      exact ⟨a, r, rfl, hanswer, (Wire.tagged_inj.1 (Except.ok.inj hgets)).2.symm⟩

end

variable {policy : Policy} {tokens : Nat → String} {now : Nat} {p : Provider Store Collection}
  {q : Rpc.Request} {place : Place} {j : Json} {e : Event Store Collection}

/-- What the bucket of a collection answers to an operation that succeeds. -/
theorem exists_step_of_gets {op : Document.Operation}
    (hq : Addresses p (.live place.collection) q (.document op))
    (hgets : Gets ⟨backend policy, tokens⟩ now p q (Wire.tagged "ok" j)) :
    ∃ b b' a r, p.store.get? place.site = some b ∧
      b.step place.collection.keyspace now op.call = .ok (a, b') ∧ op.ofAnswer a = .ok r ∧
      j = op.answerJson r := by
  obtain ⟨a, r, hattempt, hanswer, hj⟩ := exists_answer_of_gets hq hgets
  rcases Store.perform_cases policy (.live place.collection) now op.call p.store with
    ⟨f, hperform⟩ | ⟨k, b, b', a', hlive, hb, hstep, hperform⟩
  · simp only [hperform] at hattempt
    contradiction
  · simp only [hperform, Attempt.answer.injEq] at hattempt
    obtain rfl := hattempt
    cases hlive
    exact ⟨b, b', _, r, hb, hstep, hanswer, hj⟩

/-- A read that succeeds has found a live document that is text, and reports what remains of its
lifetime, if that was asked for. -/
theorem remaining_of_get {o : Options.Read}
    (hq : Addresses p (.live place.collection) q (.document (.get place.id o)))
    (hgets : Gets ⟨backend policy, tokens⟩ now p q (Wire.tagged "ok" j)) :
    ∃ e, p.store.live? place now = some e ∧ (∃ text, Text.decode? e.content = some text) ∧
      j.get? "expires_in_ns" = if o.withExpiry then
        (e.remaining? now).map fun n ↦ .ofUInt64 (.ofNat n) else none := by
  obtain ⟨b, b', reading, r, hb, hstep, hanswer, rfl⟩ := exists_step_of_gets hq hgets
  obtain ⟨_, hget, hreading⟩ := map_eq_ok_iff.1 hstep
  cases hreading
  obtain ⟨e, he, content, hcontent, rfl⟩ := Bucket.get_eq_ok_iff.1 hget
  obtain ⟨hexpires, htext⟩ := ReadResult.of_ofReading hanswer
  refine ⟨e, (Store.live?_of_bucket hb now).trans he, ?_, ?_⟩
  · split at hcontent
    · obtain rfl := Except.ok.inj hcontent
      exact htext
    · exact Projection.exists_decode? hcontent
  · change r.toJson.get? "expires_in_ns" = _
    rw [ReadResult.get?_toJson, hexpires]
    change Option.map _ (Option.map _ (if o.withExpiry then e.remaining? now else none)) = _
    cases o.withExpiry with
    | false => rfl
    | true =>
      simp only [if_true, Option.map_map]
      rfl

/-- A read that touches reports the lifetime that it sets. -/
theorem remaining_of_getAndTouch {o : Options.Touch}
    (hq : Addresses p (.live place.collection) q (.document (.getAndTouch place.id o)))
    (hgets : Gets ⟨backend policy, tokens⟩ now p q (Wire.tagged "ok" j)) :
    j.get? "expires_in_ns" = if o.expiry = 0 then none else some (.ofUInt64 o.expiry) := by
  obtain ⟨b, b', reading, r, hb, hstep, hanswer, rfl⟩ := exists_step_of_gets hq hgets
  obtain ⟨e, -, rfl, -⟩ := Bucket.getAndTouch_eq_ok_iff.1 hstep
  obtain ⟨hexpires, -⟩ := ReadResult.of_ofReading hanswer
  change r.toJson.get? "expires_in_ns" = _
  rw [ReadResult.get?_toJson, hexpires]
  by_cases hzero : o.expiry = 0
  · simp [hzero, deadline?, Option.filter_some]
  · have hne : o.expiry.toNat ≠ 0 := fun h ↦ hzero (UInt64.toNat_inj.1 h)
    simp [hzero, deadline?_of_ne_zero hne]

/-- A read that locks reports no lifetime. -/
theorem remaining_of_getAndLock {o : Options.Lock}
    (hq : Addresses p (.live place.collection) q (.document (.getAndLock place.id o)))
    (hgets : Gets ⟨backend policy, tokens⟩ now p q (Wire.tagged "ok" j)) :
    j.get? "expires_in_ns" = none := by
  obtain ⟨b, b', reading, r, hb, hstep, hanswer, rfl⟩ := exists_step_of_gets hq hgets
  obtain ⟨e, -, rfl, -⟩ := Bucket.getAndLock_eq_ok_iff.1 hstep
  obtain ⟨hexpires, -⟩ := ReadResult.of_ofReading hanswer
  change r.toJson.get? "expires_in_ns" = _
  rw [ReadResult.get?_toJson, hexpires]
  rfl

/-! ## Asking for lifetimes -/

/-- Work in the background sets the lifetime when it is carried out. -/
def CallerRequest.lifetime? : CallerRequest → Option (String × Option UInt64)
  | .document op => op.lifetime?
  | .background _ => none
  | .keyValue op => op.lifetime?

/-- A lifetime that was set: of which document, when, and what was asked for. -/
structure Setting where
  place : Place
  now : Nat
  expiry? : Option UInt64

/-- The request that an event carries out, its time, and the connection that it goes over; work in
the background is a request for its operation. -/
def Event.served? {σ κ : Type} (p : Provider σ κ) :
    Event σ κ → Option (Connection κ × Nat × CallerRequest)
  | .request q now => (p.addressed? q).map fun served ↦ (served.1, now, served.2)
  | .work mayRun now => (p.jobs.find? mayRun).map fun job ↦
      (job.connection, now, .document job.work.operation)
  | _ => none

/-- What an event asks for the lifetime of a document, if it is to set one. -/
def Event.asks? (p : Provider Store Collection) (e : Event Store Collection) : Option Setting :=
  match e.served? p with
  | some (.live k, now, r) => r.lifetime?.map fun asked ↦ ⟨⟨k, asked.1⟩, now, asked.2⟩
  | _ => none

variable {setting : Setting}

theorem Event.asks?_eq_some_iff : e.asks? p = some setting ↔
    ∃ k now r key expiry?, e.served? p = some (.live k, now, r) ∧
      r.lifetime? = some (key, expiry?) ∧ setting = ⟨⟨k, key⟩, now, expiry?⟩ := by
  unfold Event.asks?
  constructor
  · intro h
    split at h
    · rename_i k now r hserved
      obtain ⟨⟨key, expiry?⟩, hasked, heq⟩ := Option.map_eq_some_iff.1 h
      exact ⟨k, now, r, key, expiry?, hserved, hasked, heq.symm⟩
    · contradiction
  · rintro ⟨k, now, r, key, expiry?, hserved, hasked, rfl⟩
    simp only [hserved, hasked, Option.map_some]

/-- A call is made for a request that is served. -/
theorem Event.exists_served_of_call? {k : Collection} {c : Call}
    (h : e.call? p = some (.live k, now, c)) :
    ∃ r, e.served? p = some (.live k, now, r) ∧ r.call? = some c := by
  rcases Event.call?_cases h with ⟨q, r, rfl, hq, hc⟩ | ⟨mayRun, job, rfl, hjob, hk, rfl⟩
  · exact ⟨r, by rw [Event.served?, addressed?_eq_some_iff.2 hq, Option.map_some], hc⟩
  · exact ⟨_, by rw [Event.served?, hjob, Option.map_some, hk], rfl⟩

theorem Event.call?_of_served? {k : Collection} {r : CallerRequest} {c : Call}
    (h : e.served? p = some (.live k, now, r)) (hc : r.call? = some c) :
    e.call? p = some (.live k, now, c) := by
  cases e with
  | request q now' =>
    obtain ⟨⟨connection, r'⟩, haddressed, heq⟩ := Option.map_eq_some_iff.1 h
    cases heq
    rw [Event.call?, haddressed, Option.bind_some, hc, Option.map_some]
  | work mayRun now' =>
    obtain ⟨⟨work, connection⟩, hjob, heq⟩ := Option.map_eq_some_iff.1 h
    cases heq
    cases hc
    rw [Event.call?, hjob, Option.map_some]
  | _ => contradiction

/-- The lifetime that a request asks for is the one that its call sets. -/
theorem CallerRequest.lifetime?_eq {r : CallerRequest} {c : Call} (hc : r.call? = some c)
    (a : c.Answer) : r.lifetime?.map (fun asked ↦ (asked.1, asked.2.map UInt64.toNat)) =
      if (Deed.of c a).settlesLifetime then some (c.id, (Deed.of c a).expiry?) else none := by
  cases r with
  | background work => contradiction
  | document op =>
    obtain rfl := Option.some.inj hc
    cases op <;> rfl
  | keyValue op => cases op <;> cases hc <;> rfl

/-- An event that sets a lifetime asked for it. -/
theorem asks?_of_settles {done : Memory.Event} (hdone : e.done? policy p = some done)
    (hsettles : done.deed.settlesLifetime = true) :
    ∃ expiry?, e.asks? p = some ⟨done.place, done.now, expiry?⟩ ∧
      done.deed.expiry? = expiry?.map UInt64.toNat := by
  obtain ⟨k, now, c, a, hcall, -, rfl⟩ := done?_eq_some_iff.1 hdone
  obtain ⟨r, hserved, hc⟩ := Event.exists_served_of_call? hcall
  have hlifetime := CallerRequest.lifetime?_eq hc a
  rw [if_pos hsettles] at hlifetime
  obtain ⟨⟨key, expiry?⟩, hasked, heq⟩ := Option.map_eq_some_iff.1 hlifetime
  obtain ⟨rfl, hexpiry⟩ := Prod.mk.inj heq
  exact ⟨expiry?, Event.asks?_eq_some_iff.2 ⟨k, now, r, _, expiry?, hserved, hasked, rfl⟩,
    hexpiry.symm⟩

/-- A request that is answered with success, or work whose result is one. -/
def Event.Succeeds {σ κ : Type} (g : Ground σ κ) (p : Provider σ κ) : Event σ κ → Prop
  | .request q now => ((handler g now).onRequest q p).1.succeeds = true
  | .work mayRun now => ∃ job a, p.jobs.find? mayRun = some job ∧
      (job.work.operation.run g.backend job.connection now p.store).1 = some (.ok a)
  | _ => False

/-- A request that asks for a lifetime and is answered with success has been answered by the
store. -/
theorem succeeds_of_request {k : Collection} {r : CallerRequest} {asked : String × Option UInt64}
    (hq : Addresses p (.live k) q r) (hasked : r.lifetime? = some asked)
    (hsucceeds : ((handler ⟨backend policy, tokens⟩ now).onRequest q p).1.succeeds = true) :
    r.Succeeds ⟨backend policy, tokens⟩ now (.live k) p.store := by
  rw [onRequest_of_addresses hq] at hsucceeds
  have hverdict := verdict_serveCaller ⟨backend policy, tokens⟩ now (.live k) p r
  generalize (p.serveCaller ⟨backend policy, tokens⟩ now (.live k) r).1 = response
    at hsucceeds hverdict
  cases hverdict with
  | crashed => contradiction
  | failed => contradiction
  | forgiven h hop =>
    rename_i op
    cases op with
    | get => contradiction
    | delete => contradiction
    | _ => exact absurd hop id
  | succeeded h => exact h
  | unlisted => contradiction
  | deferred => contradiction

theorem Event.Succeeds.served {k : Collection} {r : CallerRequest}
    {asked : String × Option UInt64} (h : e.Succeeds ⟨backend policy, tokens⟩ p)
    (hserved : e.served? p = some (.live k, now, r)) (hasked : r.lifetime? = some asked) :
    r.Succeeds ⟨backend policy, tokens⟩ now (.live k) p.store := by
  cases e with
  | request q now' =>
    obtain ⟨⟨connection, r'⟩, haddressed, heq⟩ := Option.map_eq_some_iff.1 hserved
    cases heq
    exact succeeds_of_request (addressed?_eq_some_iff.1 haddressed) hasked h
  | work mayRun now' =>
    obtain ⟨job, hjob, heq⟩ := Option.map_eq_some_iff.1 hserved
    obtain ⟨job', a, hjob', hrun⟩ := h
    obtain rfl := Option.some.inj (hjob.symm.trans hjob')
    obtain ⟨hk, hrest⟩ := Prod.mk.inj heq
    cases hrest
    change job.work.operation.ofAttempt ((backend policy).perform job.connection now
      job.work.operation.call p.store).1 = _ at hrun
    rw [hk] at hrun
    cases hattempt : ((backend policy).perform (.live k) now
        job.work.operation.call p.store).1 with
    | answer answer => exact ⟨_, answer, rfl, hattempt⟩
    | fault f =>
      rw [hattempt] at hrun
      cases hrun
    | crash =>
      rw [hattempt] at hrun
      cases hrun
  | _ => contradiction

/-- An event that asks for a lifetime and succeeds sets it. -/
theorem done?_of_asks? (hasks : e.asks? p = some setting)
    (hsucceeds : e.Succeeds ⟨backend policy, tokens⟩ p) :
    ∃ done, e.done? policy p = some done ∧ done.place = setting.place ∧
      done.deed.settlesLifetime = true := by
  obtain ⟨k, now, r, key, expiry?, hserved, hasked, rfl⟩ := Event.asks?_eq_some_iff.1 hasks
  obtain ⟨c, a, hc, hattempt⟩ := hsucceeds.served hserved hasked
  have hcall : e.call? p = some (.live k, now, c) := Event.call?_of_served? hserved hc
  have hlifetime := CallerRequest.lifetime?_eq hc a
  rw [hasked, Option.map_some] at hlifetime
  split at hlifetime
  · rename_i hsettles
    have hkey : key = c.id := (Prod.mk.inj (Option.some.inj hlifetime)).1
    exact ⟨_, done?_eq_some_iff.2 ⟨k, now, c, a, hcall, hattempt, rfl⟩, by rw [hkey], hsettles⟩
  · contradiction

/-- An operation whose call set a lifetime succeeds, unless it touched a document that is no
text. -/
theorem ok_of_settles {op : Document.Operation} {k : Keyspace} {b b' : Bucket}
    {a : op.call.Answer} (hstep : b.step k now op.call = .ok (a, b'))
    (hsettles : (Deed.of op.call a).settlesLifetime = true) :
    (∃ r, op.ofAnswer a = .ok r) ∨ ∃ expiry cas old, Deed.of op.call a = .touched expiry cas ∧
      b.live? ⟨k, op.call.id⟩ now = some old ∧ Text.decode? old.content = none := by
  cases hanswer : op.ofAnswer a with
  | ok r => exact .inl ⟨r, rfl⟩
  | error fault =>
    cases op with
    | getAndTouch id o =>
      have htaking : (Document.Operation.getAndTouch id o).taking? b.nextCas =
          some (.touched o.expiry.toNat b.nextCas) := rfl
      obtain ⟨old, hold, -, hnone⟩ := live?_of_taking htaking hstep
      exact .inr ⟨_, _, old, rfl, hold, hnone fault hanswer⟩
    | _ => contradiction

theorem exists_ok_of_answer {σ κ : Type} {g : Ground σ κ} {connection : Connection κ} {s : σ}
    {op : KeyValue.Operation} {c : Call} (hc : op.call? = some c) {a : c.Answer}
    (h : (g.backend.perform connection now c s).1 = .answer a) :
    ∃ r, (op.run g.backend connection now s).1 = some (.ok r) := by
  cases op <;> cases hc <;> simp only [KeyValue.Operation.run, h] <;> exact ⟨_, rfl⟩

/-- An event that sets a lifetime succeeds, unless it touches a document that is no text. -/
theorem succeeds_of_settles (tokens : Nat → String) {done : Memory.Event}
    (hdone : e.done? policy p = some done) (hsettles : done.deed.settlesLifetime = true) :
    e.Succeeds ⟨backend policy, tokens⟩ p ∨
      ∃ expiry cas old, done.deed = .touched expiry cas ∧
        p.store.document? done.place = some old ∧ Text.decode? old.content = none := by
  obtain ⟨k, now, c, a, hcall, hattempt, rfl⟩ := done?_eq_some_iff.1 hdone
  obtain ⟨b, b', hb, hstep⟩ : ∃ b b', p.store.get? k.site = some b ∧
      b.step k.keyspace now c = .ok (a, b') := by
    rcases Store.perform_cases policy (.live k) now c p.store with
      ⟨f, hperform⟩ | ⟨k', b, b', a', hlive, hb, hstep, hperform⟩
    · rw [hperform] at hattempt
      contradiction
    · rw [hperform] at hattempt
      cases hattempt
      cases hlive
      exact ⟨b, b', hb, hstep⟩
  have hdocument : ∀ {old}, b.live? ⟨k.keyspace, c.id⟩ now = some old →
      p.store.document? ⟨k, c.id⟩ = some old := fun hold ↦
    Option.bind_eq_some_iff.2 ⟨b, hb, (Bucket.live?_eq_some_iff.1 hold).1⟩
  rcases Event.call?_cases hcall with ⟨q, r, rfl, hq, hc⟩ | ⟨mayRun, job, rfl, hjob, hk, rfl⟩
  · have honRequest := onRequest_of_addresses hq ⟨backend policy, tokens⟩ now
    cases r with
    | background work => contradiction
    | document op =>
      obtain rfl := Option.some.inj hc
      rcases ok_of_settles hstep hsettles with ⟨r, hr⟩ | ⟨expiry, cas, old, hdeed, hold, hnone⟩
      · left
        rw [Event.Succeeds, honRequest]
        change (respond q.id (reply op.answerJson DocumentError.toJson (op.ofAttempt
          ((backend policy).perform (.live k) now op.call p.store).1))).succeeds = true
        rw [hattempt]
        simp only [Document.Operation.ofAttempt, hr]
        rfl
      · exact .inr ⟨expiry, cas, old, hdeed, hdocument hold, hnone⟩
    | keyValue op =>
      left
      obtain ⟨r, hr⟩ := exists_ok_of_answer (g := ⟨backend policy, tokens⟩) hc hattempt
      rw [Event.Succeeds, honRequest]
      change (respond q.id (reply op.answerJson StoreError.toJson
        (op.run (backend policy) (.live k) now p.store).1)).succeeds = true
      rw [hr]
      rfl
  · rcases ok_of_settles hstep hsettles with ⟨r, hr⟩ | ⟨expiry, cas, old, hdeed, hold, hnone⟩
    · refine .inl ⟨job, r, hjob, ?_⟩
      change job.work.operation.ofAttempt
        ((backend policy).perform job.connection now job.work.operation.call p.store).1 = _
      rw [hk, hattempt]
      exact congrArg some hr
    · exact .inr ⟨expiry, cas, old, hdeed, hdocument hold, hnone⟩

/-- A document that is text has kept its content and its deadline, or the event has set the deadline
and succeeds. -/
theorem lifetime_step (hown : ∀ s, e = .store s → s = p.store) {entry : Entry}
    (hentry : (p.step ⟨backend policy, tokens⟩ e).store.document? place = some entry)
    (htext : ∃ text, Text.decode? entry.content = some text) :
    ((∀ done, e.done? policy p = some done → done.place = place →
        done.deed.settlesLifetime = false) ∧
      ∃ old, p.store.document? place = some old ∧ old.content = entry.content ∧
        old.expiresAt? = entry.expiresAt?) ∨
    ∃ done, e.done? policy p = some done ∧ e.Succeeds ⟨backend policy, tokens⟩ p ∧
      done.place = place ∧ done.deed.settlesLifetime = true ∧
      entry.expiresAt? = deadline? done.now done.deed.expiry? := by
  rw [document?_step policy tokens hown] at hentry
  cases hdone : e.done? policy p with
  | none =>
    rw [hdone] at hentry
    exact .inl ⟨nofun, entry, hentry, rfl, rfl⟩
  | some done =>
    rw [hdone] at hentry
    change done.apply place (p.store.document? place) = some entry at hentry
    unfold Memory.Event.apply at hentry
    by_cases hat : done.place = place
    · rw [if_pos hat] at hentry
      cases hsettles : done.deed.settlesLifetime with
      | false =>
        refine .inl ⟨?_, Deed.kept_of_not_settles hsettles hentry⟩
        rintro _ ⟨⟩ -
        exact hsettles
      | true =>
        refine .inr ⟨done, rfl, ?_, hat, hsettles, Deed.expiresAt?_of_settles hsettles hentry⟩
        rcases succeeds_of_settles tokens hdone hsettles with
          hsucceeds | ⟨expiry, cas, old, hdeed, hold, hnone⟩
        · exact hsucceeds
        · -- the content that was no text when it was touched is still there
          rw [hdeed, ← hat, hold] at hentry
          cases hentry
          obtain ⟨text, htext⟩ := htext
          exact absurd (hnone.symm.trans htext) nofun
    · rw [if_neg hat] at hentry
      refine .inl ⟨?_, entry, hentry, rfl, rfl⟩
      rintro _ ⟨⟩ hplace
      exact absurd hplace hat

end Provider

/-! ## Runs -/

namespace Service

variable {policy : Policy} {tokens : Nat → String} {s : Service Store Collection}
  {run : List Event} {place : Place} {i j : Nat} {setting other : Provider.Setting}

/-- Step `j` of a run sets the lifetime of the document at a place: what it carries out asks for it
and succeeds. -/
def Sets (policy : Policy) (tokens : Nat → String) (s : Service Store Collection)
    (run : List Event) (place : Place) (j : Nat) (setting : Provider.Setting) : Prop :=
  let found := before ⟨backend policy, tokens⟩ s run j
  ∃ event, run[j]? = some event ∧ (found.seen event).asks? found.provider = some setting ∧
    setting.place = place ∧ (found.seen event).Succeeds ⟨backend policy, tokens⟩ found.provider

/-- Step `j` is the last one before step `i` that sets the lifetime of the document at a place. -/
structure LastSets (policy : Policy) (tokens : Nat → String) (s : Service Store Collection)
    (run : List Event) (place : Place) (i j : Nat) (setting : Provider.Setting) : Prop where
  earlier : j < i
  sets : Sets policy tokens s run place j setting
  last : ∀ m other, j < m → m < i → ¬ Sets policy tokens s run place m other

theorem LastSets.succ (h : LastSets policy tokens s run place i j setting)
    (hnone : ∀ other, ¬ Sets policy tokens s run place i other) :
    LastSets policy tokens s run place (i + 1) j setting := by
  refine ⟨Nat.lt_succ_of_lt h.earlier, h.sets, fun m other hjm hmi ↦ ?_⟩
  rcases Nat.lt_succ_iff_lt_or_eq.1 hmi with hlt | rfl
  · exact h.last m other hjm hlt
  · exact hnone other

theorem Sets.unique (h : Sets policy tokens s run place j setting)
    (h' : Sets policy tokens s run place j other) : setting = other := by
  obtain ⟨event, hevent, hasks, -⟩ := h
  obtain ⟨event', hevent', hasks', -⟩ := h'
  obtain rfl := Option.some.inj (hevent.symm.trans hevent')
  exact Option.some.inj (hasks.symm.trans hasks')

theorem Sets.lastSets (h : Sets policy tokens s run place j setting) :
    LastSets policy tokens s run place (j + 1) j setting :=
  ⟨Nat.lt_succ_self j, h, fun _ _ hjm hmj ↦ absurd hmj (Nat.not_lt.2 hjm)⟩

/-- If nothing sets the lifetime in between, the last step that does is the same. -/
theorem LastSets.unique {i' j' : Nat} (h : LastSets policy tokens s run place i j setting)
    (h' : LastSets policy tokens s run place i' j' other) (hle : i ≤ i')
    (hnone : ∀ m between, i ≤ m → m < i' → ¬ Sets policy tokens s run place m between) :
    setting = other := by
  have hearlier := h.earlier
  rcases Nat.lt_trichotomy j j' with hlt | rfl | hgt
  · by_cases hi : j' < i
    · exact absurd h'.sets (h.last j' other hlt hi)
    · exact absurd h'.sets (hnone j' other (Nat.le_of_not_lt hi) h'.earlier)
  · exact h.sets.unique h'.sets
  · exact absurd h.sets (h'.last j setting hgt (Nat.lt_of_lt_of_le hearlier hle))

/-- The deadline of a document that is text is the one of the step that set its lifetime last. -/
theorem exists_lastSets (hstart : s.provider.store.document? place = none) {e : Entry}
    (he : (before ⟨backend policy, tokens⟩ s run i).provider.store.document? place = some e)
    (htext : ∃ text, Text.decode? e.content = some text) :
    ∃ j setting, LastSets policy tokens s run place i j setting ∧
      e.expiresAt? = deadline? setting.now (setting.expiry?.map UInt64.toNat) := by
  induction i generalizing e with
  | zero =>
    rw [before, stateAt_zero, hstart] at he
    contradiction
  | succ i ih =>
    cases hevent : run[i]? with
    | none =>
      rw [before, stateAt_succ_of_none _ _ hevent] at he
      obtain ⟨j, setting, hlast, hdeadline⟩ := ih he htext
      refine ⟨j, setting, hlast.succ fun other hsets ↦ ?_, hdeadline⟩
      obtain ⟨event, hsome, -⟩ := hsets
      rw [hevent] at hsome
      contradiction
    | some event =>
      rw [before, stateAt_succ _ _ hevent, provider_step] at he
      rcases Provider.lifetime_step (fun _ ↦ store_of_seen) he htext with
        ⟨hidle, old, hold, hcontent, hexpires⟩ | ⟨done, hdone, hsucceeds, hat, hsettles, hdeadline⟩
      · obtain ⟨j, setting, hlast, hdeadline⟩ := ih hold (hcontent ▸ htext)
        refine ⟨j, setting, hlast.succ ?_, hexpires.symm.trans hdeadline⟩
        rintro other ⟨event', hevent', hasks, hat, hsucceeds⟩
        obtain rfl := Option.some.inj (hevent.symm.trans hevent')
        obtain ⟨done, hdone, hplace, hsettles⟩ := Provider.done?_of_asks? hasks hsucceeds
        rw [hidle done hdone (hplace.trans hat)] at hsettles
        contradiction
      · obtain ⟨expiry?, hasks, hexpiry⟩ := Provider.asks?_of_settles hdone hsettles
        have hsets : Sets policy tokens s run place i ⟨done.place, done.now, expiry?⟩ :=
          ⟨event, hevent, hasks, hat, hsucceeds⟩
        exact ⟨i, _, hsets.lastSets, hexpiry ▸ hdeadline⟩

theorem now_of_asks? {event : Event}
    (h : (s.seen event).asks? s.provider = some setting) : setting.now = event.now := by
  obtain ⟨k, now, r, key, expiry?, hserved, -, rfl⟩ := Provider.Event.asks?_eq_some_iff.1 h
  cases hseen : s.seen event with
  | request q now' =>
    rw [hseen] at hserved
    obtain ⟨⟨connection, r'⟩, -, heq⟩ := Option.map_eq_some_iff.1 hserved
    cases heq
    exact (now_of_seen hseen).symm
  | work mayRun now' =>
    rw [hseen] at hserved
    obtain ⟨⟨work, connection⟩, -, heq⟩ := Option.map_eq_some_iff.1 hserved
    cases heq
    cases event with
    | work handle now => exact (Provider.Event.work.inj hseen).2.symm
    | proceed n now =>
      rw [seen] at hseen
      split at hseen <;> contradiction
    | _ => contradiction
  | _ =>
    rw [hseen] at hserved
    contradiction

theorem now_le_of_le (htimes : run.Pairwise fun event later ↦ event.now ≤ later.now)
    {event later : Event} (hevent : run[i]? = some event) (hlater : run[j]? = some later)
    (hle : i ≤ j) : event.now ≤ later.now := by
  rcases Nat.eq_or_lt_of_le hle with rfl | hlt
  · cases hevent.symm.trans hlater
    exact Nat.le_refl _
  · obtain ⟨hi, rfl⟩ := List.getElem?_eq_some_iff.1 hevent
    obtain ⟨hj, rfl⟩ := List.getElem?_eq_some_iff.1 hlater
    exact List.pairwise_iff_getElem.1 htimes i j hi hj hlt

/-- Nothing was set later than now. -/
theorem LastSets.now_le (h : LastSets policy tokens s run place i j setting)
    (htimes : run.Pairwise fun event later ↦ event.now ≤ later.now) {event : Event}
    (hevent : run[i]? = some event) : setting.now ≤ event.now := by
  obtain ⟨earlier, hearlier, hasks, -⟩ := h.sets
  rw [now_of_asks? hasks]
  exact now_le_of_le htimes hearlier hevent (Nat.le_of_lt h.earlier)

/-- Step `i` of a run serves a request for a document operation over a collection, and it succeeds
with this answer. -/
def Gives (g : Ground Store Collection) (s : Service Store Collection) (run : List Event)
    (i now : Nat) (k : Collection) (op : Document.Operation) (answer : Json) : Prop :=
  ∃ q, Served g s run i now q (.success q.id (Wire.tagged "ok" answer)) ∧
    Provider.Addresses (before g s run i).provider (.live k) q (.document op)

/-- What a read at a time reports of a lifetime that was set: nothing, if none was asked for or one
of zero, and else what is left of it. -/
structure Reports (setting : Provider.Setting) (now : Nat) (answer : Json) : Prop where
  absent : setting.expiry?.getD 0 = 0 → answer.get? "expires_in_ns" = none
  left : ∀ d : UInt64, setting.expiry? = some d → d ≠ 0 → ∃ left : UInt64,
    answer.get? "expires_in_ns" = some (.ofUInt64 left) ∧ setting.now ≤ now ∧
      left.toNat + (now - setting.now) = d.toNat ∧ 0 < left.toNat ∧ left.toNat ≤ d.toNat ∧
      d.toNat < UInt64.size

theorem Gives.elim {g : Ground Store Collection} {now : Nat} {k : Collection}
    {op : Document.Operation} {answer : Json} (h : Gives g s run i now k op answer) :
    ∃ n q, run[i]? = some (.proceed n now) ∧
      Provider.Addresses (before g s run i).provider (.live k) q (.document op) ∧
      Provider.Gets g now (before g s run i).provider q (Wire.tagged "ok" answer) := by
  obtain ⟨q, ⟨n, hevent, -, hresponse⟩, hq⟩ := h
  exact ⟨n, q, hevent, hq, hresponse.symm⟩

theorem gives_of_addressed? {g : Ground Store Collection} {n now : Nat} {q : Rpc.Request}
    {k : Collection} {op : Document.Operation} {answer : Json}
    (hevent : run[i]? = some (.proceed n now))
    (hpending : (before g s run i).errands[n]? = some ⟨q, none⟩)
    (hq : (before g s run i).provider.addressed? q = some (.live k, .document op))
    (hanswer : ((before g s run i).provider.serveCaller g now (.live k) (.document op)).1 =
      .ok (Wire.tagged "ok" answer)) : Gives g s run i now k op answer := by
  have haddresses := Provider.addressed?_eq_some_iff.1 hq
  have hgets := (Provider.gets_iff haddresses).2 hanswer
  exact ⟨q, ⟨n, hevent, hpending, hgets.symm⟩, haddresses⟩

/-- What remains of a lifetime while it lasts is positive, no more than the lifetime, and a number
of 64 bits. -/
theorem reports_of_remaining {e : Entry} {now : Nat} {answer : Json} (hle : setting.now ≤ now)
    (hdeadline : e.expiresAt? = deadline? setting.now (setting.expiry?.map UInt64.toNat))
    (hlive : e.isExpired now = false)
    (hanswer : answer.get? "expires_in_ns" =
      (e.remaining? now).map fun n ↦ .ofUInt64 (.ofNat n)) : Reports setting now answer := by
  rw [Entry.remaining?, hdeadline] at hanswer
  constructor
  · intro hzero
    rw [hanswer]
    cases hexpiry : setting.expiry? with
    | none => rfl
    | some d =>
      obtain rfl : d = 0 := by simpa [hexpiry] using hzero
      rfl
  · intro d hd hne
    have hspan : d.toNat ≠ 0 := fun hzero ↦ hne (UInt64.toNat_inj.1 hzero)
    have hsize : d.toNat < UInt64.size := d.toNat_lt_size
    rw [hd, Option.map_some, deadline?_of_ne_zero hspan] at hanswer hdeadline
    have hends : now < setting.now + d.toNat := by
      rw [Entry.isExpired, hdeadline, Option.any_some, decide_eq_false_iff_not] at hlive
      exact Nat.not_le.1 hlive
    have htoNat : (UInt64.ofNat (setting.now + d.toNat - now)).toNat =
        setting.now + d.toNat - now := UInt64.toNat_ofNat_of_lt' (by omega)
    refine ⟨.ofNat (setting.now + d.toNat - now), hanswer, hle, ?_, ?_, ?_, hsize⟩
    · rw [htoNat]
      omega
    · rw [htoNat]
      omega
    · rw [htoNat]
      omega

theorem reports_of_gives (hstart : s.provider.store.document? place = none)
    (htimes : run.Pairwise fun event later ↦ event.now ≤ later.now) {now : Nat}
    {o : Options.Read} {answer : Json} (hexpiry : o.withExpiry = true)
    (hgives : Gives ⟨backend policy, tokens⟩ s run i now place.collection (.get place.id o)
      answer) :
    ∃ j setting, LastSets policy tokens s run place i j setting ∧
      Reports setting now answer := by
  obtain ⟨n, q, hevent, hq, hgets⟩ := hgives.elim
  obtain ⟨e, he, htext, hanswer⟩ := Provider.remaining_of_get hq hgets
  obtain ⟨hdocument, hlive⟩ := Store.live?_eq_some_iff.1 he
  obtain ⟨j, setting, hlast, hdeadline⟩ := exists_lastSets hstart hdocument htext
  rw [hexpiry, if_pos rfl] at hanswer
  exact ⟨j, setting, hlast, reports_of_remaining (hlast.now_le htimes hevent) hdeadline hlive
    hanswer⟩

/-- What is left is left of a lifetime. -/
theorem Reports.exists_lifetime {now : Nat} {answer left : Json} (h : Reports setting now answer)
    (hleft : answer.get? "expires_in_ns" = some left) :
    ∃ d, setting.expiry? = some d ∧ d ≠ 0 := by
  have hne : setting.expiry?.getD 0 ≠ 0 := fun hzero ↦ by
    rw [h.absent hzero] at hleft
    contradiction
  cases hexpiry : setting.expiry? with
  | none =>
    rw [hexpiry] at hne
    contradiction
  | some d =>
    rw [hexpiry] at hne
    exact ⟨d, rfl, hne⟩

/-- While nothing sets the lifetime, what is left of it does not grow. -/
theorem left_le_of_gives (hstart : s.provider.store.document? place = none)
    (htimes : run.Pairwise fun event later ↦ event.now ≤ later.now) {i' now now' : Nat}
    {o o' : Options.Read} {answer answer' : Json} {left' : UInt64} (hle : i ≤ i')
    (hgives : Gives ⟨backend policy, tokens⟩ s run i now place.collection (.get place.id o) answer)
    (hgives' : Gives ⟨backend policy, tokens⟩ s run i' now' place.collection (.get place.id o')
      answer')
    (hexpiry : o.withExpiry = true) (hexpiry' : o'.withExpiry = true)
    (hnone : ∀ m setting, i ≤ m → m < i' → ¬ Sets policy tokens s run place m setting)
    (hleft' : answer'.get? "expires_in_ns" = some (.ofUInt64 left')) :
    ∃ left, answer.get? "expires_in_ns" = some (.ofUInt64 left) ∧ left' ≤ left := by
  obtain ⟨j, setting, hlast, hreports⟩ := reports_of_gives hstart htimes hexpiry hgives
  obtain ⟨j', setting', hlast', hreports'⟩ := reports_of_gives hstart htimes hexpiry' hgives'
  obtain rfl := hlast.unique hlast' hle hnone
  have hnow : now ≤ now' := by
    obtain ⟨n, q, hevent, -⟩ := hgives.elim
    obtain ⟨n', q', hevent', -⟩ := hgives'.elim
    exact now_le_of_le htimes hevent hevent' hle
  obtain ⟨d, hd, hne⟩ := hreports'.exists_lifetime hleft'
  obtain ⟨left, hleft, hset, hsum, -⟩ := hreports.left d hd hne
  obtain ⟨left₁, hleft₁, -, hsum', -⟩ := hreports'.left d hd hne
  have hsame := congrArg Json.toUInt64? (Option.some.inj (hleft'.symm.trans hleft₁))
  rw [Json.toUInt64?_ofUInt64, Json.toUInt64?_ofUInt64] at hsame
  obtain rfl := Option.some.inj hsame
  refine ⟨left, hleft, UInt64.le_iff_toNat_le.2 ?_⟩
  omega

/-- The remaining lifetime that reads report is exact. Take any run of a service on a new store in
which time does not go back. A read that asks for the lifetime and succeeds reports what is left of
the one that was set last, by the last write or touch of the document that succeeded: the lifetime
that its request asked for less the time since, which is positive, no more than the lifetime and a
number of 64 bits, or nothing if no lifetime was asked for or one of zero. A read that touches
reports the lifetime that it sets itself, or nothing for zero; a read that locks, or that does not
ask, reports none. While nothing sets the lifetime, what reads report of it does not grow. -/
theorem lifetimes_reported (policy : Policy) (tokens : Nat → String) (engine : Rpc.Engine)
    (settings : Settings) (run : List Event)
    (htimes : run.Pairwise fun event later ↦ event.now ≤ later.now) (place : Place) :
    let g : Ground Store Collection := ⟨backend policy, tokens⟩
    let s := idle engine (Provider.create settings .empty)
    let k := place.collection
    (∀ i now o answer, Gives g s run i now k (.get place.id o) answer →
      (o.withExpiry = true → ∃ j setting, LastSets policy tokens s run place i j setting ∧
        Reports setting now answer) ∧
      (o.withExpiry = false → answer.get? "expires_in_ns" = none)) ∧
    (∀ i now o answer, Gives g s run i now k (.getAndTouch place.id o) answer →
      answer.get? "expires_in_ns" = if o.expiry = 0 then none else some (.ofUInt64 o.expiry)) ∧
    (∀ i now o answer, Gives g s run i now k (.getAndLock place.id o) answer →
      answer.get? "expires_in_ns" = none) ∧
    ∀ i i' now now' o o' answer answer' left', i ≤ i' →
      Gives g s run i now k (.get place.id o) answer →
      Gives g s run i' now' k (.get place.id o') answer' →
      o.withExpiry = true → o'.withExpiry = true →
      (∀ m setting, i ≤ m → m < i' → ¬ Sets policy tokens s run place m setting) →
      answer'.get? "expires_in_ns" = some (.ofUInt64 left') →
      ∃ left, answer.get? "expires_in_ns" = some (.ofUInt64 left) ∧ left' ≤ left := by
  intro g s k
  have hstart : s.provider.store.document? place = none := rfl
  refine ⟨fun i now o answer hgives ↦
    ⟨fun hexpiry ↦ reports_of_gives hstart htimes hexpiry hgives, fun hexpiry ↦ ?_⟩, ?_, ?_, ?_⟩
  · obtain ⟨n, q, -, hq, hgets⟩ := hgives.elim
    obtain ⟨e, -, -, hanswer⟩ := Provider.remaining_of_get hq hgets
    rw [hanswer, hexpiry]
    rfl
  · intro i now o answer hgives
    obtain ⟨n, q, -, hq, hgets⟩ := hgives.elim
    exact Provider.remaining_of_getAndTouch hq hgets
  · intro i now o answer hgives
    obtain ⟨n, q, -, hq, hgets⟩ := hgives.elim
    exact Provider.remaining_of_getAndLock hq hgets
  · intro i i' now now' o o' answer answer' left' hle hgives hgives' hexpiry hexpiry' hnone
    exact left_le_of_gives hstart htimes hle hgives hgives' hexpiry hexpiry' hnone

/-- A document is inserted, replaced or touched with a lifetime. -/
def settingRequest (id : UInt64) (method : String) (lifetime : UInt64) : Rpc.Request :=
  ⟨id, method, some (.object [("document", .object [("raw", .text "x")]), ("id", .text "a"),
    ("options", .object [("expires_in_ns", .ofUInt64 lifetime)])]), Provider.callerHeaders⟩

/-- A document is read with what remains of its lifetime. -/
def expiryRequest (id : UInt64) : Rpc.Request :=
  ⟨id, "document.get", some (.object [("id", .text "a"),
    ("options", .object [("with_expiry", .bool true)])]), Provider.callerHeaders⟩

/-- A caller is linked, inserts a document with a lifetime of a hundred, replaces it with one of
fifty and touches it with one of thirty, and reads it some time after each. -/
def spendRun : List Event :=
  [.inbound (.request Provider.linkRequest) 0, .proceed 0 0, .proceed 0 0,
    .inbound (.request (settingRequest 2 "document.insert" 100)) 1,
    .inbound (.request (expiryRequest 3)) 1, .proceed 0 1, .proceed 1 6,
    .inbound (.request (settingRequest 4 "document.replace" 50)) 6,
    .inbound (.request (expiryRequest 5)) 7, .proceed 2 10, .proceed 3 20,
    .inbound (.request (settingRequest 6 "document.touch" 30)) 20,
    .inbound (.request (expiryRequest 7)) 25, .proceed 4 30, .proceed 5 59]

/-- A ground of the store alone. -/
def plain : Ground Store Collection :=
  ⟨backend {}, fun _ ↦ ""⟩

/-- The service that this run starts from. -/
def unspent : Service Store Collection :=
  idle {} (Provider.create {} .empty)

theorem lifetimes_reported_spendRun :
    let k : Collection := ⟨⟨"h", "b"⟩, .default⟩
    let result : UInt64 → UInt64 → Json := fun cas left ↦
      ReadResult.toJson ⟨.raw "x", cas, some left⟩
    let reads : Nat → Nat → Nat → UInt64 → Json → Prop := fun i set now lifetime answer ↦
      Gives plain unspent spendRun i now k (.get "a" { withExpiry := true }) answer ∧
        ∃ j, LastSets {} (fun _ ↦ "") unspent spendRun ⟨k, "a"⟩ i j ⟨⟨k, "a"⟩, set, some lifetime⟩ ∧
          Reports ⟨⟨k, "a"⟩, set, some lifetime⟩ now answer
    spendRun.Pairwise (fun event later ↦ event.now ≤ later.now) ∧
      reads 6 1 6 100 (result 2 95) ∧ reads 10 10 20 50 (result 3 40) ∧
      reads 14 30 59 30 (result 4 1) := by
  intro k result reads
  have htimes : spendRun.Pairwise fun event later ↦ event.now ≤ later.now := by decide
  have hreads := (lifetimes_reported {} (fun _ ↦ "") {} {} spendRun htimes ⟨k, "a"⟩).1
  have hread {j now set : Nat} {lifetime : UInt64} {answer : Json}
      (hgives : Gives plain unspent spendRun (j + 1) now k (.get "a" { withExpiry := true }) answer)
      (hsets : Sets {} (fun _ ↦ "") unspent spendRun ⟨k, "a"⟩ j ⟨⟨k, "a"⟩, set, some lifetime⟩) :
      reads (j + 1) set now lifetime answer := by
    obtain ⟨j', setting, hlast, hreports⟩ := (hreads _ _ _ _ hgives).1 rfl
    obtain rfl := hlast.unique hsets.lastSets (Nat.le_refl _) fun m _ hle hlt ↦
      absurd hlt (Nat.not_lt.2 hle)
    exact ⟨hgives, j', hlast, hreports⟩
  refine ⟨htimes, hread ?_ ⟨_, rfl, rfl, rfl, rfl⟩, hread ?_ ⟨_, rfl, rfl, rfl, rfl⟩,
    hread ?_ ⟨_, rfl, rfl, rfl, rfl⟩⟩
  · exact gives_of_addressed? (n := 1) (q := expiryRequest 3) rfl rfl rfl rfl
  · exact gives_of_addressed? (n := 3) (q := expiryRequest 5) rfl rfl rfl rfl
  · exact gives_of_addressed? (n := 5) (q := expiryRequest 7) rfl rfl rfl rfl

end Service
end Depot
