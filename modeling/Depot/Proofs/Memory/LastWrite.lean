import Depot.Proofs.Memory.Address

/-!
# Reads return the last write

What a read answers can be told from the history alone. The last event at a place that wrote or
removed the document says whether there is one and with which content; the last one that gave it a
lifetime says until when; the last one that gave it a version says with which. `map_content_replay`
and `exists_latest?` say so for any list of events, by induction from the last of them back, and
`get_returns_last_write` for the history of a store with all its callers, however their links came
to lead to one collection.
-/

set_option autoImplicit false
set_option relaxedAutoImplicit false

namespace Depot.Memory

namespace Deed

/-- The content that a deed wrote. -/
def content? : Deed → Option Bytes
  | wrote content _ _ => some content
  | _ => none

/-- The lifetime that a deed asked for; zero asks for none. -/
def expiry? : Deed → Option Nat
  | wrote _ expiry? _ => expiry?
  | touched expiry _ => some expiry
  | _ => none

/-- The deed wrote or removed the document. -/
def settlesContent : Deed → Bool
  | wrote .. => true
  | removed _ => true
  | _ => false

/-- The deed wrote or touched the document. -/
def settlesLifetime : Deed → Bool
  | wrote .. => true
  | touched .. => true
  | _ => false

/-- The deed wrote, touched or locked the document. -/
def settlesVersion : Deed → Bool
  | wrote .. => true
  | touched .. => true
  | locked .. => true
  | _ => false

variable {d : Deed} {now : Nat} {e? : Option Entry}

theorem map_content_apply_of_settles (h : d.settlesContent = true) :
    (d.apply now e?).map Entry.content = d.content? := by
  cases d with
  | wrote content expiry? cas => rfl
  | removed cas => rfl
  | _ => cases h

theorem map_content_apply_of_not_settles (h : d.settlesContent = false) :
    (d.apply now e?).map Entry.content = e?.map Entry.content := by
  cases d with
  | looked => rfl
  | wrote content expiry? cas => cases h
  | removed cas => cases h
  | _ =>
    rw [apply, Option.map_map]
    rfl

theorem expiresAt?_of_settles {e : Entry} (h : d.settlesLifetime = true)
    (happly : d.apply now e? = some e) : e.expiresAt? = deadline? now d.expiry? := by
  cases d with
  | wrote content expiry? cas =>
    cases happly
    rfl
  | touched expiry cas =>
    obtain ⟨old, _, rfl⟩ := Option.map_eq_some_iff.1 happly
    rfl
  | _ => cases h

/-- Whatever is there after a deed that sets no lifetime was there before, with its content and its
deadline. -/
theorem kept_of_not_settles {e : Entry} (h : d.settlesLifetime = false)
    (happly : d.apply now e? = some e) :
    ∃ old, e? = some old ∧ old.content = e.content ∧ old.expiresAt? = e.expiresAt? := by
  cases d with
  | looked => exact ⟨e, happly, rfl, rfl⟩
  | wrote content expiry? cas => cases h
  | touched expiry cas => cases h
  | removed cas => cases happly
  | _ =>
    obtain ⟨old, hold, rfl⟩ := Option.map_eq_some_iff.1 happly
    exact ⟨old, hold, rfl, rfl⟩

end Deed

namespace Event

/-- The last event at a place whose deed counts. -/
def latest? (counts : Deed → Bool) (place : Place) (events : List Event) : Option Event :=
  events.reverse.find? fun event ↦ decide (event.place = place) && counts event.deed

/-- The lifetime that the event set has not ended at a time: there is none, it is zero, or it ends
later. -/
def Outlasts (event : Event) (time : Nat) : Prop :=
  ∀ span, event.deed.expiry? = some span → span ≠ 0 → time < event.now + span

variable {place : Place} {events : List Event} {event : Event} {counts : Deed → Bool}

theorem latest?_append_of_counts (hat : event.place = place) (hcounts : counts event.deed = true) :
    latest? counts place (events ++ [event]) = some event := by
  simp [latest?, hat, hcounts]

theorem latest?_append_of_not_counts (h : counts event.deed = false) :
    latest? counts place (events ++ [event]) = latest? counts place events := by
  simp [latest?, h]

theorem latest?_append_of_elsewhere (hat : event.place ≠ place) :
    latest? counts place (events ++ [event]) = latest? counts place events := by
  simp [latest?, hat]

theorem replay_append (e? : Option Entry) :
    replay place (events ++ [event]) e? = apply place (replay place events e?) event := by
  rw [replay, List.foldl_append]
  rfl

/-- The content at a place is what the last event that settles it wrote, if it wrote any. -/
theorem map_content_replay (place : Place) (events : List Event) :
    (replay place events none).map Entry.content =
      (latest? Deed.settlesContent place events).bind (·.deed.content?) := by
  -- by induction from the last event back, since that is how the latest of them is found
  obtain ⟨past, rfl⟩ : ∃ past : List Event, events = past.reverse := ⟨events.reverse, by simp⟩
  induction past with
  | nil => rfl
  | cons event past ih =>
    rw [List.reverse_cons, replay_append, apply]
    by_cases hat : event.place = place
    · rw [if_pos hat]
      cases hsettles : event.deed.settlesContent with
      | true =>
        rw [latest?_append_of_counts hat hsettles]
        exact Deed.map_content_apply_of_settles hsettles
      | false =>
        rw [latest?_append_of_not_counts hsettles, ← ih]
        exact Deed.map_content_apply_of_not_settles hsettles
    · rw [if_neg hat, latest?_append_of_elsewhere hat]
      exact ih

/-- The content is that of the last write, and nothing was removed since. -/
theorem exists_latest?_content {e : Entry} (he : replay place events none = some e) :
    ∃ event, latest? Deed.settlesContent place events = some event ∧
      event.deed.content? = some e.content := by
  have hcontent := map_content_replay place events
  rw [he] at hcontent
  exact Option.bind_eq_some_iff.1 hcontent.symm

/-- Where there is nothing, nothing was written, or it was removed since. -/
theorem latest?_of_absent (hnone : replay place events none = none) :
    (latest? Deed.settlesContent place events).bind (·.deed.content?) = none := by
  rw [← map_content_replay, hnone]
  rfl

/-- What of a document some deeds set and the others keep is what the latest of those deeds set it
to. -/
theorem exists_latest? {α : Type} (of : Entry → α) (set : Deed → Nat → Option α)
    (hset : ∀ (d : Deed) now e? e, counts d = true → d.apply now e? = some e →
      set d now = some (of e))
    (hkept : ∀ (d : Deed) now e? e, counts d = false → d.apply now e? = some e →
      ∃ old, e? = some old ∧ of old = of e)
    {e : Entry} (he : replay place events none = some e) :
    ∃ event, latest? counts place events = some event ∧ set event.deed event.now = some (of e) := by
  obtain ⟨past, rfl⟩ : ∃ past : List Event, events = past.reverse := ⟨events.reverse, by simp⟩
  induction past generalizing e with
  | nil => cases he
  | cons event past ih =>
    rw [List.reverse_cons, replay_append, apply] at he
    rw [List.reverse_cons]
    by_cases hat : event.place = place
    · rw [if_pos hat] at he
      cases hcounts : counts event.deed with
      | true =>
        exact ⟨event, latest?_append_of_counts hat hcounts, hset _ _ _ e hcounts he⟩
      | false =>
        obtain ⟨old, hold, hsame⟩ := hkept _ _ _ e hcounts he
        rw [latest?_append_of_not_counts hcounts, ← hsame]
        exact ih hold
    · rw [if_neg hat] at he
      rw [latest?_append_of_elsewhere hat]
      exact ih he

/-- The deadline is the end of the lifetime that was set last. -/
theorem exists_latest?_lifetime {e : Entry} (he : replay place events none = some e) :
    ∃ event, latest? Deed.settlesLifetime place events = some event ∧
      e.expiresAt? = deadline? event.now event.deed.expiry? := by
  obtain ⟨event, hevent, hdeadline⟩ :=
    exists_latest? Entry.expiresAt? (fun d now ↦ some (deadline? now d.expiry?))
      (fun _ _ _ _ hcounts happly ↦ congrArg some (Deed.expiresAt?_of_settles hcounts happly).symm)
      (fun _ _ _ _ hcounts happly ↦
        let ⟨old, hold, _, hsame⟩ := Deed.kept_of_not_settles hcounts happly
        ⟨old, hold, hsame⟩) he
  exact ⟨event, hevent, (Option.some.inj hdeadline).symm⟩

/-- The version is the one that was given last. -/
theorem exists_latest?_version {e : Entry} (he : replay place events none = some e) :
    ∃ event, latest? Deed.settlesVersion place events = some event ∧
      event.deed.version? = some e.cas := by
  refine exists_latest? Entry.cas (fun d _ ↦ d.version?) ?_ ?_ he
  · intro d now e? e hcounts happly
    cases d with
    | wrote content expiry? cas =>
      cases happly
      rfl
    | touched expiry cas =>
      obtain ⟨old, _, rfl⟩ := Option.map_eq_some_iff.1 happly
      rfl
    | locked time cas =>
      obtain ⟨old, _, rfl⟩ := Option.map_eq_some_iff.1 happly
      rfl
    | _ => cases hcounts
  · intro d now e? e hcounts happly
    cases d with
    | looked => exact ⟨e, happly, rfl⟩
    | unlocked =>
      obtain ⟨old, hold, rfl⟩ := Option.map_eq_some_iff.1 happly
      exact ⟨old, hold, rfl⟩
    | removed cas => cases happly
    | _ => cases hcounts

end Event

/-- A document whose deadline was set by an event is live as long as the event's lifetime lasts. -/
theorem isExpired_iff_outlasts {e : Entry} {event : Event} {now : Nat}
    (h : e.expiresAt? = deadline? event.now event.deed.expiry?) :
    e.isExpired now = false ↔ event.Outlasts now := by
  unfold Entry.isExpired Event.Outlasts
  rw [h]
  cases event.deed.expiry? with
  | none => simp [deadline?]
  | some span =>
    by_cases hzero : span = 0
    · simp [deadline?, hzero, Option.filter_some]
    · simp [deadline?_of_ne_zero hzero, hzero]

namespace Hub

variable {p : Policy} {h : Hub}

/-- The history says that there is a document at a place at a time: the last event that wrote or
removed it is a write, and the lifetime that was set last has not ended. -/
def Readable (place : Place) (events : List Event) (now : Nat) : Prop :=
  (∃ write content, Event.latest? Deed.settlesContent place events = some write ∧
    write.deed.content? = some content) ∧
  ∃ setting, Event.latest? Deed.settlesLifetime place events = some setting ∧ setting.Outlasts now

/-- A document is live in a store with a history when the history says so. -/
theorem live?_history (now : Nat) {place : Place} {events : List Event}
    (hreplay : h.store.document? place = Event.replay place events none) :
    (Readable place events now → ∃ e, h.store.live? place now = some e) ∧
      ∀ e, h.store.live? place now = some e → Readable place events now ∧
        (∃ write, Event.latest? Deed.settlesContent place events = some write ∧
          write.deed.content? = some e.content) ∧
        ∃ giving, Event.latest? Deed.settlesVersion place events = some giving ∧
          giving.deed.version? = some e.cas := by
  constructor
  · rintro ⟨⟨write, content, hwrite, hcontent⟩, setting, hsetting, houtlasts⟩
    cases he : Event.replay place events none with
    | none =>
      have hnone := Event.latest?_of_absent he
      rw [hwrite] at hnone
      exact absurd (hcontent.symm.trans hnone) (by simp)
    | some e =>
      obtain ⟨setting', hsetting', hdeadline⟩ := Event.exists_latest?_lifetime he
      obtain rfl := Option.some.inj (hsetting.symm.trans hsetting')
      refine ⟨e, Store.live?_eq_some_iff.2 ⟨hreplay.trans he, ?_⟩⟩
      exact (isExpired_iff_outlasts hdeadline).2 houtlasts
  · intro e he
    obtain ⟨hdocument, hlive⟩ := Store.live?_eq_some_iff.1 he
    have hentry := hreplay.symm.trans hdocument
    obtain ⟨write, hwrite, hcontent⟩ := Event.exists_latest?_content hentry
    obtain ⟨setting, hsetting, hdeadline⟩ := Event.exists_latest?_lifetime hentry
    refine ⟨⟨⟨write, e.content, hwrite, hcontent⟩, setting, hsetting, ?_⟩,
      ⟨write, hwrite, hcontent⟩, Event.exists_latest?_version hentry⟩
    exact (isExpired_iff_outlasts hdeadline).1 hlive

/-- Links lead where their arguments say, in any store that callers have reached. -/
theorem live_of_leads (hlinked : h.Linked p) {link : Nat} {args : Link.Args}
    {connection : Connection Collection} {k : Collection}
    (hlink : h.links[link]? = some (args, connection)) (hleads : Store.Leads args k)
    (haccepts : p.accepts args = true) (hreaches : p.reaches k.site.host = true) :
    connection = .live k := by
  refine (hlinked.live_iff args connection k (List.mem_of_getElem? hlink)).2
    ⟨?_, haccepts, hreaches⟩
  exact Store.collectionOf?_eq_some_iff.2 hleads

/-- The events at a place are the answered calls over the links whose arguments lead there. -/
theorem event?_iff_leads (hlinked : h.Linked p) {action : Action} {k : Collection} {id : String}
    {now : Nat} {d : Deed} :
    h.event? p action = some ⟨⟨k, id⟩, now, d⟩ ↔ ∃ link c a args connection,
      action = .call link now c ∧ c.id = id ∧ h.links[link]? = some (args, connection) ∧
      Store.Leads args k ∧ h.answer? p link now c = some (.answer a) ∧ d = .of c a := by
  have hleads : ∀ (link : Nat) args (k' : Collection), h.links[link]? = some (args, .live k') →
      Store.Leads args k' := by
    intro link args k' hl
    have hlive := (hlinked.live_iff args _ k' (List.mem_of_getElem? hl)).1 rfl
    exact Store.collectionOf?_eq_some_iff.1 hlive.1
  constructor
  · intro hevent
    cases action with
    | connect args => cases hevent
    | call link now' c =>
      obtain ⟨place, a, hplace, hanswer, heq⟩ := event?_call_eq_some_iff.1 hevent
      cases heq
      obtain ⟨args, hl, hid⟩ := place?_eq_some_iff.1 hplace
      exact ⟨link, c, a, args, _, rfl, hid.symm, hl, hleads link args k hl, hanswer, rfl⟩
  · rintro ⟨link, c, a, args, connection, rfl, rfl, hl, hk, hanswer, rfl⟩
    obtain ⟨place, _, _, hplace, _⟩ := bucket_of_answer? hanswer
    obtain ⟨args', hl', hid⟩ := place?_eq_some_iff.1 hplace
    cases hl.symm.trans hl'
    have hsame := Store.collectionOf?_eq_some_iff.2 (hleads link args _ hl')
    rw [Store.collectionOf?_eq_some_iff.2 hk] at hsame
    refine event?_call_eq_some_iff.2 ⟨place, a, hplace, hanswer, ?_⟩
    obtain ⟨k', id⟩ := place
    cases hsame
    cases hid
    rfl

/-- A read without projection finds the document that is live at its place, and no other. -/
theorem answer?_get (hlinked : h.Linked p) (now : Nat) {link : Nat} {id : String}
    {o : ReadOptions} {place : Place} (hplace : h.place? link id = some place)
    (hproject : o.project = []) :
    (∀ e, h.store.live? place now = some e → ∃ r,
      h.answer? p link now (.get id o) = some (.answer r) ∧ r.content = e.content ∧
        r.cas = e.cas) ∧
    (h.store.live? place now = none →
      h.answer? p link now (.get id o) = some (.fault .documentNotFound)) := by
  constructor
  · intro e he
    obtain ⟨r, hr, hanswers⟩ := answersOn_of_live? (p := p) (c := .get id o) hplace he
    have hrefusal : (Call.get id o).refusal? e (e.isLocked now) = none := if_pos hproject
    rw [Call.answersOn_of_none hrefusal] at hanswers
    obtain ⟨reading, rfl, hcas, hcontent⟩ := hanswers
    exact ⟨reading, hr, hcontent hproject, hcas⟩
  · intro hnone
    obtain ⟨b, hb⟩ := hlinked.bucket_of_place? hplace
    have habsent : b.live? ⟨place.collection.keyspace, id⟩ now = none := by
      rw [← location_of_place? hplace, ← Store.live?_of_bucket hb, hnone]
    have hstep : b.step place.collection.keyspace now (.get id o) = .error .documentNotFound :=
      Bucket.step_of_absent (c := .get id o) habsent
    rw [answer?_of_bucket (c := .get id o) hplace hb, hstep]
    rfl

/-- Reads return the last write, over whatever link. After any run on a new store, take a link whose
arguments lead to a collection that can be reached. The events at a place of this collection are the
answered calls over all the links that lead there, whenever they were connected. A read without
projection is answered exactly when the last of these events that wrote or removed the document is a
write and the lifetime that was set last has not ended; then the content is that of this write and
the version the one that was given last. Otherwise the document is not found. -/
theorem get_returns_last_write (p : Policy) (run : List Action) {link : Nat} {args : Link.Args}
    {connection : Connection Collection} {k : Collection}
    (hlink : (empty.after p run).links[link]? = some (args, connection))
    (hleads : Store.Leads args k) (haccepts : p.accepts args = true)
    (hreaches : p.reaches k.site.host = true) (id : String) (now : Nat) {o : ReadOptions}
    (hproject : o.project = []) :
    (∀ i action time d, run[i]? = some action →
      ((empty.before p run i).event? p action = some ⟨⟨k, id⟩, time, d⟩ ↔
        ∃ link' c a args' connection', action = .call link' time c ∧ c.id = id ∧
          (empty.before p run i).links[link']? = some (args', connection') ∧
          Store.Leads args' k ∧
          (empty.before p run i).answer? p link' time c = some (.answer a) ∧ d = .of c a)) ∧
    (Readable ⟨k, id⟩ (empty.history p run) now →
      ∃ r write giving, (empty.after p run).answer? p link now (.get id o) = some (.answer r) ∧
        Event.latest? Deed.settlesContent ⟨k, id⟩ (empty.history p run) = some write ∧
        write.deed.content? = some r.content ∧
        Event.latest? Deed.settlesVersion ⟨k, id⟩ (empty.history p run) = some giving ∧
        giving.deed.version? = some r.cas) ∧
    (¬ Readable ⟨k, id⟩ (empty.history p run) now →
      (empty.after p run).answer? p link now (.get id o) = some (.fault .documentNotFound)) := by
  have hlinked := (linked_empty p).after run
  have hlive := live_of_leads hlinked hlink hleads haccepts hreaches
  subst hlive
  have hplace : (empty.after p run).place? link id = some ⟨k, id⟩ :=
    place?_eq_some_iff.2 ⟨args, hlink, rfl⟩
  have hreplay : (empty.after p run).store.document? ⟨k, id⟩ =
      Event.replay ⟨k, id⟩ (empty.history p run) none := document?_history p empty run ⟨k, id⟩
  obtain ⟨hreadable, hfound⟩ := live?_history now hreplay
  obtain ⟨hanswered, habsent⟩ := answer?_get hlinked now hplace hproject
  refine ⟨fun i action time d _ ↦ ?_, fun hyes ↦ ?_, fun hno ↦ habsent ?_⟩
  · exact event?_iff_leads ((linked_empty p).after (run.take i))
  · obtain ⟨e, he⟩ := hreadable hyes
    obtain ⟨_, ⟨write, hwrite, hcontent⟩, giving, hgiving, hversion⟩ := hfound e he
    obtain ⟨r, hr, hrcontent, hrcas⟩ := hanswered e he
    rw [← hrcontent] at hcontent
    rw [← hrcas] at hversion
    exact ⟨r, write, giving, hr, hwrite, hcontent, hgiving, hversion⟩
  · cases he : (empty.after p run).store.live? ⟨k, id⟩ now with
    | none => rfl
    | some e => exact absurd (hfound e he).1 hno

/-- Two links that lead to one collection by different connection strings, the second with a scope
that names nothing without a collection: the first inserts the numeral 41, the second touches it,
and the first counts it up. -/
def insertTouchCount : List Action :=
  [.connect ⟨"u", "", "x", "couchbase://h", none, none⟩,
    .connect ⟨"v", "", "x", "cb://h/y?z", some "s", none⟩,
    .call 0 0 (.insert "a" [52, 49] { expiry? := some 5 }), .call 1 4 (.touch "a" 50 none),
    .call 0 6 (.increment "a" { delta := 1, expiry? := some 30 })]

theorem get_returns_last_write_insertTouchCount :
    (empty.after {} insertTouchCount).links[1]? =
        some (⟨"v", "", "x", "cb://h/y?z", some "s", none⟩, .live ⟨⟨"h", "x"⟩, .default⟩) ∧
      Store.Leads ⟨"v", "", "x", "cb://h/y?z", some "s", none⟩ ⟨⟨"h", "x"⟩, .default⟩ ∧
      Policy.accepts {} ⟨"v", "", "x", "cb://h/y?z", some "s", none⟩ = true ∧
      Policy.reaches {} "h" = true ∧
      Readable ⟨⟨⟨"h", "x"⟩, .default⟩, "a"⟩ (empty.history {} insertTouchCount) 20 ∧
      ∃ r, (empty.after {} insertTouchCount).answer? {} 1 20 (.get "a" {}) = some (.answer r) ∧
        r.content = [52, 50] ∧ r.cas = 4 := by
  have hlink : (empty.after {} insertTouchCount).links[1]? =
      some (⟨"v", "", "x", "cb://h/y?z", some "s", none⟩, .live ⟨⟨"h", "x"⟩, .default⟩) := rfl
  have hleads : Store.Leads ⟨"v", "", "x", "cb://h/y?z", some "s", none⟩
      ⟨⟨"h", "x"⟩, .default⟩ := Store.collectionOf?_eq_some_iff.1 rfl
  have hreadable :
      Readable ⟨⟨⟨"h", "x"⟩, .default⟩, "a"⟩ (empty.history {} insertTouchCount) 20 := by
    refine ⟨⟨_, _, rfl, rfl⟩, _, rfl, fun span hspan _ ↦ ?_⟩
    cases hspan
    decide
  obtain ⟨_, hyes, _⟩ :=
    get_returns_last_write {} insertTouchCount hlink hleads rfl rfl "a" 20 (o := {}) rfl
  obtain ⟨r, write, giving, hr, hwrite, hcontent, hgiving, hcas⟩ := hyes hreadable
  -- the increment was the last to write the document and the last to give it a version
  cases hwrite
  cases hgiving
  exact ⟨hlink, hleads, rfl, rfl, hreadable, r, hr, (Option.some.inj hcontent).symm,
    (Option.some.inj hcas).symm⟩

end Hub
end Depot.Memory
