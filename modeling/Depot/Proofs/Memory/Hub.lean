import Depot.Proofs.Memory.Answer
import Depot.Proofs.Memory.Trace
import Depot.Proofs.Memory.Untouched

/-!
# A store and its callers

A `Hub` is a store with the links that callers have connected to it; an `Action` connects a link or
makes a call over one. A link that could be connected leads to a collection, and a call over it is
about one document of that collection, which has a `Place` in the whole store. What an answered call
did, and when, is an `Event`, and what is at a place after a run is the replay of the events at that
place (`document?_history`). Connecting changes no document, and the clock of a bucket counts the
versions that its events gave.
-/

set_option autoImplicit false
set_option relaxedAutoImplicit false

namespace Depot.Memory

/-- Where a document is in a store. -/
structure Place where
  collection : Collection
  id : String
  deriving DecidableEq, Repr

def Place.site (place : Place) : Site := place.collection.site

/-- Where a document is in its bucket. -/
def Place.location (place : Place) : Location := ⟨place.collection.keyspace, place.id⟩

theorem Place.ext_of_location {place other : Place} (hsite : place.site = other.site)
    (hlocation : place.location = other.location) : place = other := by
  obtain ⟨⟨site, keyspace⟩, id⟩ := place
  obtain ⟨⟨site', keyspace'⟩, id'⟩ := other
  cases hsite
  cases hlocation
  rfl

/-- What an answered call did to a document, and when. -/
structure Event where
  place : Place
  now : Nat
  deed : Deed
  deriving DecidableEq, Repr

namespace Event

/-- What becomes of the document at a place under an event. -/
def apply (place : Place) (e? : Option Entry) (event : Event) : Option Entry :=
  if event.place = place then event.deed.apply event.now e? else e?

/-- What becomes of the document at a place under one event after another. -/
def replay (place : Place) (events : List Event) (e? : Option Entry) : Option Entry :=
  events.foldl (apply place) e?

/-- Whether an event gave a version of the bucket at a site. -/
def drawsAt (site : Site) (event : Event) : Bool :=
  decide (event.place.site = site) && event.deed.version?.isSome

end Event

/-- What a caller does with a store: it connects a link, or makes a call over the link that was
connected as the given one. -/
inductive Action where
  | connect (args : Link.Args)
  | call (link : Nat) (now : Nat) (c : Call)

/-- The time of a call. -/
def Action.now? : Action → Option Nat
  | connect _ => none
  | call _ now _ => some now

/-- A store with the links that were connected to it, in their order. -/
structure Hub where
  store : Store
  links : List (Link.Args × Connection Collection)

namespace Store

/-- What is at a place, also after its deadline. -/
def document? (s : Store) (place : Place) : Option Entry :=
  (s.get? place.site).bind fun b ↦ b.documents.get? place.location

/-- The document at a place, unless its deadline has come. -/
def live? (s : Store) (place : Place) (now : Nat) : Option Entry :=
  (s.document? place).filter fun e ↦ !e.isExpired now

/-- The collection that a link leads to, if its connection string can be read. -/
def collectionOf? (args : Link.Args) : Option Collection :=
  (Address.host? args.connection).map fun host ↦
    ⟨⟨host, args.bucket⟩, .ofNames args.keyspace?⟩

end Store

namespace Hub

/-- A store to which nobody is connected yet. -/
def empty : Hub := ⟨.empty, []⟩

/-- The place of a document behind a link, if the link leads to a collection that can be reached. -/
def place? (h : Hub) (link : Nat) (id : String) : Option Place :=
  match h.links[link]? with
  | some (_, .live k) => some ⟨k, id⟩
  | _ => none

variable (p : Policy)

/-- What a call over a link comes to. -/
def answer? (h : Hub) (link now : Nat) (c : Call) : Option (Attempt c.Answer) :=
  h.links[link]?.map fun l ↦ ((backend p).perform l.2 now c h.store).1

def act (h : Hub) : Action → Hub
  | .connect args =>
    let (connection, store) := (backend p).establish args h.store
    ⟨store, h.links ++ [(args, connection)]⟩
  | .call link now c =>
    match h.links[link]? with
    | none => h
    | some l => { h with store := ((backend p).perform l.2 now c h.store).2 }

/-- What an action did, if it was a call that was answered. -/
def event? (h : Hub) : Action → Option Event
  | .connect _ => none
  | .call link now c =>
    match h.place? link c.id, h.answer? p link now c with
    | some place, some (.answer a) => some ⟨place, now, .of c a⟩
    | _, _ => none

/-- The hub after a run. -/
def after (h : Hub) (actions : List Action) : Hub := actions.foldl (act p) h

/-- The hub that step `i` of a run finds. -/
abbrev before (h : Hub) (actions : List Action) (i : Nat) : Hub := stateAt (act p) h actions i

/-- What was done in a run, in order. -/
def history (h : Hub) : List Action → List Event
  | [] => []
  | action :: rest => (h.event? p action).toList ++ (h.act p action).history rest

end Hub

/-! ## Connecting -/

namespace Store

variable {p : Policy} {s : Store}

theorem establish_of_ok {args : Link.Args} {o : Opened Collection} {s' : Store}
    (h : connect p args s = (.ok o, s')) :
    (backend p).establish args s = (o.connection, s') := by
  have hconnect : (backend p).connect args s = (.ok o, s') := h
  rw [Backend.establish, hconnect]

theorem establish_of_error {args : Link.Args} {f : Fault} {s' : Store}
    (h : connect p args s = (.error f, s')) :
    (backend p).establish args s = (.unavailable f.message, s') := by
  have hconnect : (backend p).connect args s = (.error f, s') := h
  rw [Backend.establish, hconnect]

/-- What connecting a link comes to. -/
theorem establish_cases (p : Policy) (args : Link.Args) (s : Store) :
    (∃ k, collectionOf? args = some k ∧ p.accepts args = true ∧
      (backend p).establish args s = ((opened p k.site k.keyspace).connection, ensure p k.site s)) ∨
    (collectionOf? args = none ∨ p.accepts args = false) ∧
      ∃ reason, (backend p).establish args s = (.unavailable reason, s) := by
  unfold collectionOf?
  cases hhost : Address.host? args.connection with
  | none => exact Or.inr ⟨Or.inl rfl, _, establish_of_error (by rw [connect, hhost])⟩
  | some host =>
    cases haccepts : p.accepts args with
    | true =>
      have hconnect : connect p args s =
          (.ok (opened p ⟨host, args.bucket⟩ (.ofNames args.keyspace?)),
            ensure p ⟨host, args.bucket⟩ s) := by
        simp only [connect, hhost, haccepts, if_true]
      exact Or.inl ⟨_, rfl, rfl, establish_of_ok hconnect⟩
    | false =>
      have hconnect : connect p args s = (.error .authentication, s) := by
        simp only [connect, hhost, haccepts, Bool.false_eq_true, if_false]
      exact Or.inr ⟨Or.inr rfl, _, establish_of_error hconnect⟩

theorem get?_ensure_of_some {site other : Site} {b : Bucket} (h : s.get? other = some b) :
    (ensure p site s).get? other = some b := by
  unfold ensure
  split
  · exact h
  · rename_i hnone
    have hne : site ≠ other := by
      rintro rfl
      exact hnone (by rw [Table.contains, h]; rfl)
    rw [Table.get?_insert_of_ne _ hne, h]

/-- A bucket that was not there before is new. -/
theorem get?_ensure {site other : Site} {b : Bucket} (h : (ensure p site s).get? other = some b) :
    s.get? other = some b ∨ s.get? other = none ∧ b.IsNew := by
  unfold ensure at h
  split at h
  · exact Or.inl h
  · rename_i hnone
    rw [Table.get?_insert] at h
    split at h
    · rename_i heq
      subst heq
      refine Or.inr ⟨?_, ⟨_, _, _, (Option.some.inj h).symm⟩⟩
      simpa [Table.contains] using hnone
    · exact Or.inl h

theorem get?_ensure_self (p : Policy) (site : Site) (s : Store) :
    ((ensure p site s).get? site).isSome := by
  unfold ensure
  split
  · rename_i hsome
    exact hsome
  · rw [Table.get?_insert_self]
    rfl

theorem document?_ensure (p : Policy) (site : Site) (s : Store) (place : Place) :
    (ensure p site s).document? place = s.document? place := by
  unfold document?
  cases hget : (ensure p site s).get? place.site with
  | none =>
    cases hold : s.get? place.site with
    | none => rfl
    | some b =>
      rw [get?_ensure_of_some hold] at hget
      cases hget
  | some b =>
    rcases get?_ensure hget with hold | ⟨hold, name, replicas, seed, rfl⟩
    · rw [hold]
    · rw [hold]
      rfl

/-! ## Documents in buckets -/

theorem document?_insert {site : Site} {b' : Bucket} {place : Place} :
    Store.document? (s.insert site b') place =
      if site = place.site then b'.documents.get? place.location else s.document? place := by
  unfold document?
  rw [Table.get?_insert]
  split <;> rfl

/-- What is at a place after the bucket of a document has answered a call on it. -/
theorem document?_of_step (at' : Place) {b b' : Bucket} {now : Nat} {c : Call} {a : c.Answer}
    (hb : s.get? at'.site = some b) (hid : at'.id = c.id)
    (hstep : b.step at'.collection.keyspace now c = .ok (a, b')) (place : Place) :
    Store.document? (s.insert at'.site b') place =
      Event.apply place (s.document? place) ⟨at', now, .of c a⟩ := by
  have hfollows := Bucket.follows_of_step hstep
  rw [← hid] at hfollows
  have hold : at'.site = place.site → s.document? place = b.documents.get? place.location := by
    intro hsite
    rw [Store.document?, ← hsite, hb]
    rfl
  rw [document?_insert]
  unfold Event.apply
  by_cases heq : at' = place
  · subst heq
    rw [if_pos rfl, if_pos rfl, hold rfl]
    exact hfollows.document
  · rw [if_neg heq]
    by_cases hsite : at'.site = place.site
    · rw [if_pos hsite, hold hsite]
      exact hfollows.others _ fun hlocation ↦ heq (Place.ext_of_location hsite hlocation)
    · rw [if_neg hsite]

theorem live?_eq_some_iff {place : Place} {now : Nat} {e : Entry} :
    s.live? place now = some e ↔ s.document? place = some e ∧ e.isExpired now = false := by
  simp [live?, Option.filter_eq_some_iff]

theorem live?_of_bucket {place : Place} {b : Bucket} (hb : s.get? place.site = some b) (now : Nat) :
    s.live? place now = b.live? place.location now := by
  rw [live?, document?, hb]
  rfl

end Store

namespace Hub

variable {p : Policy} {h : Hub}

theorem before_succ {run : List Action} {i : Nat} {action : Action}
    (haction : run[i]? = some action) :
    h.before p run (i + 1) = (h.before p run i).act p action := stateAt_succ (act p) h haction

theorem place?_eq_some_iff {link : Nat} {id : String} {place : Place} :
    h.place? link id = some place ↔
      ∃ args, h.links[link]? = some (args, .live place.collection) ∧ place.id = id := by
  obtain ⟨k, i⟩ := place
  unfold place?
  rcases h.links[link]? with _ | ⟨args, k' | reason⟩
  · simp
  · simp [eq_comm]
  · simp

theorem location_of_place? {link : Nat} {id : String} {place : Place}
    (hplace : h.place? link id = some place) :
    place.location = ⟨place.collection.keyspace, id⟩ := by
  obtain ⟨_, _, hid⟩ := place?_eq_some_iff.1 hplace
  rw [Place.location, hid]

theorem answer?_eq {link now : Nat} {c : Call} {l : Link.Args × Connection Collection}
    (hl : h.links[link]? = some l) {r : Attempt c.Answer} {s : Store}
    (hperform : (backend p).perform l.2 now c h.store = (r, s)) :
    h.answer? p link now c = some r := by
  rw [answer?, hl, Option.map_some, hperform]

theorem act_call {link now : Nat} {c : Call} {l : Link.Args × Connection Collection}
    (hl : h.links[link]? = some l) {r : Attempt c.Answer} {s : Store}
    (hperform : (backend p).perform l.2 now c h.store = (r, s)) :
    h.act p (.call link now c) = { h with store := s } := by
  rw [act, hl]
  simp only [hperform]

/-- What is answered over a link that leads to a bucket. -/
theorem answer?_of_bucket {link now : Nat} {c : Call} {place : Place} {b : Bucket}
    (hplace : h.place? link c.id = some place) (hb : h.store.get? place.site = some b) :
    h.answer? p link now c =
      some (.ofExcept ((b.step place.collection.keyspace now c).map Prod.fst)) := by
  obtain ⟨args, hl, _⟩ := place?_eq_some_iff.1 hplace
  cases hstep : b.step place.collection.keyspace now c with
  | error f => exact answer?_eq hl (Store.perform_of_step (Store.step_of_error hb hstep))
  | ok done => exact answer?_eq hl (Store.perform_of_step (Store.step_of_ok hb hstep))

/-- What a call on a live document comes to. -/
theorem answersOn_of_live? {link now : Nat} {c : Call} {place : Place} {e : Entry}
    (hplace : h.place? link c.id = some place) (he : h.store.live? place now = some e) :
    ∃ r, h.answer? p link now c = some r ∧ c.AnswersOn e (e.isLocked now) r := by
  have hentry := (Store.live?_eq_some_iff.1 he).1
  obtain ⟨b, hb, _⟩ := Option.bind_eq_some_iff.1 hentry
  rw [Store.live?_of_bucket hb, location_of_place? hplace] at he
  exact ⟨_, answer?_of_bucket hplace hb, Bucket.answersOn_of_live? he⟩

theorem event?_call_eq_some_iff {link now : Nat} {c : Call} {event : Event} :
    h.event? p (.call link now c) = some event ↔ ∃ place a, h.place? link c.id = some place ∧
      h.answer? p link now c = some (.answer a) ∧ ⟨place, now, .of c a⟩ = event := by
  constructor
  · intro hevent
    rw [event?] at hevent
    split at hevent
    · rename_i place a hplace hanswer
      exact ⟨place, a, hplace, hanswer, Option.some.inj hevent⟩
    · cases hevent
  · rintro ⟨place, a, hplace, hanswer, rfl⟩
    rw [event?, hplace, hanswer]

theorem event?_call_eq_none {link now : Nat} {c : Call}
    (h' : ∀ a, h.answer? p link now c ≠ some (.answer a)) :
    h.event? p (.call link now c) = none := by
  refine Option.eq_none_iff_forall_ne_some.2 fun event hevent ↦ ?_
  obtain ⟨_, a, _, hanswer, _⟩ := event?_call_eq_some_iff.1 hevent
  exact h' a hanswer

/-- A call does nothing, or it is answered by the bucket that its link leads to. -/
theorem act_call_cases (p : Policy) (h : Hub) (link now : Nat) (c : Call) :
    (∀ a, h.answer? p link now c ≠ some (.answer a)) ∧
        h.event? p (.call link now c) = none ∧ h.act p (.call link now c) = h ∨
      ∃ place b b' a, h.place? link c.id = some place ∧ h.store.get? place.site = some b ∧
        b.step place.collection.keyspace now c = .ok (a, b') ∧
        h.answer? p link now c = some (.answer a) ∧
        h.event? p (.call link now c) = some ⟨place, now, .of c a⟩ ∧
        h.act p (.call link now c) = { h with store := h.store.insert place.site b' } := by
  cases hl : h.links[link]? with
  | none =>
    have hanswer : ∀ a, h.answer? p link now c ≠ some (.answer a) := by
      intro a
      rw [answer?, hl]
      exact nofun
    exact Or.inl ⟨hanswer, event?_call_eq_none hanswer, by rw [act, hl]⟩
  | some l =>
    rcases Store.perform_cases p l.2 now c h.store with
      ⟨f, hperform⟩ | ⟨k, b, b', a, hlive, hb, hstep, hperform⟩
    · have hanswer : ∀ a, h.answer? p link now c ≠ some (.answer a) := by
        intro a
        rw [answer?_eq hl hperform]
        exact nofun
      exact Or.inl ⟨hanswer, event?_call_eq_none hanswer, act_call hl hperform⟩
    · have hanswer := answer?_eq hl hperform
      have hplace : h.place? link c.id = some ⟨k, c.id⟩ := by
        obtain ⟨args, connection⟩ := l
        obtain rfl : connection = .live k := hlive
        rw [place?, hl]
      have hevent := event?_call_eq_some_iff.2 ⟨_, a, hplace, hanswer, rfl⟩
      exact Or.inr ⟨_, b, b', a, hplace, hb, hstep, hanswer, hevent, act_call hl hperform⟩

/-- Only a bucket answers a call. -/
theorem bucket_of_answer? {link now : Nat} {c : Call} {a : c.Answer}
    (hanswer : h.answer? p link now c = some (.answer a)) :
    ∃ place b b', h.place? link c.id = some place ∧ h.store.get? place.site = some b ∧
      b.step place.collection.keyspace now c = .ok (a, b') := by
  rcases act_call_cases p h link now c with
    ⟨hnone, _, _⟩ | ⟨place, b, b', given, hplace, hb, hstep, hgiven, _, _⟩
  · exact absurd hanswer (hnone a)
  · cases hanswer.symm.trans hgiven
    exact ⟨place, b, b', hplace, hb, hstep⟩

/-! ## Documents under actions -/

theorem store_connect (p : Policy) (h : Hub) (args : Link.Args) :
    (h.act p (.connect args)).store = h.store ∨
      ∃ site, (h.act p (.connect args)).store = Store.ensure p site h.store := by
  change ((backend p).establish args h.store).2 = h.store ∨
    ∃ site, ((backend p).establish args h.store).2 = Store.ensure p site h.store
  rcases Store.establish_cases p args h.store with ⟨k, _, _, hestablish⟩ | ⟨_, _, hestablish⟩
  · rw [hestablish]
    exact Or.inr ⟨k.site, rfl⟩
  · rw [hestablish]
    exact Or.inl rfl

/-- What is at a place after an action. -/
theorem document?_act (p : Policy) (h : Hub) (action : Action) (place : Place) :
    (h.act p action).store.document? place =
      Event.replay place (h.event? p action).toList (h.store.document? place) := by
  cases action with
  | connect args =>
    change _ = h.store.document? place
    rcases store_connect p h args with hstore | ⟨site, hstore⟩
    · rw [hstore]
    · rw [hstore, Store.document?_ensure]
  | call link now c =>
    rcases act_call_cases p h link now c with
      ⟨_, hevent, hact⟩ | ⟨at', b, b', a, hplace, hb, hstep, _, hevent, hact⟩
    · rw [hevent, hact]
      rfl
    · obtain ⟨_, _, hid⟩ := place?_eq_some_iff.1 hplace
      rw [hevent, hact]
      exact Store.document?_of_step at' hb hid hstep place

/-- What is at a place after a run is the replay of what was done there. -/
theorem document?_history (p : Policy) (h : Hub) (actions : List Action) (place : Place) :
    (h.after p actions).store.document? place =
      Event.replay place (h.history p actions) (h.store.document? place) := by
  induction actions generalizing h with
  | nil => rfl
  | cons action rest ih =>
    change ((h.act p action).after p rest).store.document? place = _
    rw [ih, document?_act, history, Event.replay, Event.replay, Event.replay, List.foldl_append]

/-! ## Links under actions -/

/-- Links are what their arguments make them, and those that lead to a collection find its bucket in
the store. -/
structure Linked (p : Policy) (h : Hub) : Prop where
  live_iff : ∀ args connection k, (args, connection) ∈ h.links → (connection = .live k ↔
    Store.collectionOf? args = some k ∧ p.accepts args = true ∧ p.reaches k.site.host = true)
  bucket : ∀ args k, (args, .live k) ∈ h.links → ∃ b, h.store.get? k.site = some b

theorem linked_empty (p : Policy) : empty.Linked p := ⟨nofun, nofun⟩

/-- A link that leads to a place finds its bucket. -/
theorem Linked.bucket_of_place? (hlinked : h.Linked p) {link : Nat} {id : String} {place : Place}
    (hplace : h.place? link id = some place) : ∃ b, h.store.get? place.site = some b := by
  obtain ⟨args, hl, -⟩ := place?_eq_some_iff.1 hplace
  exact hlinked.bucket args _ (List.mem_of_getElem? hl)

theorem opened_eq_live_iff {k k' : Collection} :
    (Store.opened p k.site k.keyspace).connection = .live k' ↔
      k = k' ∧ p.reaches k.site.host = true := by
  unfold Store.opened
  split
  · rename_i hreaches
    simp [hreaches]
  · rename_i hreaches
    simp [hreaches]

theorem Linked.connect (hlinked : h.Linked p) (args : Link.Args) :
    (h.act p (.connect args)).Linked p := by
  have hact : h.act p (.connect args) = ⟨((backend p).establish args h.store).2,
      h.links ++ [(args, ((backend p).establish args h.store).1)]⟩ := rfl
  rw [hact]
  rcases Store.establish_cases p args h.store with
    ⟨k, hk, haccepts, hestablish⟩ | ⟨hrefused, reason, hestablish⟩
  · rw [hestablish]
    constructor
    · intro args' connection k' hmem
      rcases List.mem_append.1 hmem with hmem | hmem
      · exact hlinked.live_iff args' connection k' hmem
      · obtain ⟨rfl, rfl⟩ := Prod.mk.inj (List.mem_singleton.1 hmem)
        rw [opened_eq_live_iff, hk]
        constructor
        · rintro ⟨rfl, hreaches⟩
          exact ⟨rfl, haccepts, hreaches⟩
        · rintro ⟨heq, _, hreaches⟩
          cases heq
          exact ⟨rfl, hreaches⟩
    · intro args' k' hmem
      rcases List.mem_append.1 hmem with hmem | hmem
      · obtain ⟨b, hb⟩ := hlinked.bucket args' k' hmem
        exact ⟨b, Store.get?_ensure_of_some hb⟩
      · have hlive := (Prod.mk.inj (List.mem_singleton.1 hmem)).2
        obtain ⟨rfl, _⟩ := opened_eq_live_iff.1 hlive.symm
        exact Option.isSome_iff_exists.1 (Store.get?_ensure_self p k.site h.store)
  · rw [hestablish]
    constructor
    · intro args' connection k' hmem
      rcases List.mem_append.1 hmem with hmem | hmem
      · exact hlinked.live_iff args' connection k' hmem
      · obtain ⟨rfl, rfl⟩ := Prod.mk.inj (List.mem_singleton.1 hmem)
        rcases hrefused with hnone | hrefused
        · simp [hnone]
        · simp [hrefused]
    · intro args' k' hmem
      rcases List.mem_append.1 hmem with hmem | hmem
      · exact hlinked.bucket args' k' hmem
      · cases (Prod.mk.inj (List.mem_singleton.1 hmem)).2

theorem Linked.act (hlinked : h.Linked p) (action : Action) : (h.act p action).Linked p := by
  cases action with
  | connect args => exact hlinked.connect args
  | call link now c =>
    rcases act_call_cases p h link now c with
      ⟨_, _, hact⟩ | ⟨place, b, b', a, _, _, _, _, _, hact⟩
    · rw [hact]
      exact hlinked
    · rw [hact]
      refine ⟨hlinked.live_iff, fun args k hmem ↦ ?_⟩
      obtain ⟨old, hold⟩ := hlinked.bucket args k hmem
      by_cases hsite : place.site = k.site
      · exact ⟨b', by rw [← hsite, Table.get?_insert_self]⟩
      · exact ⟨old, by rw [Table.get?_insert_of_ne _ hsite, hold]⟩

theorem Linked.after (hlinked : h.Linked p) (actions : List Action) :
    (h.after p actions).Linked p := by
  induction actions generalizing h with
  | nil => exact hlinked
  | cons action rest ih => exact ih (hlinked.act action)

/-! ## Clocks -/

/-- A bucket was new before the versions of its events were given, and its clock has counted them,
as far as it can count. -/
structure Counted (h : Hub) (events : List Event) : Prop where
  absent : ∀ site, h.store.get? site = none → events.countP (Event.drawsAt site) = 0
  clock : ∀ site b, h.store.get? site = some b → ∃ new : Bucket, new.IsNew ∧
    b.clock = new.clock + .ofNat (events.countP (Event.drawsAt site))

theorem counted_empty : empty.Counted [] := ⟨fun _ _ ↦ rfl, nofun⟩

theorem Counted.connect {events : List Event} (hcounted : h.Counted events) (args : Link.Args) :
    (h.act p (.connect args)).Counted events := by
  rcases store_connect p h args with hstore | ⟨site, hstore⟩
  · refine ⟨?_, ?_⟩
    · rw [hstore]
      exact hcounted.absent
    · rw [hstore]
      exact hcounted.clock
  · refine ⟨fun other hnone ↦ ?_, fun other b hb ↦ ?_⟩
    · rw [hstore] at hnone
      refine hcounted.absent other ?_
      cases hold : h.store.get? other with
      | none => rfl
      | some b =>
        rw [Store.get?_ensure_of_some hold] at hnone
        cases hnone
    · rw [hstore] at hb
      rcases Store.get?_ensure hb with hold | ⟨hnone, hnew⟩
      · exact hcounted.clock other b hold
      · refine ⟨b, hnew, ?_⟩
        rw [hcounted.absent other hnone]
        exact (UInt64.add_zero b.clock).symm

theorem Counted.act {events : List Event} (hcounted : h.Counted events) (action : Action) :
    (h.act p action).Counted (events ++ (h.event? p action).toList) := by
  cases action with
  | connect args =>
    change (h.act p (.connect args)).Counted (events ++ [])
    rw [List.append_nil]
    exact hcounted.connect args
  | call link now c =>
    rcases act_call_cases p h link now c with
      ⟨_, hevent, hact⟩ | ⟨place, b, b', a, hplace, hb, hstep, _, hevent, hact⟩
    · rw [hevent, hact]
      change h.Counted (events ++ [])
      rw [List.append_nil]
      exact hcounted
    · have hfollows := Bucket.follows_of_step hstep
      rw [hevent, hact]
      change Counted _ (events ++ [(⟨place, now, .of c a⟩ : Event)])
      refine ⟨fun site hnone ↦ ?_, fun site b₁ hb₁ ↦ ?_⟩
      · have hne : place.site ≠ site := by
          rintro rfl
          rw [Table.get?_insert_self] at hnone
          cases hnone
        rw [Table.get?_insert_of_ne _ hne] at hnone
        rw [List.countP_append, hcounted.absent site hnone, List.countP_singleton]
        simp [Event.drawsAt, hne]
      · rw [List.countP_append, List.countP_singleton]
        by_cases hsite : place.site = site
        · subst hsite
          rw [Table.get?_insert_self] at hb₁
          cases hb₁
          obtain ⟨new, hnew, hclock⟩ := hcounted.clock _ b hb
          refine ⟨new, hnew, ?_⟩
          rw [hfollows.clock]
          cases hversion : (Deed.of c a).version? with
          | none => simp [Event.drawsAt, hversion, hclock]
          | some cas =>
            rw [hfollows.version cas hversion]
            simp [Event.drawsAt, hversion, Bucket.nextCas, hclock, UInt64.ofNat_add,
              UInt64.add_assoc]
        · rw [Table.get?_insert_of_ne _ hsite] at hb₁
          simpa [Event.drawsAt, hsite] using hcounted.clock site b₁ hb₁

theorem Counted.after {events : List Event} (hcounted : h.Counted events) (actions : List Action) :
    (h.after p actions).Counted (events ++ h.history p actions) := by
  induction actions generalizing h events with
  | nil =>
    change h.Counted (events ++ [])
    rw [List.append_nil]
    exact hcounted
  | cons action rest ih =>
    rw [history, ← List.append_assoc]
    exact ih (hcounted.act action)

/-- While a clock has not run over, the next version is not zero. -/
theorem Counted.nextCas_ne_zero {events : List Event} (hcounted : h.Counted events) {site : Site}
    {b : Bucket} (hb : h.store.get? site = some b)
    (hdraws : events.countP (Event.drawsAt site) < Bucket.roomOfNew) : b.nextCas ≠ 0 := by
  obtain ⟨new, hnew, hclock⟩ := hcounted.clock site b hb
  have hlt := hnew.add_one_lt hdraws
  have hsucc : b.nextCas.toNat =
      new.clock.toNat + events.countP (Event.drawsAt site) + 1 := by
    rw [Bucket.nextCas, hclock, UInt64.toNat_add, UInt64.toNat_add, UInt64.toNat_ofNat']
    have hone : (1 : UInt64).toNat = 1 := rfl
    rw [UInt64.size] at hlt
    omega
  intro hzero
  rw [hzero] at hsucc
  have hzero' : (0 : UInt64).toNat = 0 := rfl
  omega

end Hub
end Depot.Memory
