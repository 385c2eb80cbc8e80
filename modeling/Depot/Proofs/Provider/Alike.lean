import Depot.Proofs.Provider.Effect

/-!
# Two stores that say the same

Two providers may stand on different stores and still answer alike. A `Pairing` tells which states
of the two stores correspond, by which names their collections do, and which handles are set aside.
If calls on stores that correspond end alike, up to the text of a fault (`Pairing.Grounds`), then so
do operations (`Grounds.document`, `Grounds.keyValue`): the text of a fault is dropped where its
kind is told, and the reason why there is no connection shows only as such a text. Registries that
agree but for handles set aside go on agreeing (`Deferred.AgreeBut`), and routing tables that show
the same of their links (`Router.mapLinks`), such as the names of the collections where they lead
(`Router.named`), go on showing the same.
-/

set_option autoImplicit false
set_option relaxedAutoImplicit false

namespace Depot

/-! ## Faults of one kind -/

/-- The same fault, up to the text that it carries. -/
inductive Fault.Similar : Fault → Fault → Prop
  | same (f : Fault) : Similar f f
  | decoding (text text' : String) : Similar (.decoding text) (.decoding text')
  | invalidArgument (text text' : String) :
      Similar (.invalidArgument text) (.invalidArgument text')
  | unavailable (text text' : String) : Similar (.unavailable text) (.unavailable text')

theorem Fault.similar_of_kind {f f' : Fault} (h : f.kind = f'.kind) : f.Similar f' := by
  cases f <;> cases f' <;> first
    | exact .same _
    | exact .decoding _ _
    | exact .invalidArgument _ _
    | exact .unavailable _ _
    | simp [Fault.kind] at h

theorem DocumentError.ofFault_of_similar {f f' : Fault} (h : f.Similar f') :
    ofFault f = ofFault f' := by cases h <;> rfl

theorem StoreError.ofFault_of_similar {f f' : Fault} (h : f.Similar f') :
    ofFault f = ofFault f' := by cases h <;> rfl

/-- Two calls have ended in the same way, up to the text of a fault. -/
inductive Attempt.Alike {α : Type} : Attempt α → Attempt α → Prop
  | answer (value : α) : Alike (.answer value) (.answer value)
  | fault {f f' : Fault} (h : f.kind = f'.kind) : Alike (.fault f) (.fault f')
  | crash : Alike .crash .crash

theorem Attempt.Alike.refl {α : Type} (r : Attempt α) : r.Alike r := by
  cases r with
  | answer value => exact .answer value
  | fault f => exact .fault rfl
  | crash => exact .crash

theorem Document.Operation.ofAttempt_alike (op : Document.Operation)
    {r r' : Attempt op.call.Answer} (h : r.Alike r') : op.ofAttempt r = op.ofAttempt r' := by
  cases h with
  | fault h => simp only [ofAttempt, DocumentError.ofFault_of_similar (Fault.similar_of_kind h)]
  | _ => rfl

theorem KeyValue.Operation.conclude_alike {α ε : Type} {onAnswer : α → Except StoreError ε}
    {onFault : Fault → Except StoreError ε} {r r' : Attempt α} (h : r.Alike r')
    (hfault : ∀ f f', f.Similar f' → onFault f = onFault f') :
    conclude onAnswer onFault r = conclude onAnswer onFault r' := by
  cases h with
  | fault h => simp only [conclude, hfault _ _ (Fault.similar_of_kind h)]
  | _ => rfl

/-! ## What corresponds -/

/-- What a connection leads to, by the name of its collection; nothing where there is none. -/
def Connection.named {κ ι : Type} (name : κ → ι) : Connection κ → Option ι
  | .live key => some (name key)
  | .unavailable _ => none

/-- Which states of two stores correspond, the names by which their collections do, and the handles
that are set aside. -/
structure Pairing (σ σ' κ κ' ι : Type) where
  states : σ → σ' → Prop
  name : κ → ι
  name' : κ' → ι
  aside : ResultKind → String → Bool := fun _ _ ↦ false

variable {σ σ' κ κ' ι α : Type}

namespace Pairing

/-- States and collections that are the same. -/
def same (σ κ : Type) (aside : ResultKind → String → Bool) : Pairing σ σ κ κ κ :=
  ⟨Eq, id, id, aside⟩

variable (w : Pairing σ σ' κ κ' ι)

/-- From states that correspond, links are connected alike, and calls on collections that correspond
end alike; and the states correspond again. -/
structure Grounds (g : Ground σ κ) (g' : Ground σ' κ') : Prop where
  tokens : ∀ n, g.tokens n = g'.tokens n
  establish : ∀ args s s', w.states s s' →
    (g.backend.establish args s).1.named w.name = (g'.backend.establish args s').1.named w.name' ∧
      w.states (g.backend.establish args s).2 (g'.backend.establish args s').2
  call : ∀ key key' now c s s', w.name key = w.name' key' → w.states s s' →
    (g.backend.call key now c s).1.Alike (g'.backend.call key' now c s').1 ∧
      w.states (g.backend.call key now c s).2 (g'.backend.call key' now c s').2

theorem grounds_same (g : Ground σ κ) (aside : ResultKind → String → Bool) :
    (same σ κ aside).Grounds g g where
  tokens _ := rfl
  establish := by
    rintro args s _ rfl
    exact ⟨rfl, rfl⟩
  call := by
    rintro key _ now c s _ rfl rfl
    exact ⟨.refl _, rfl⟩

variable {w} {g : Ground σ κ} {g' : Ground σ' κ'} {connection : Connection κ}
  {connection' : Connection κ'} {s : σ} {s' : σ'}

theorem Grounds.perform (hg : w.Grounds g g')
    (hconnection : connection.named w.name = connection'.named w.name') (hs : w.states s s')
    (now : Nat) (c : Call) :
    (g.backend.perform connection now c s).1.Alike (g'.backend.perform connection' now c s').1 ∧
      w.states (g.backend.perform connection now c s).2
        (g'.backend.perform connection' now c s').2 := by
  cases connection with
  | live key =>
    cases connection' with
    | live key' => exact hg.call key key' now c s s' (Option.some.inj hconnection) hs
    | unavailable => cases hconnection
  | unavailable =>
    cases connection' with
    | live => cases hconnection
    | unavailable => exact ⟨.fault rfl, hs⟩

theorem Grounds.document (hg : w.Grounds g g')
    (hconnection : connection.named w.name = connection'.named w.name') (hs : w.states s s')
    (now : Nat) (op : Document.Operation) :
    (op.run g.backend connection now s).1 = (op.run g'.backend connection' now s').1 ∧
      w.states (op.run g.backend connection now s).2 (op.run g'.backend connection' now s').2 := by
  obtain ⟨halike, hstates⟩ := hg.perform hconnection hs now op.call
  exact ⟨op.ofAttempt_alike halike, hstates⟩

theorem Grounds.keyValue (hg : w.Grounds g g')
    (hconnection : connection.named w.name = connection'.named w.name') (hs : w.states s s')
    (now : Nat) (op : KeyValue.Operation) :
    (KeyValue.Operation.run g.backend connection now s op).1 =
        (KeyValue.Operation.run g'.backend connection' now s' op).1 ∧
      w.states (KeyValue.Operation.run g.backend connection now s op).2
        (KeyValue.Operation.run g'.backend connection' now s' op).2 := by
  have hrefuse : ∀ {ε : Type} (f f' : Fault), f.Similar f' →
      (KeyValue.Operation.refuse f : Except StoreError ε) = KeyValue.Operation.refuse f' :=
    fun f f' h ↦ congrArg Except.error (StoreError.ofFault_of_similar h)
  cases op with
  | get bucket key =>
    obtain ⟨halike, hstates⟩ := hg.perform hconnection hs now (.get key {})
    exact ⟨KeyValue.Operation.conclude_alike halike fun f f' h ↦ by cases h <;> rfl, hstates⟩
  | set bucket key value =>
    obtain ⟨halike, hstates⟩ := hg.perform hconnection hs now (.upsert key value {})
    exact ⟨KeyValue.Operation.conclude_alike halike hrefuse, hstates⟩
  | delete bucket key =>
    obtain ⟨halike, hstates⟩ := hg.perform hconnection hs now (.remove key {})
    exact ⟨KeyValue.Operation.conclude_alike halike fun f f' h ↦ by cases h <;> rfl, hstates⟩
  | contains bucket key =>
    obtain ⟨halike, hstates⟩ := hg.perform hconnection hs now (.contains key none)
    exact ⟨KeyValue.Operation.conclude_alike halike hrefuse, hstates⟩
  | listKeys bucket cursor? => exact ⟨rfl, hs⟩
  | increment bucket key delta =>
    obtain ⟨halike, hstates⟩ := hg.perform hconnection hs now
      (.increment key { delta, initial? := some delta })
    exact ⟨KeyValue.Operation.conclude_alike halike hrefuse, hstates⟩

end Pairing

/-! ## Registries that agree but for some handles -/

namespace Deferred

/-- Under all handles but those that are set aside, both hold the same. -/
def AgreeBut (aside : String → Bool) (d d' : Deferred α) : Prop :=
  ∀ handle, aside handle = false → d.tasks.get? handle = d'.tasks.get? handle

variable {aside : String → Bool} {d d' : Deferred α}

theorem AgreeBut.submit (h : d.AgreeBut aside d') (handle : String) :
    (d.submit handle).AgreeBut aside (d'.submit handle) := by
  intro other hother
  rw [get?_submit, get?_submit, h other hother]

theorem AgreeBut.settle (h : d.AgreeBut aside d') (handle : String) {value? value'? : Option α}
    (hvalue : value? = value'?) (now : Nat) :
    (d.settle handle value? now).AgreeBut aside (d'.settle handle value'? now) := by
  intro other hother
  subst hvalue
  cases value? with
  | none => rw [Deferred.settle, Deferred.settle, get?_abandon, get?_abandon, h other hother]
  | some value =>
    rw [Deferred.settle, Deferred.settle, get?_complete, get?_complete, h other hother]

theorem AgreeBut.fetch (h : d.AgreeBut aside d') (handle : String) :
    (d.fetch handle).2.AgreeBut aside (d'.fetch handle).2 := by
  intro other hother
  refine Option.ext fun t ↦ ?_
  rw [get?_fetch_eq_some_iff, get?_fetch_eq_some_iff, h other hother]

theorem AgreeBut.evict (h : d.AgreeBut aside d') (ttl now : Nat) :
    (d.evict ttl now).AgreeBut aside (d'.evict ttl now) := by
  intro other hother
  refine Option.ext fun t ↦ ?_
  rw [get?_evict_eq_some_iff, get?_evict_eq_some_iff, h other hother]

end Deferred

/-! ## Routing tables by what is seen of their links -/

/-- What two values come to is the same: there is none of either, or both come to the same. -/
theorem map_eq_map_cases {β γ : Type} {f : α → γ} {f' : β → γ} {a? : Option α} {b? : Option β}
    (h : a?.map f = b?.map f') :
    (a? = none ∧ b? = none) ∨ ∃ a b, a? = some a ∧ b? = some b ∧ f a = f' b := by
  cases a? with
  | none => exact Or.inl ⟨rfl, Option.map_eq_none_iff.1 h.symm⟩
  | some a =>
    obtain ⟨b, hb, heq⟩ := Option.map_eq_some_iff.1 h.symm
    exact Or.inr ⟨a, b, rfl, hb, heq.symm⟩

namespace Router

/-- A routing table with what a function shows of each link. -/
def mapLinks (f : Attached κ → α) (r : Router κ) : Table String (Table String α) :=
  Table.mapValues r (·.mapValues f)

section

variable {f : Attached κ → α} {f' : Attached κ' → α} {r : Router κ} {r' : Router κ'}

/-- The links of a caller in both tables. -/
theorem mapLinks_links (h : r.mapLinks f = r'.mapLinks f') (source : String) :
    (Table.get? r source).map (·.mapValues f) = (Table.get? r' source).map (·.mapValues f') := by
  rw [← Table.get?_mapValues, ← Table.get?_mapValues]
  exact congrArg (Table.get? · source) h

theorem mapLinks_find? (h : r.mapLinks f = r'.mapLinks f') (defaultLink : String)
    (who : Identity) : (r.find? defaultLink who).map f = (r'.find? defaultLink who).map f' := by
  rcases map_eq_map_cases (mapLinks_links h who.source) with
    ⟨hnone, hnone'⟩ | ⟨links, links', hlinks, hlinks', heq⟩
  · simp only [find?, hnone, hnone', Option.bind_none, Option.map_none]
  · have hget : ∀ link, (links.get? link).map f = (links'.get? link).map f' := fun link ↦ by
      rw [← Table.get?_mapValues, ← Table.get?_mapValues, heq]
    have honly : links.only?.map f = links'.only?.map f' := by
      rw [← Table.only?_mapValues, ← Table.only?_mapValues, heq]
    simp only [find?, hlinks, hlinks', Option.bind_some]
    cases who.link? with
    | some link => exact hget link
    | none =>
      simp only [implied?]
      rcases map_eq_map_cases (hget defaultLink) with ⟨hnone, hnone'⟩ | ⟨a, a', ha, ha', hshown⟩
      · simp only [hnone, hnone', honly]
      · simp only [ha, ha', Option.map_some, hshown]

theorem mapLinks_link? (h : r.mapLinks f = r'.mapLinks f') (route : Route) :
    (r.link? route).map f = (r'.link? route).map f' := by
  rcases map_eq_map_cases (mapLinks_links h route.source) with
    ⟨hnone, hnone'⟩ | ⟨links, links', hlinks, hlinks', heq⟩
  · rw [link?, link?, hnone, hnone']
    rfl
  · rw [link?, link?, hlinks, hlinks', Option.bind_some, Option.bind_some,
      ← Table.get?_mapValues, ← Table.get?_mapValues, heq]

theorem mapLinks_attached (h : r.mapLinks f = r'.mapLinks f') (source link : String)
    {a : Attached κ} {a' : Attached κ'} (ha : f a = f' a') :
    mapLinks f (Table.insert r source (((Table.get? r source).getD .empty).insert link a)) =
      mapLinks f'
        (Table.insert r' source (((Table.get? r' source).getD .empty).insert link a')) := by
  have hlinks : ((Table.get? r source).getD .empty).mapValues f =
      ((Table.get? r' source).getD .empty).mapValues f' := by
    rcases map_eq_map_cases (mapLinks_links h source) with
      ⟨hnone, hnone'⟩ | ⟨links, links', hlinks, hlinks', heq⟩
    · rw [hnone, hnone']
      rfl
    · rw [hlinks, hlinks']
      exact heq
  simp only [mapLinks, Table.mapValues_insert, hlinks, ha]
  exact congrArg (Table.insert · source _) h

theorem mapLinks_detach (h : r.mapLinks f = r'.mapLinks f') (route : Route) :
    (r.detach route).mapLinks f = (r'.detach route).mapLinks f' := by
  rcases map_eq_map_cases (mapLinks_links h route.source) with
    ⟨hnone, hnone'⟩ | ⟨links, links', hlinks, hlinks', heq⟩
  · simp only [detach, hnone, hnone', h]
  · have hrest : (links.erase route.link).mapValues f =
        (links'.erase route.link).mapValues f' := by
      rw [Table.mapValues_erase, Table.mapValues_erase, heq]
    have hempty : (links.erase route.link).isEmpty = (links'.erase route.link).isEmpty := by
      rw [← Table.isEmpty_mapValues _ f, hrest, Table.isEmpty_mapValues]
    simp only [detach, hlinks, hlinks', hempty]
    split
    · rw [mapLinks, mapLinks, Table.mapValues_erase, Table.mapValues_erase]
      exact congrArg (Table.erase · route.source) h
    · rw [mapLinks, mapLinks, Table.mapValues_insert, Table.mapValues_insert, hrest]
      exact congrArg (Table.insert · route.source _) h

end

/-- A link by what it was attached with and the name of its collection. -/
def namedLink (name : κ → ι) (a : Attached κ) : Link.Args × Option ι :=
  (a.args, a.connection.named name)

def named (name : κ → ι) (r : Router κ) : Table String (Table String (Link.Args × Option ι)) :=
  Table.mapValues r (·.mapValues (namedLink name))

end Router
end Depot
