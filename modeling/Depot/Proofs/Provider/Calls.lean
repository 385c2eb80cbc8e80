import Depot.Proofs.Provider.Views

/-!
# The calls that events make

A request that is let through makes one call on the store at most, and so does work in the
background; `call?` says which, when, and over which connection. The store is then what this call
leaves (`store_step_of_some`), and an event that makes no call leaves the store as it was, or
connects a link (`store_step_of_none`). In memory a call that is answered does one thing to one
document, and `done?` says what; what is at a place after an event follows from that
(`document?_step`).
-/

set_option autoImplicit false
set_option relaxedAutoImplicit false

namespace Depot

open Memory

namespace Provider

section

variable {σ κ : Type}

/-- The connection that a request of a caller is served over, and what it reads as. -/
def addressed? (p : Provider σ κ) (q : Rpc.Request) : Option (Connection κ × CallerRequest) :=
  match Method.ofName? q.method with
  | some (.caller params) => do
    let who ← (p.identify q.headers).toOption
    let r ← (readParams params q.params?).toOption
    let connection ← (p.resolve who).toOption
    some (connection, r)
  | _ => none

/-- The call that an event makes, its time, and the connection that it goes over. -/
def Event.call? (p : Provider σ κ) : Event σ κ → Option (Connection κ × Nat × Call)
  | .request q now => (p.addressed? q).bind fun served ↦ served.2.call?.map (served.1, now, ·)
  | .work mayRun now =>
    (p.jobs.find? mayRun).map fun job ↦ (job.connection, now, job.work.operation.call)
  | _ => none

variable {g : Ground σ κ} {p : Provider σ κ} {e : Event σ κ} {connection : Connection κ}
  {q : Rpc.Request} {r : CallerRequest} {c : Call} {now : Nat} {headers : Fields String}
  {who : Identity}

/-! ## Who is served -/

theorem identify_eq_ok_iff : p.identify headers = .ok who ↔
    ∃ source, headers.get? p.settings.sourceHeader = some source ∧ source ≠ "" ∧
      who = ⟨source, (headers.get? p.settings.linkHeader).filter (· ≠ "")⟩ := by
  rw [identify, Identity.ofHeaders_eq_ok_iff, Identity.header?_eq_some_iff]
  constructor
  · rintro ⟨⟨hsource, hne⟩, hlink⟩
    exact ⟨who.source, hsource, hne, congrArg (Identity.mk who.source) hlink.symm⟩
  · rintro ⟨source, hsource, hne, rfl⟩
    exact ⟨⟨hsource, hne⟩, rfl⟩

theorem leadsTo_iff : LeadsTo p headers connection ↔
    ∃ who, p.identify headers = .ok who ∧ p.resolve who = .ok connection := by
  simp only [identify_eq_ok_iff, resolve, Router.resolve_eq_ok_iff]
  constructor
  · rintro ⟨a, ⟨source, hsource, hne, hfind⟩, hconnection⟩
    exact ⟨_, ⟨source, hsource, hne, rfl⟩, a, hfind, hconnection⟩
  · rintro ⟨_, ⟨source, hsource, hne, rfl⟩, a, hfind, hconnection⟩
    exact ⟨a, ⟨source, hsource, hne, hfind⟩, hconnection⟩

theorem readsAs_iff : ReadsAs q r ↔ ∃ params,
    Method.ofName? q.method = some (.caller params) ∧ readParams params q.params? = .ok r := by
  have hcaller : ∀ params, Method.ofName? q.method = some (.caller params) ↔
      (q.method, params) ∈ callerMethods := by
    intro params
    refine ⟨fun h ↦ ?_, ofName?_of_caller⟩
    simpa [methods] using ofName?_eq_some_iff.1 h
  simp only [ReadsAs, hcaller, readParams_eq_ok_iff]

theorem addressed?_eq_some_iff :
    p.addressed? q = some (connection, r) ↔ Addresses p connection q r := by
  rw [Addresses, readsAs_iff, leadsTo_iff, addressed?]
  split
  · rename_i params hmethod
    simp only [Option.bind_eq_bind, Option.bind_eq_some_iff, toOption_eq_some_iff,
      Option.some.injEq, Prod.mk.injEq, hmethod, Method.caller.injEq]
    constructor
    · rintro ⟨who, hwho, r, hread, connection, hresolve, rfl, rfl⟩
      exact ⟨⟨params, rfl, hread⟩, who, hwho, hresolve⟩
    · rintro ⟨⟨_, rfl, hread⟩, who, hwho, hresolve⟩
      exact ⟨who, hwho, r, hread, connection, hresolve, rfl, rfl⟩
  · rename_i hno
    refine iff_of_false nofun ?_
    rintro ⟨⟨params, hmethod, -⟩, -⟩
    exact hno params hmethod

/-- A request is served for a caller, or it is of the host, or it is refused. -/
theorem serve_of_addressed?_none (h : p.addressed? q = none) (g : Ground σ κ) (now : Nat) :
    (∃ e, p.serve g now q.method q.params? q.headers = (.error e, p)) ∨
      ∃ r, p.serve g now q.method q.params? q.headers = p.serveHost g r := by
  rcases serve_cases g now q.method q.params? q.headers p with
    herror | ⟨_, r, _, _, hhost⟩ | ⟨params, r, _, hmethod, hparams, _⟩
  · exact .inl herror
  · exact .inr ⟨r, hhost⟩
  · rw [serve_of_ofName? (ofName?_of_caller hmethod)]
    rcases callerMethod_gate g now params q.params? q.headers p with
      ⟨_, heq⟩ | ⟨_, m, _, heq⟩ | ⟨_, _, _, source, heq⟩ | ⟨_, r', a, hparams', hadmits, heq⟩
    · exact .inl ⟨_, heq⟩
    · exact .inl ⟨_, heq⟩
    · exact .inl ⟨_, heq⟩
    · have haddresses : Addresses p a.connection q r' :=
        ⟨⟨params, hmethod, hparams'⟩, a, hadmits, rfl⟩
      rw [addressed?_eq_some_iff.2 haddresses] at h
      contradiction

/-! ## The store after an event -/

/-- A call is made for a caller who is served, or by work in the background. -/
theorem Event.call?_cases (h : e.call? p = some (connection, now, c)) :
    (∃ q r, e = .request q now ∧ Addresses p connection q r ∧ r.call? = some c) ∨
      ∃ mayRun job, e = .work mayRun now ∧ p.jobs.find? mayRun = some job ∧
        job.connection = connection ∧ job.work.operation.call = c := by
  cases e with
  | request q now' =>
    obtain ⟨⟨connection', r⟩, haddressed, hcall⟩ := Option.bind_eq_some_iff.1 h
    obtain ⟨c', hc, heq⟩ := Option.map_eq_some_iff.1 hcall
    cases heq
    exact .inl ⟨q, r, rfl, addressed?_eq_some_iff.1 haddressed, hc⟩
  | work mayRun now' =>
    obtain ⟨job, hjob, heq⟩ := Option.map_eq_some_iff.1 h
    cases heq
    exact .inr ⟨mayRun, job, rfl, hjob, rfl, rfl⟩
  | sweep ttl now' => cases h
  | store s => cases h

theorem store_step_of_some (h : e.call? p = some (connection, now, c)) (g : Ground σ κ) :
    (p.step g e).store = (g.backend.perform connection now c p.store).2 := by
  rcases Event.call?_cases h with ⟨q, r, rfl, hq, hc⟩ | ⟨mayRun, job, rfl, hjob, rfl, rfl⟩
  · rw [step, onRequest_of_addresses hq, store_serveCaller, hc]
    rfl
  · rw [step_of_find? hjob, store_runJob]
    rfl

theorem store_serveHost (g : Ground σ κ) (p : Provider σ κ) (r : HostRequest) :
    (p.serveHost g r).2.store = p.store ∨
      ∃ args, (p.serveHost g r).2.store = (g.backend.establish args p.store).2 := by
  cases r with
  | linkPut d =>
    rw [serveHost, linkPut]
    cases hargs : Link.Args.ofDefinition d with
    | error gap =>
      rw [Router.attach, hargs]
      exact .inl rfl
    | ok args =>
      rw [Router.attach_eq_ok hargs]
      exact .inr ⟨args, rfl⟩
  | fetch kind handle => cases kind <;> exact .inl rfl
  | _ => exact .inl rfl

/-- An event without a call leaves the store as it was, or connects a link. -/
theorem store_step_of_none (h : e.call? p = none) (g : Ground σ κ)
    (hown : ∀ s, e = .store s → s = p.store) : (p.step g e).store = p.store ∨
      ∃ args, (p.step g e).store = (g.backend.establish args p.store).2 := by
  cases e with
  | request q now =>
    cases haddressed : p.addressed? q with
    | some served =>
      obtain ⟨connection, r⟩ := served
      have hnone : r.call? = none := by
        rw [Event.call?, haddressed] at h
        exact Option.map_eq_none_iff.1 h
      rw [step, onRequest_of_addresses (addressed?_eq_some_iff.1 haddressed), store_serveCaller,
        hnone]
      exact .inl rfl
    | none =>
      have hstep : p.step g (.request q now) =
          (p.serve g now q.method q.params? q.headers).2 := rfl
      rcases serve_of_addressed?_none haddressed g now with ⟨_, heq⟩ | ⟨r, heq⟩
      · rw [hstep, heq]
        exact .inl rfl
      · rw [hstep, heq]
        exact store_serveHost g p r
  | work mayRun now =>
    rw [step, runNext, Option.map_eq_none_iff.1 h]
    exact .inl rfl
  | sweep ttl now => exact .inl rfl
  | store s =>
    obtain rfl := hown s rfl
    exact .inl rfl

end

/-! ## Documents -/

/-- What an event did to a document, if it made a call that was answered. -/
def Event.done? (policy : Policy) (p : Provider Store Collection) (e : Event Store Collection) :
    Option Memory.Event :=
  match e.call? p with
  | some (.live k, now, c) =>
    match ((backend policy).perform (.live k) now c p.store).1 with
    | .answer a => some ⟨⟨k, c.id⟩, now, .of c a⟩
    | _ => none
  | _ => none

variable {policy : Policy} {tokens : Nat → String} {p : Provider Store Collection}
  {e : Event Store Collection}

theorem done?_eq_some_iff {done : Memory.Event} : e.done? policy p = some done ↔
    ∃ k now c a, e.call? p = some (.live k, now, c) ∧
      ((backend policy).perform (.live k) now c p.store).1 = .answer a ∧
      done = ⟨⟨k, c.id⟩, now, .of c a⟩ := by
  unfold Event.done?
  constructor
  · intro h
    split at h
    · rename_i k now c hcall
      split at h
      · rename_i a hattempt
        exact ⟨k, now, c, a, hcall, hattempt, (Option.some.inj h).symm⟩
      · contradiction
    · contradiction
  · rintro ⟨k, now, c, a, hcall, hattempt, rfl⟩
    simp only [hcall, hattempt]

/-- What is at a place after an event. -/
theorem document?_step (policy : Policy) (tokens : Nat → String)
    (hown : ∀ s, e = .store s → s = p.store) (place : Place) :
    (p.step ⟨backend policy, tokens⟩ e).store.document? place =
      Memory.Event.replay place (e.done? policy p).toList (p.store.document? place) := by
  cases hcall : e.call? p with
  | none =>
    have hdone : e.done? policy p = none := by rw [Event.done?, hcall]
    rw [hdone]
    rcases store_step_of_none hcall ⟨backend policy, tokens⟩ hown with hsame | ⟨args, hconnects⟩
    · rw [hsame]
      rfl
    · rw [hconnects]
      rcases Store.establish_cases policy args p.store with ⟨k, _, _, heq⟩ | ⟨_, _, heq⟩
      · rw [heq, Store.document?_ensure]
        rfl
      · rw [heq]
        rfl
  | some made =>
    obtain ⟨connection, now, c⟩ := made
    rw [store_step_of_some hcall]
    rcases Store.perform_cases policy connection now c p.store with
      ⟨f, hperform⟩ | ⟨k, b, b', a, rfl, hb, hstep, hperform⟩
    · have hdone : e.done? policy p = none := by
        rw [Event.done?, hcall]
        cases connection with
        | live k => simp only [hperform]
        | unavailable reason => rfl
      rw [hdone, hperform]
      rfl
    · have hdone : e.done? policy p = some ⟨⟨k, c.id⟩, now, .of c a⟩ := by
        simp only [Event.done?, hcall, hperform]
      rw [hdone, hperform]
      exact Store.document?_of_step ⟨k, c.id⟩ hb rfl hstep place

end Provider
end Depot
