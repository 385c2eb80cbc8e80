import Depot.Proofs.Link.Redacted
import Depot.Proofs.Provider.Alike
import Depot.Proofs.Provider.Lockstep
import Depot.Proofs.Provider.Verdict
import Depot.Proofs.Router.History

/-!
# What a password leaves behind

A provider keeps the passwords of its links in the routing table, among the arguments that they were
attached with, and never looks at them again. So a provider without its passwords
(`Provider.masked`) serves every request as it does with them (`onRequest_of_masked`). A password is
read once, when its link is connected, and then only to be let in or turned away. Two requests that
put a link with two passwords that are both let in, or both turned away, are therefore answered
alike and leave the same provider behind, up to the two passwords (`onRequest_of_twins`).

Two services to which the same happens, up to such passwords, go on alike (`Alike.step`), and nobody
can tell them apart by what they send, by what is fetched from them, or by what they report of their
links (`password_unseen`).
-/

set_option autoImplicit false
set_option relaxedAutoImplicit false

namespace Depot

variable {σ κ : Type}

def Attached.masked (a : Attached κ) : Attached κ := { a with args := a.args.masked }

theorem Attached.of_masked {a a' : Attached κ} (h : a.masked = a'.masked) :
    a.args.masked = a'.args.masked ∧ a.connection = a'.connection := by
  simpa only [masked, Attached.mk.injEq] using h

/-- A routing table without the passwords. -/
def Router.masked (r : Router κ) : Router κ := r.mapLinks Attached.masked

namespace Provider

/-- The provider without its passwords. -/
def masked (p : Provider σ κ) : Provider σ κ := { p with router := p.router.masked }

/-- The provider with another routing table. -/
def rerouted (p : Provider σ κ) (router : Router κ) : Provider σ κ := { p with router }

@[simp] theorem settings_rerouted (p : Provider σ κ) (router : Router κ) :
    (p.rerouted router).settings = p.settings := rfl

@[simp] theorem router_rerouted (p : Provider σ κ) (router : Router κ) :
    (p.rerouted router).router = router := rfl

@[simp] theorem jobs_rerouted (p : Provider σ κ) (router : Router κ) :
    (p.rerouted router).jobs = p.jobs := rfl

variable {g : Ground σ κ} {p p' : Provider σ κ} {router : Router κ}

theorem masked_rerouted (h : p.router.masked = router.masked) :
    p.masked = (p.rerouted router).masked := by
  unfold masked
  rw [h]
  rfl

/-- Providers that are the same without their passwords have all but the routing table in common. -/
theorem exists_router (h : p.masked = p'.masked) :
    ∃ router, p' = p.rerouted router ∧ p.router.masked = router.masked := by
  obtain ⟨settings, store, router, readings, mutations, jobs, issued, stopped⟩ := p
  obtain ⟨settings', store', router', readings', mutations', jobs', issued', stopped'⟩ := p'
  simp only [masked, Provider.mk.injEq] at h
  obtain ⟨rfl, rfl, hrouter, rfl, rfl, rfl, rfl, rfl⟩ := h
  exact ⟨router', rfl, hrouter⟩

/-- What leaves the routing table alone, and does not look at it, leaves passwords alone. -/
theorem masked_of_rerouted (f : Provider σ κ → Provider σ κ)
    (hf : ∀ p router, f (p.rerouted router) = (f p).rerouted router) (h : p.masked = p'.masked) :
    (f p).masked = (f p').masked := by
  obtain ⟨router, rfl, hrouter⟩ := exists_router h
  have hown := congrArg Provider.router (hf p p.router)
  rw [router_rerouted] at hown
  rw [hf]
  exact masked_rerouted ((congrArg Router.masked hown).trans hrouter)

/-! ## Requests of callers -/

/-- Once the connection is found, nobody looks at the routing table. -/
theorem serveCaller_rerouted (g : Ground σ κ) (now : Nat) (connection : Connection κ)
    (p : Provider σ κ) (r : CallerRequest) (router : Router κ) :
    (p.rerouted router).serveCaller g now connection r =
      ((p.serveCaller g now connection r).1,
        (p.serveCaller g now connection r).2.rerouted router) := by
  cases r with
  | document op => rfl
  | background work => cases work <;> rfl
  | keyValue op => rfl

theorem serveCaller_of_masked (h : p.masked = p'.masked) (g : Ground σ κ) (now : Nat)
    (connection : Connection κ) (r : CallerRequest) :
    (p.serveCaller g now connection r).1 = (p'.serveCaller g now connection r).1 ∧
      (p.serveCaller g now connection r).2.masked =
        (p'.serveCaller g now connection r).2.masked := by
  have hrerouted := serveCaller_rerouted g now connection
  refine ⟨?_, masked_of_rerouted (fun p ↦ (p.serveCaller g now connection r).2)
    (fun p router ↦ congrArg Prod.snd (hrerouted p r router)) h⟩
  obtain ⟨router, rfl, -⟩ := exists_router h
  rw [hrerouted]

theorem resolve_of_masked (h : p.masked = p'.masked) (who : Identity) :
    p.resolve who = p'.resolve who := by
  obtain ⟨router, rfl, hrouter⟩ := exists_router h
  have hfind := Router.mapLinks_find? hrouter p.settings.defaultLink who
  unfold resolve Router.resolve
  rcases map_eq_map_cases hfind with ⟨hnone, hnone'⟩ | ⟨a, a', ha, ha', heq⟩
  · simp only [settings_rerouted, router_rerouted, hnone, hnone']
  · simp only [settings_rerouted, router_rerouted, ha, ha', (Attached.of_masked heq).2]

theorem callerMethod_of_masked (h : p.masked = p'.masked) (g : Ground σ κ) (now : Nat)
    (params : Wire.Decoder CallerRequest) (params? : Option Json) (headers : Fields String) :
    (p.callerMethod g now params params? headers).1 =
        (p'.callerMethod g now params params? headers).1 ∧
      (p.callerMethod g now params params? headers).2.masked =
        (p'.callerMethod g now params params? headers).2.masked := by
  have hidentify : p.identify headers = p'.identify headers := by
    obtain ⟨router, rfl, -⟩ := exists_router h
    rfl
  unfold callerMethod
  rw [hidentify]
  cases p'.identify headers with
  | error e => exact ⟨rfl, h⟩
  | ok who =>
    cases readParams params params? with
    | error e => exact ⟨rfl, h⟩
    | ok r =>
      simp only [resolve_of_masked h who]
      cases p'.resolve who with
      | error e => exact ⟨rfl, h⟩
      | ok connection => exact serveCaller_of_masked h g now connection r

/-! ## Requests of the host -/

/-- Two links that are connected alike are put alike. -/
theorem linkPut_of_masked (h : p.masked = p'.masked) {d d' : Link.Definition}
    (hsource : d.source = d'.source) (hname : d.name = d'.name)
    (hargs : (Link.Args.ofDefinition d).map Link.Args.masked =
      (Link.Args.ofDefinition d').map Link.Args.masked)
    (hestablish : ∀ a a', Link.Args.ofDefinition d = .ok a → Link.Args.ofDefinition d' = .ok a' →
      ∀ s, g.backend.establish a s = g.backend.establish a' s) :
    (p.linkPut g d).1 = (p'.linkPut g d').1 ∧
      (p.linkPut g d).2.masked = (p'.linkPut g d').2.masked := by
  obtain ⟨router, rfl, hrouter⟩ := exists_router h
  unfold linkPut
  cases ha : Link.Args.ofDefinition d with
  | error gap =>
    cases ha' : Link.Args.ofDefinition d' with
    | error gap' =>
      rw [ha, ha'] at hargs
      obtain rfl : gap = gap' := Except.error.inj hargs
      unfold Router.attach
      rw [ha, ha']
      exact ⟨rfl, h⟩
    | ok a' =>
      rw [ha, ha'] at hargs
      cases hargs
  | ok a =>
    cases ha' : Link.Args.ofDefinition d' with
    | error gap' =>
      rw [ha, ha'] at hargs
      cases hargs
    | ok a' =>
      rw [ha, ha'] at hargs
      have hmasked : a.masked = a'.masked := Except.ok.inj hargs
      have hlink : Attached.masked ⟨a, (g.backend.establish a' p.store).1⟩ =
          Attached.masked ⟨a', (g.backend.establish a' p.store).1⟩ := by
        rw [Attached.masked, Attached.masked, hmasked]
      rw [Router.attach_eq_ok ha, Router.attach_eq_ok ha', hestablish a a' ha ha', hsource, hname]
      have hattached := Router.mapLinks_attached hrouter d'.source d'.name hlink
      refine ⟨rfl, ?_⟩
      exact masked_rerouted (p := { p with router := _, store := _ }) hattached

theorem isReady_of_masked (h : p.masked = p'.masked) (kind : ResultKind) (handle : String) :
    p.isReady kind handle = p'.isReady kind handle := by
  obtain ⟨router, rfl, -⟩ := exists_router h
  cases kind <;> rfl

theorem fetch_of_masked (h : p.masked = p'.masked) (kind : ResultKind) (handle : String) :
    (p.fetch kind handle).1 = (p'.fetch kind handle).1 ∧
      (p.fetch kind handle).2.masked = (p'.fetch kind handle).2.masked := by
  refine ⟨?_, masked_of_rerouted (fun p ↦ (p.fetch kind handle).2)
    (fun p router ↦ by cases kind <;> rfl) h⟩
  obtain ⟨router, rfl, -⟩ := exists_router h
  cases kind <;> rfl

theorem serveHost_of_masked (h : p.masked = p'.masked) (g : Ground σ κ) (r : HostRequest) :
    (p.serveHost g r).1 = (p'.serveHost g r).1 ∧
      (p.serveHost g r).2.masked = (p'.serveHost g r).2.masked := by
  cases r with
  | linkPut d =>
    refine linkPut_of_masked h rfl rfl rfl fun a a' ha ha' ↦ ?_
    obtain rfl := Except.ok.inj (ha.symm.trans ha')
    exact fun _ ↦ rfl
  | linkDel source link =>
    obtain ⟨router, rfl, hrouter⟩ := exists_router h
    have hdetached := Router.mapLinks_detach hrouter ⟨source, link⟩
    exact ⟨rfl, masked_rerouted (p := p.rerouted (p.router.detach ⟨source, link⟩)) hdetached⟩
  | health => exact ⟨rfl, h⟩
  | shutdown =>
    obtain ⟨router, rfl, -⟩ := exists_router h
    exact ⟨rfl, rfl⟩
  | ready kind handle =>
    refine ⟨?_, h⟩
    rw [serveHost, serveHost, isReady_of_masked h kind handle]
  | fetch kind handle =>
    obtain ⟨hresult, hafter⟩ := fetch_of_masked h kind handle
    exact ⟨congrArg (Except.mapError ProviderError.ofHandleFault) hresult, hafter⟩

/-- Without its passwords a provider answers every request as it does with them. -/
theorem onRequest_of_masked (h : p.masked = p'.masked) (g : Ground σ κ) (now : Nat)
    (q : Rpc.Request) :
    ((handler g now).onRequest q p).1 = ((handler g now).onRequest q p').1 ∧
      ((handler g now).onRequest q p).2.masked = ((handler g now).onRequest q p').2.masked := by
  have hserve : (p.serve g now q.method q.params? q.headers).1 =
        (p'.serve g now q.method q.params? q.headers).1 ∧
      (p.serve g now q.method q.params? q.headers).2.masked =
        (p'.serve g now q.method q.params? q.headers).2.masked := by
    unfold serve
    cases Method.ofName? q.method with
    | none => exact ⟨rfl, h⟩
    | some method =>
      cases method with
      | host params =>
        simp only [hostMethod]
        cases readParams params q.params? with
        | error e => exact ⟨rfl, h⟩
        | ok r => exact serveHost_of_masked h g r
      | caller params => exact callerMethod_of_masked h g now params q.params? q.headers
  exact ⟨congrArg (respond q.id) hserve.1, hserve.2⟩

/-- A link is put by a request whose parameters define it. -/
theorem onRequest_linkPut {q : Rpc.Request} {d : Link.Definition}
    (hmethod : q.method = "provider.link_put")
    (hd : Link.Definition.ofJson (q.params?.getD .null) = .ok d) (g : Ground σ κ) (now : Nat)
    (p : Provider σ κ) :
    (handler g now).onRequest q p = (respond q.id (p.linkPut g d).1, (p.linkPut g d).2) := by
  have hmem : (q.method, fun j ↦ (Link.Definition.ofJson j).map .linkPut) ∈ hostMethods :=
    hmethod ▸ List.mem_cons_self
  have hserve := serve_of_host (p := p) (r := .linkPut d) hmem (by rw [hd]; rfl) g now
  exact congrArg (fun s ↦ (respond q.id s.1, s.2)) hserve

/-! ## Work in the background -/

theorem runJob_rerouted (g : Ground σ κ) (now : Nat) (job : Job κ) (p : Provider σ κ)
    (router : Router κ) : runJob g now job (p.rerouted router) =
      (runJob g now job p).rerouted router := by
  obtain ⟨handle, connection, work⟩ := job
  cases work with
  | read id o => rfl
  | write change => cases change <;> rfl

theorem runNext_rerouted (g : Ground σ κ) (now : Nat) (mayRun : Job κ → Bool) (p : Provider σ κ)
    (router : Router κ) :
    (p.rerouted router).runNext g now mayRun = (p.runNext g now mayRun).rerouted router := by
  unfold runNext
  rw [jobs_rerouted]
  cases p.jobs.find? mayRun with
  | none => rfl
  | some job => exact runJob_rerouted g now job { p with jobs := p.jobs.eraseP mayRun } router

theorem runNext_of_masked (h : p.masked = p'.masked) (g : Ground σ κ) (now : Nat)
    (mayRun : Job κ → Bool) :
    (p.runNext g now mayRun).masked = (p'.runNext g now mayRun).masked :=
  masked_of_rerouted (fun p ↦ p.runNext g now mayRun) (runNext_rerouted g now mayRun) h

theorem sweep_of_masked (h : p.masked = p'.masked) (ttl now : Nat) :
    (p.sweep ttl now).masked = (p'.sweep ttl now).masked :=
  masked_of_rerouted (fun p ↦ p.sweep ttl now) (fun _ _ ↦ rfl) h

end Provider

/-! ## Two runs -/

open Memory

/-- Two requests that are the same, or that put a link with two passwords which are both let in or
both turned away. -/
inductive Rpc.Request.Twins (policy : Policy) : Rpc.Request → Rpc.Request → Prop
  | same (q : Rpc.Request) : Twins policy q q
  | linkPut {q : Rpc.Request} {params : Json} {d d' : Link.Definition}
      (hmethod : q.method = "provider.link_put")
      (hd : Link.Definition.ofJson (q.params?.getD .null) = .ok d)
      (hd' : Link.Definition.ofJson params = .ok d')
      (hdiffers : Link.DiffersInPassword d d')
      (hpassword : ∃ password, Link.Says d "password" password)
      (hpassword' : ∃ password, Link.Says d' "password" password)
      (hboth : ∀ a a', Link.Args.ofDefinition d = .ok a → Link.Args.ofDefinition d' = .ok a' →
        (policy.LetsIn a ↔ policy.LetsIn a')) :
      Twins policy q { q with params? := some params }

namespace Provider

variable {policy : Policy} {tokens : Nat → String} {p p' : Provider Store Collection}
  {q q' : Rpc.Request}

/-- Twin requests are answered alike and leave providers that are the same without passwords. -/
theorem onRequest_of_twins (h : p.masked = p'.masked) (hq : q.Twins policy q')
    (tokens : Nat → String) (now : Nat) :
    ((handler ⟨backend policy, tokens⟩ now).onRequest q p).1 =
        ((handler ⟨backend policy, tokens⟩ now).onRequest q' p').1 ∧
      ((handler ⟨backend policy, tokens⟩ now).onRequest q p).2.masked =
        ((handler ⟨backend policy, tokens⟩ now).onRequest q' p').2.masked := by
  cases hq with
  | same => exact onRequest_of_masked h _ now q
  | @linkPut params d d' hmethod hd hd' hdiffers hpassword hpassword' hboth =>
    obtain ⟨password, hpassword⟩ := hpassword
    obtain ⟨password', hpassword'⟩ := hpassword'
    have hargs := Link.ofDefinition_masked hdiffers hpassword hpassword'
    have hestablish : ∀ a a', Link.Args.ofDefinition d = .ok a →
        Link.Args.ofDefinition d' = .ok a' →
          ∀ s, (backend policy).establish a s = (backend policy).establish a' s := by
      intro a a' ha ha' s
      rw [ha, ha'] at hargs
      exact establish_of_masked (Except.ok.inj hargs) (hboth a a' ha ha') s
    obtain ⟨hanswer, hafter⟩ := linkPut_of_masked (g := ⟨backend policy, tokens⟩) h
      hdiffers.source hdiffers.name hargs hestablish
    rw [onRequest_linkPut hmethod hd,
      onRequest_linkPut (q := { q with params? := some params }) hmethod hd']
    exact ⟨congrArg (respond q.id) hanswer, hafter⟩

end Provider

/-- Two requests on their way that are twins and have the same response, if they have one. -/
structure Errand.Twins (policy : Policy) (errand errand' : Errand) : Prop where
  request : errand.request.Twins policy errand'.request
  response : errand.response? = errand'.response?

namespace Service

/-- The same happens, or two twin requests come in. -/
inductive Event.Twins (policy : Policy) : Event → Event → Prop
  | same (event : Event) : Twins policy event event
  | request {q q' : Rpc.Request} (h : q.Twins policy q') (now : Nat) :
      Twins policy (.inbound (.request q) now) (.inbound (.request q') now)

/-- Services that nothing tells apart but the passwords that came in. -/
structure Alike (policy : Policy) (s s' : Service Store Collection) : Prop where
  engine : s.engine = s'.engine
  provider : s.provider.masked = s'.provider.masked
  errands : ∃ both : List (Errand × Errand), s.errands = both.map Prod.fst ∧
    s'.errands = both.map Prod.snd ∧ ∀ pair ∈ both, pair.1.Twins policy pair.2
  sent : s.sent.map Prod.snd = s'.sent.map Prod.snd

variable {policy : Policy} {s s' : Service Store Collection} {event event' : Event}

theorem Alike.refl (policy : Policy) (s : Service Store Collection) : s.Alike policy s := by
  refine ⟨rfl, rfl, ⟨s.errands.map fun errand ↦ (errand, errand), ?_, ?_, ?_⟩, rfl⟩
  · simp [Function.comp_def]
  · simp [Function.comp_def]
  · intro pair hpair
    obtain ⟨errand, -, rfl⟩ := List.mem_map.1 hpair
    exact ⟨.same _, rfl⟩

theorem Alike.takeIn (h : s.Alike policy s') {q q' : Rpc.Request} (hq : q.Twins policy q') :
    Alike policy { s with errands := s.errands ++ [⟨q, none⟩] }
      { s' with errands := s'.errands ++ [⟨q', none⟩] } := by
  obtain ⟨both, hfst, hsnd, htwins⟩ := h.errands
  refine { h with errands := ⟨both ++ [(⟨q, none⟩, ⟨q', none⟩)], ?_, ?_, ?_⟩ }
  · simp [hfst]
  · simp [hsnd]
  · intro pair hpair
    rcases List.mem_append.1 hpair with hpair | hpair
    · exact htwins pair hpair
    · obtain rfl := List.mem_singleton.1 hpair
      exact ⟨hq, rfl⟩

theorem Alike.proceed (h : s.Alike policy s') (tokens : Nat → String) (n now : Nat) :
    Alike policy (s.proceed ⟨backend policy, tokens⟩ n now)
      (s'.proceed ⟨backend policy, tokens⟩ n now) := by
  obtain ⟨both, hfst, hsnd, htwins⟩ := h.errands
  have hat : s.errands[n]? = both[n]?.map Prod.fst := by rw [hfst, List.getElem?_map]
  have hat' : s'.errands[n]? = both[n]?.map Prod.snd := by rw [hsnd, List.getElem?_map]
  cases hpair : both[n]? with
  | none =>
    rw [hpair] at hat hat'
    rw [proceed_of_none hat, proceed_of_none hat']
    exact h
  | some pair =>
    obtain ⟨⟨q, response?⟩, ⟨q', response'?⟩⟩ := pair
    rw [hpair] at hat hat'
    obtain ⟨hq, hresponse⟩ := htwins _ (List.mem_of_getElem? hpair)
    change q.Twins policy q' at hq
    obtain rfl : response? = response'? := hresponse
    cases response? with
    | none =>
      obtain ⟨hanswer, hafter⟩ := Provider.onRequest_of_twins h.provider hq tokens now
      rw [proceed_of_open hat, proceed_of_open hat', ← hanswer]
      generalize
        ((Provider.handler ⟨backend policy, tokens⟩ now).onRequest q s.provider).1 = response
      refine { h with
        provider := hafter
        errands := ⟨both.set n (⟨q, some response⟩, ⟨q', some response⟩), ?_, ?_, ?_⟩ }
      · rw [hfst, List.map_set]
      · rw [hsnd, List.map_set]
      · intro pair hmem
        rcases List.mem_or_eq_of_mem_set hmem with hmem | rfl
        · exact htwins pair hmem
        · exact ⟨hq, rfl⟩
    | some response =>
      rw [proceed_of_served hat, proceed_of_served hat']
      refine { h with errands := ⟨both.eraseIdx n, ?_, ?_, ?_⟩, sent := ?_ }
      · rw [hfst, Pairing.map_eraseIdx]
      · rw [hsnd, Pairing.map_eraseIdx]
      · exact fun pair hmem ↦ htwins pair (List.mem_of_mem_eraseIdx hmem)
      · rw [List.map_append, List.map_append, h.sent]
        rfl

theorem Alike.step (h : s.Alike policy s') (hevent : event.Twins policy event')
    (tokens : Nat → String) :
    Alike policy (s.step ⟨backend policy, tokens⟩ event)
      (s'.step ⟨backend policy, tokens⟩ event') := by
  cases hevent with
  | request hq now => exact h.takeIn hq
  | same =>
    cases event with
    | inbound payload now =>
      cases payload with
      | request q => exact h.takeIn (.same q)
      | notification n => exact h
      | response r => exact { h with engine := congrArg (·.respond r) h.engine }
    | proceed n now => exact h.proceed tokens n now
    | work handle now =>
      exact { h with provider := Provider.runNext_of_masked h.provider _ now _ }
    | sweep ttl now => exact { h with provider := Provider.sweep_of_masked h.provider ttl now }

/-- Services to which twins happen go on alike. -/
theorem Alike.before (h : s.Alike policy s') (tokens : Nat → String) {both : List (Event × Event)}
    (htwins : ∀ pair ∈ both, pair.1.Twins policy pair.2) (i : Nat) :
    Alike policy (before ⟨backend policy, tokens⟩ s (both.map Prod.fst) i)
      (before ⟨backend policy, tokens⟩ s' (both.map Prod.snd) i) := by
  induction i with
  | zero => exact h
  | succ i ih =>
    have hat : (both.map Prod.fst)[i]? = both[i]?.map Prod.fst := List.getElem?_map
    have hat' : (both.map Prod.snd)[i]? = both[i]?.map Prod.snd := List.getElem?_map
    cases hpair : both[i]? with
    | none =>
      rw [hpair] at hat hat'
      rw [Service.before, Service.before, stateAt_succ_of_none _ _ hat,
        stateAt_succ_of_none _ _ hat']
      exact ih
    | some pair =>
      rw [hpair] at hat hat'
      rw [Service.before, Service.before, stateAt_succ _ _ hat, stateAt_succ _ _ hat']
      exact ih.step (htwins pair (List.mem_of_getElem? hpair)) tokens

/-- Nobody sees a password. Take two runs of a service in which the same happens at the same times,
but that links may be put with two passwords, wherever these come from; both are let in, or both are
turned away. Then the two services send the same responses and hold the same ones ready, the same is
fetched under every handle, and their routing tables are the same without the passwords, with the
reasons for connections that are not there. A report on the arguments of a link shows the same in
both runs, and a report on a secret shows the same of any secret. -/
theorem password_unseen (policy : Policy) (tokens : Nat → String) (s : Service Store Collection)
    {both : List (Event × Event)} (htwins : ∀ pair ∈ both, pair.1.Twins policy pair.2) (i : Nat)
    {t t' : Service Store Collection}
    (ht : before ⟨backend policy, tokens⟩ s (both.map Prod.fst) i = t)
    (ht' : before ⟨backend policy, tokens⟩ s (both.map Prod.snd) i = t') :
    t.sent.map Prod.snd = t'.sent.map Prod.snd ∧
    t.errands.map Errand.response? = t'.errands.map Errand.response? ∧
    t.provider.masked = t'.provider.masked ∧
    (∀ kind handle, t.provider.isReady kind handle = t'.provider.isReady kind handle ∧
      (t.provider.fetch kind handle).1 = (t'.provider.fetch kind handle).1) ∧
    (∀ route, (t.provider.router.link? route).map (fun a ↦ (a.args.masked, a.connection)) =
        (t'.provider.router.link? route).map (fun a ↦ (a.args.masked, a.connection)) ∧
      (t.provider.router.args? route).map Link.Args.report =
        (t'.provider.router.args? route).map Link.Args.report) ∧
    ∀ secret secret' : Secret, secret.report = secret'.report := by
  have halike : t.Alike policy t' := ht ▸ ht' ▸ (Alike.refl policy s).before tokens htwins i
  obtain ⟨errands, hfst, hsnd, hpairs⟩ := halike.errands
  refine ⟨halike.sent, ?_, halike.provider, fun kind handle ↦
    ⟨Provider.isReady_of_masked halike.provider kind handle,
      (Provider.fetch_of_masked halike.provider kind handle).1⟩, fun route ↦ ?_, fun _ _ ↦ rfl⟩
  · rw [hfst, hsnd, List.map_map, List.map_map]
    exact List.map_congr_left fun pair hpair ↦ (hpairs pair hpair).response
  · have hlink := Router.mapLinks_link? (congrArg Provider.router halike.provider) route
    unfold Router.args?
    rcases map_eq_map_cases hlink with ⟨hnone, hnone'⟩ | ⟨a, a', ha, ha', hmasked⟩
    · rw [hnone, hnone']
      exact ⟨rfl, rfl⟩
    · obtain ⟨hargs, hconnection⟩ := Attached.of_masked hmasked
      rw [ha, ha']
      simp only [Option.map_some, hargs, hconnection, Link.Args.report_of_masked hargs, and_self]

/-- A link without a password. -/
def openLink : Link.Definition :=
  ⟨"s", "default", .ofList [("bucketName", "b"), ("connectionString", "mem://h"),
    ("username", "u")], .empty⟩

/-- The link with bytes that are no text for a secret, and the password in its configuration. -/
def configuredLink : Link.Definition :=
  { openLink with
    config := openLink.config.insert "password" "one"
    secrets := openLink.secrets.insert "password" (.bytes [255]) }

/-- The link with another password for a secret. -/
def secretLink : Link.Definition :=
  { openLink with secrets := openLink.secrets.insert "password" (.string "two") }

def putRequest (d : Link.Definition) : Rpc.Request :=
  ⟨1, "provider.link_put", some d.toJson, .empty⟩

/-- Only one password is let in. -/
def guarded : Policy := { credentials? := some ("u", "three") }

/-- The link is put with a password or with another one, and then a document is asked for. -/
def twinRuns : List (Event × Event) :=
  [(.inbound (.request (putRequest configuredLink)) 0,
      .inbound (.request (putRequest secretLink)) 0)] ++
    ([.proceed 0 0, .proceed 0 0,
      .inbound (.request (Provider.documentRequest 2 "document.get")) 1, .proceed 0 1,
      .proceed 0 1] : List Event).map fun event ↦ (event, event)

/-- The service that a run leaves behind. -/
def guardedAfter (run : List Event) : Service Store Collection :=
  before ⟨backend guarded, fun _ ↦ ""⟩ (idle {} (.create {} .empty)) run 6

theorem not_letsIn_guarded {a : Link.Args} (h : a.password ≠ "three") : ¬ guarded.LetsIn a := by
  intro hin
  have haccepts := (letsIn_iff.1 hin).2
  simp only [Policy.accepts, guarded, Option.all_some, Bool.and_eq_true, decide_eq_true_eq]
    at haccepts
  exact h haccepts.2.symm

theorem twins_putRequest :
    (putRequest configuredLink).Twins guarded (putRequest secretLink) := by
  have hdiffers : Link.DiffersInPassword configuredLink secretLink := by
    refine ⟨rfl, rfl, fun key hkey ↦ ?_, fun key hkey ↦ ?_⟩
    · exact (Fields.get?_insert _ _ _ _).trans (if_neg hkey.symm)
    · rw [configuredLink, secretLink, Fields.get?_insert, Fields.get?_insert, if_neg hkey.symm,
        if_neg hkey.symm]
  refine .linkPut rfl (Link.Definition.ofJson_toJson configuredLink)
    (Link.Definition.ofJson_toJson secretLink) hdiffers ⟨"one", ?_⟩ ⟨"two", ?_⟩ fun a a' ha ha' ↦ ?_
  · exact Link.entry?_eq_some_iff.1 rfl
  · exact Link.entry?_eq_some_iff.1 rfl
  · cases ha
    cases ha'
    exact iff_of_false (not_letsIn_guarded (by decide)) (not_letsIn_guarded (by decide))

/-- Two passwords that are both turned away. The routing tables hold the one and the other, and the
caller who asks for a document gets the same answer in both runs. -/
theorem password_unseen_guarded :
    (∀ pair ∈ twinRuns, pair.1.Twins guarded pair.2) ∧
      ((guardedAfter (twinRuns.map Prod.fst)).provider.router.args? ⟨"s", "default"⟩).map
        Link.Args.password = some "one" ∧
      ((guardedAfter (twinRuns.map Prod.snd)).provider.router.args? ⟨"s", "default"⟩).map
        Link.Args.password = some "two" ∧
      (guardedAfter (twinRuns.map Prod.fst)).sent.length = 2 ∧
      (guardedAfter (twinRuns.map Prod.fst)).sent.map Prod.snd =
        (guardedAfter (twinRuns.map Prod.snd)).sent.map Prod.snd := by
  have htwins : ∀ pair ∈ twinRuns, pair.1.Twins guarded pair.2 := by
    intro pair hpair
    rcases List.mem_append.1 hpair with hpair | hpair
    · obtain rfl := List.mem_singleton.1 hpair
      exact .request twins_putRequest 0
    · obtain ⟨event, -, rfl⟩ := List.mem_map.1 hpair
      exact .same event
  obtain ⟨hsent, -⟩ := password_unseen guarded (fun _ ↦ "") (idle {} (.create {} .empty)) htwins 6
    rfl rfl
  refine ⟨htwins, ?_, ?_, ?_, hsent⟩
  · decide +kernel
  · decide +kernel
  · decide +kernel

end Service
end Depot
