import Depot.Proofs.Memory.Unavailable
import Depot.Proofs.Provider.Background
import Depot.Proofs.Provider.Calls

/-!
# A link that could not be connected fails every use

Such a link is attached like any other, and stays in its place until it is attached again or ended
(`link?_step`). Whatever is asked by who means it (`admits_iff`) is in vain (`vain_of_leadsTo`):
documents and keys answer an error and nothing is changed, and work in the background comes to the
same error once it is carried out (`delivers_of_unavailable`). A link that could be connected leads
to a bucket, which stays in the store whatever happens (`grows_before`), so no call over it is ever
answered that the bucket is unavailable. `attach_settles` says so of every link that is attached in
a run of a service.
-/

set_option autoImplicit false
set_option relaxedAutoImplicit false

namespace Depot

open Memory

namespace Provider

section

variable {σ κ : Type} {g : Ground σ κ} {p : Provider σ κ} {e : Event σ κ} {q : Rpc.Request}
  {now : Nat} {reason : String} {route : Route} {a : Attached κ} {headers : Fields String}

/-! ## The link that headers mean -/

/-- The headers name the caller of a route, and mean the link there: by its name, or they name none
and it is the default one, or the caller's only one. -/
inductive Means (p : Provider σ κ) (headers : Fields String) : Route → Prop
  | named {source link : String} (hsource : headers.get? p.settings.sourceHeader = some source)
      (hcaller : source ≠ "") (hlink : headers.get? p.settings.linkHeader = some link)
      (hname : link ≠ "") : Means p headers ⟨source, link⟩
  | default {source : String} (hsource : headers.get? p.settings.sourceHeader = some source)
      (hcaller : source ≠ "") (hlink : ∀ link, headers.get? p.settings.linkHeader = some link →
        link = "") : Means p headers ⟨source, p.settings.defaultLink⟩
  | only {source link : String} (hsource : headers.get? p.settings.sourceHeader = some source)
      (hcaller : source ≠ "") (hlink : ∀ link, headers.get? p.settings.linkHeader = some link →
        link = "") (honly : ∀ other a, p.router.link? ⟨source, other⟩ = some a → other = link) :
      Means p headers ⟨source, link⟩

theorem filter_eq_none_iff {x? : Option String} :
    x?.filter (· ≠ "") = none ↔ ∀ x, x? = some x → x = "" := by
  simp [Option.filter_eq_none_iff]

theorem filter_eq_some_iff {x? : Option String} {x : String} :
    x?.filter (· ≠ "") = some x ↔ x? = some x ∧ x ≠ "" := by
  simp [Option.filter_eq_some_iff]

/-- Who means a link is let through to it, and nobody else is. -/
theorem admits_iff : Admits p headers a ↔
    ∃ route, Means p headers route ∧ p.router.link? route = some a := by
  constructor
  · rintro ⟨source, hsource, hcaller, hfind⟩
    have hmeant := (Router.find?_eq_some_iff _ _ _ _).1 hfind
    generalize hlink : (headers.get? p.settings.linkHeader).filter (· ≠ "") = link? at hmeant
    cases hmeant with
    | named link _ ha =>
      obtain ⟨hlink, hname⟩ := filter_eq_some_iff.1 hlink
      exact ⟨_, .named hsource hcaller hlink hname, ha⟩
    | default _ ha => exact ⟨_, .default hsource hcaller (filter_eq_none_iff.1 hlink), ha⟩
    | only link _ _ ha honly =>
      exact ⟨_, .only hsource hcaller (filter_eq_none_iff.1 hlink) honly, ha⟩
  · rintro ⟨route, hmeans, ha⟩
    cases hmeans with
    | @named source link hsource hcaller hlink hname =>
      refine ⟨source, hsource, hcaller, (Router.find?_eq_some_iff _ _ _ _).2 ?_⟩
      rw [filter_eq_some_iff.2 ⟨hlink, hname⟩]
      exact .named link a ha
    | @default source hsource hcaller hlink =>
      refine ⟨source, hsource, hcaller, (Router.find?_eq_some_iff _ _ _ _).2 ?_⟩
      rw [filter_eq_none_iff.2 hlink]
      exact .default a ha
    | @only source link hsource hcaller hlink honly =>
      refine ⟨source, hsource, hcaller, (Router.find?_eq_some_iff _ _ _ _).2 ?_⟩
      rw [filter_eq_none_iff.2 hlink]
      by_cases hdefault : p.settings.defaultLink = link
      · exact .default a (hdefault ▸ ha)
      · exact .only link a (fun a' ha' ↦ hdefault (honly _ a' ha')) ha honly

/-! ## What is asked in vain -/

/-- Once work is carried out it changes nothing, and nobody ever gets anything else under its handle
than one result. -/
structure Delivers (g : Ground σ κ) (p : Provider σ κ) (later : List (Event σ κ)) (job : Job κ)
    (j : Json) : Prop where
  waits : ∀ m, job ∈ (before g p later m).jobs ∨ ∃ k now, k < m ∧ Ran g p later k job now
  kept : ∀ k now, Ran g p later k job now →
    (before g p later (k + 1)).store = (before g p later k).store
  fetched : ∀ k now m ask now', Ran g p later k job now → k < m →
    Asks job.work.kind job.handle ask →
      (∀ j', Gets g now' (before g p later m) ask j' → j' = j) ∧
      ((∀ n e, k < n → n < m → later[n]? = some e → ¬ e.Takes job.work.kind job.handle) →
        Gets g now' (before g p later m) ask j)

/-- What a request of a caller comes to whose link could not be connected. -/
structure Vain (g : Ground σ κ) (now : Nat) (p : Provider σ κ) (q : Rpc.Request)
    (reason : String) : Prop where
  document : ∀ op, ReadsAs q (.document op) →
    Gets g now p q (Wire.tagged "err" DocumentError.other.toJson)
  keyValue : ∀ op, ReadsAs q (.keyValue op) → op.call? ≠ none →
    Gets g now p q (Wire.tagged "err" (StoreError.other "unavailable").toJson)
  background : ∀ work, ReadsAs q (.background work) →
    Gets g now p q (.text (p.nextHandle g work)) ∧
      ∀ later, let submitted := afterRequest g now p q
        FreshTokens g (before g submitted later later.length).issued →
        Delivers g submitted later ⟨p.nextHandle g work, .unavailable reason, work⟩
          (Wire.tagged "err" DocumentError.other.toJson)
  kept : ∀ r, ReadsAs q r → (afterRequest g now p q).store = p.store ∧
    (afterRequest g now p q).router = p.router

theorem delivers_of_unavailable (hp : p.Owned g) (work : Background) {later : List (Event σ κ)}
    (hfresh : FreshTokens g
      (before g (p.background g (.unavailable reason) work).2 later later.length).issued) :
    Delivers g (p.background g (.unavailable reason) work).2 later
      ⟨p.nextHandle g work, .unavailable reason, work⟩
      (Wire.tagged "err" DocumentError.other.toJson) := by
  have hsubmitted := submitted_background hp (.unavailable reason) work hfresh
  refine ⟨fun m ↦ ?_, fun k now hran ↦ ?_, fun k now m ask now' hran hkm hasks ↦ ?_⟩
  · exact (hsubmitted.waits_or_ran m).imp Waits.mem And.right
  · exact store_of_ran hran
  · obtain ⟨hanswered, hkept⟩ := hsubmitted.serve_of_ran hran hkm hasks now'
    simp only [gets_iff_serve]
    exact ⟨fun j' hj' ↦ (Except.ok.inj (hanswered j' hj')).symm, hkept⟩

/-- Whatever is asked over a link that could not be connected is in vain. -/
theorem vain_of_leadsTo (hp : p.Owned g) (h : LeadsTo p q.headers (.unavailable reason))
    (now : Nat) : Vain g now p q reason := by
  refine ⟨fun op hread ↦ ?_, fun op hread hcall ↦ ?_, fun work hread ↦ ?_, fun r hread ↦ ?_⟩
  · exact (gets_iff ⟨hread, h⟩).2 rfl
  · rw [gets_iff ⟨hread, h⟩]
    cases op with
    | listKeys bucket cursor? => exact absurd rfl hcall
    | _ => rfl
  · refine ⟨(gets_iff ⟨hread, h⟩).2 rfl, fun later ↦ ?_⟩
    rw [afterRequest_eq ⟨hread, h⟩]
    exact delivers_of_unavailable hp work
  · rw [afterRequest_eq ⟨hread, h⟩, store_serveCaller, router_serveCaller]
    refine ⟨?_, rfl⟩
    cases r.call? <;> rfl

/-- What is made of a call is an error only if the call fails. -/
theorem exists_fault_of_conclude {α β : Type} {attempt : Attempt α}
    {onAnswer : α → Except StoreError β} {onFault : Fault → Except StoreError β}
    {ofAnswer : β → Json} {j : Json} (hanswer : ∀ a, ∃ v, onAnswer a = .ok v)
    (hfault : ∀ f e, onFault f = .error e → e = .ofFault f)
    (h : reply ofAnswer StoreError.toJson (KeyValue.Operation.conclude onAnswer onFault attempt) =
      .ok (Wire.tagged "err" j)) :
    ∃ f, attempt = .fault f ∧ j = (StoreError.ofFault f).toJson := by
  have hok : ∀ v, reply ofAnswer StoreError.toJson (some (.ok v)) ≠ .ok (Wire.tagged "err" j) := by
    intro v hv
    have htag := (Wire.tagged_inj.1 (Except.ok.inj hv)).1
    contradiction
  cases attempt with
  | answer a =>
    obtain ⟨v, hv⟩ := hanswer a
    rw [KeyValue.Operation.conclude, hv] at h
    exact absurd h (hok v)
  | crash => contradiction
  | fault f =>
    rw [KeyValue.Operation.conclude] at h
    cases he : onFault f with
    | ok v =>
      rw [he] at h
      exact absurd h (hok v)
    | error e =>
      rw [he] at h
      obtain rfl := hfault f e he
      exact ⟨f, rfl, ((Wire.tagged_inj.1 (Except.ok.inj h)).2).symm⟩

/-- An operation that makes a call answers an error only for a fault of the call. -/
theorem exists_fault_of_err {connection : Connection κ} {op : KeyValue.Operation} {c : Call}
    (hc : op.call? = some c) {j : Json}
    (h : (p.serveCaller g now connection (.keyValue op)).1 = .ok (Wire.tagged "err" j)) :
    ∃ f, (g.backend.perform connection now c p.store).1 = .fault f ∧
      j = (StoreError.ofFault f).toJson := by
  cases op with
  | get bucket key =>
    cases hc
    refine exists_fault_of_conclude (fun a ↦ ⟨_, rfl⟩) (fun f e he ↦ ?_) h
    cases f <;> cases he <;> rfl
  | delete bucket key =>
    cases hc
    refine exists_fault_of_conclude (fun a ↦ ⟨_, rfl⟩) (fun f e he ↦ ?_) h
    cases f <;> cases he <;> rfl
  | listKeys bucket cursor? => cases hc
  | _ =>
    cases hc
    exact exists_fault_of_conclude (fun a ↦ ⟨_, rfl⟩) (fun f e he ↦ (Except.error.inj he).symm) h

theorem eq_unavailable_of_toJson {f : Fault}
    (h : (StoreError.other "unavailable").toJson = (StoreError.ofFault f).toJson) :
    ∃ text, f = .unavailable text := by
  have hback := congrArg StoreError.ofJson h
  rw [StoreError.ofJson_toJson, StoreError.ofJson_toJson] at hback
  have herror := Except.ok.inj hback
  cases f with
  | unavailable text => exact ⟨text, rfl⟩
  | _ => simp [StoreError.ofFault, Fault.kind] at herror

/-- Where no call is answered that nothing is available, no operation on keys is. -/
theorem not_gets_unavailable {connection : Connection κ} {op : KeyValue.Operation}
    (hq : Addresses p connection q (.keyValue op))
    (h : ∀ c reason, (g.backend.perform connection now c p.store).1 ≠
      .fault (.unavailable reason)) :
    ¬ Gets g now p q (Wire.tagged "err" (StoreError.other "unavailable").toJson) := by
  rw [gets_iff hq]
  intro hserve
  cases hc : op.call? with
  | none =>
    cases op with
    | listKeys bucket cursor? =>
      have hjson := (Wire.tagged_inj.1 (Except.ok.inj hserve)).2
      simp [KeyValue.Operation.noListing, StoreError.toJson, Wire.tagged] at hjson
    | _ => cases hc
  | some c =>
    obtain ⟨f, hfault, hjson⟩ := exists_fault_of_err hc hserve
    obtain ⟨text, rfl⟩ := eq_unavailable_of_toJson hjson
    exact h c text hfault

/-! ## Links stay in their place -/

/-- The request attaches a link at a route, or ends the one that is there. -/
def HostRequest.Relinks (route : Route) : HostRequest → Prop
  | .linkPut d => d.route = route ∧ ∃ args, Link.Args.ofDefinition d = .ok args
  | .linkDel source link => (⟨source, link⟩ : Route) = route
  | .shutdown => True
  | _ => False

/-- The host attaches a link at a route, or ends the one that is there. -/
def Event.Relinks (route : Route) : Event σ κ → Prop
  | .request q _ => ∃ params r, (q.method, params) ∈ hostMethods ∧
      params (q.params?.getD .null) = .ok r ∧ r.Relinks route
  | _ => False

theorem link?_serveHost {r : HostRequest} (h : ¬ r.Relinks route) (g : Ground σ κ)
    (p : Provider σ κ) : (p.serveHost g r).2.router.link? route = p.router.link? route := by
  cases r with
  | linkPut d =>
    rw [serveHost, linkPut]
    cases hargs : Link.Args.ofDefinition d with
    | error gap => rw [Router.attach, hargs]
    | ok args =>
      have hne : ¬ (⟨d.source, d.name⟩ : Route) = route := fun hroute ↦ h ⟨hroute, args, hargs⟩
      rw [Router.attach_eq_ok hargs]
      exact (Router.link?_insert _ _ _ _ _).trans (if_neg hne)
  | linkDel source link => exact (Router.link?_detach _ _ _).trans (if_neg h)
  | shutdown => exact absurd trivial h
  | fetch kind handle => cases kind <;> rfl
  | _ => rfl

/-- A link stays in its place unless the host attaches another one there, or ends it. -/
theorem link?_step (h : ¬ e.Relinks route) (g : Ground σ κ) (p : Provider σ κ) :
    (p.step g e).router.link? route = p.router.link? route := by
  cases e with
  | request q now =>
    have hstep : p.step g (.request q now) =
        (p.serve g now q.method q.params? q.headers).2 := rfl
    rw [hstep]
    rcases serve_cases g now q.method q.params? q.headers p with
      ⟨_, heq⟩ | ⟨params, r, hmethod, hparams, heq⟩ | ⟨_, r, connection, _, _, heq⟩
    · rw [heq]
    · rw [heq]
      exact link?_serveHost (fun hrelinks ↦ h ⟨params, r, hmethod, hparams, hrelinks⟩) g p
    · rw [heq, router_serveCaller]
  | work mayRun now =>
    rw [step, runNext]
    split
    · rfl
    · rw [runJob_frame]
  | sweep ttl now => rfl
  | store s => rfl

end

/-! ## Attaching -/

variable {policy : Policy} {tokens : Nat → String} {p : Provider Store Collection}
  {q : Rpc.Request} {d : Link.Definition} {args : Link.Args} {now : Nat}

/-- The request is to attach a link. -/
def Puts (q : Rpc.Request) (d : Link.Definition) : Prop :=
  q.method = "provider.link_put" ∧ Link.Definition.ofJson (q.params?.getD .null) = .ok d

/-- A link is attached: it is in its place, all others are as they were, and so are the buckets. -/
structure Attaches (g : Ground Store Collection) (now : Nat) (p : Provider Store Collection)
    (q : Rpc.Request) (route : Route) (a : Attached Collection) : Prop where
  answer : Gets g now p q .null
  link : (afterRequest g now p q).router.link? route = some a
  others : ∀ other, other ≠ route →
    (afterRequest g now p q).router.link? other = p.router.link? other
  kept : ∀ site b, p.store.get? site = some b → (afterRequest g now p q).store.get? site = some b
  new : ∀ site b, (afterRequest g now p q).store.get? site = some b →
    p.store.get? site = some b ∨ p.store.get? site = none ∧ b.IsNew

theorem attaches_of_puts (policy : Policy) (tokens : Nat → String) (hq : Puts q d)
    (hargs : Link.Args.ofDefinition d = .ok args) (now : Nat) (p : Provider Store Collection) :
    Attaches ⟨backend policy, tokens⟩ now p q d.route
      ⟨args, ((backend policy).establish args p.store).1⟩ := by
  have hmem : (q.method, fun j ↦ (Link.Definition.ofJson j).map HostRequest.linkPut) ∈
      hostMethods := by
    rw [hq.1]
    exact List.mem_of_getElem? (i := 0) rfl
  have hserve := serve_of_host (p := p) hmem (map_eq_ok_iff.2 ⟨d, hq.2, rfl⟩)
    ⟨backend policy, tokens⟩ now
  rw [serveHost, linkPut, Router.attach_eq_ok hargs] at hserve
  have hafter : afterRequest ⟨backend policy, tokens⟩ now p q =
      (p.serve ⟨backend policy, tokens⟩ now q.method q.params? q.headers).2 := rfl
  rw [hserve] at hafter
  refine ⟨gets_iff_serve.2 (congrArg Prod.fst hserve), ?_, fun other hne ↦ ?_, ?_, ?_⟩
  · rw [hafter]
    exact (Router.link?_insert _ _ _ _ _).trans (if_pos rfl)
  · rw [hafter]
    exact (Router.link?_insert _ _ _ _ _).trans (if_neg fun h ↦ hne h.symm)
  · rw [hafter]
    exact fun site ↦ (Store.get?_establish policy args p.store site).1
  · rw [hafter]
    exact fun site ↦ (Store.get?_establish policy args p.store site).2

/-- No event takes a bucket away. -/
theorem grows_step {e : Event Store Collection} (hown : ∀ s, e = .store s → s = p.store) :
    p.store.Grows (p.step ⟨backend policy, tokens⟩ e).store := by
  cases hcall : e.call? p with
  | some made =>
    obtain ⟨connection, now, c⟩ := made
    rw [store_step_of_some hcall]
    exact Store.grows_perform policy connection now c p.store
  | none =>
    rcases store_step_of_none hcall ⟨backend policy, tokens⟩ hown with hsame | ⟨args, hconnects⟩
    · rw [hsame]
      exact .refl _
    · rw [hconnects]
      exact (Store.grows_establish policy args p.store).1

end Provider

/-! ## Runs -/

namespace Service

open Provider (Attaches Gets Means Puts ReadsAs Vain create)

/-- In a run, nothing between step `i` and step `j` attaches a link at a route or ends the one that
is there. -/
def Untouched {σ κ : Type} (g : Ground σ κ) (s : Service σ κ) (run : List Event) (i j : Nat)
    (route : Route) : Prop :=
  ∀ (m : Nat) (event : Event), i < m → m < j → run[m]? = some event →
    ¬ ((before g s run m).seen event).Relinks route

theorem link?_before {σ κ : Type} {g : Ground σ κ} {s : Service σ κ} {run : List Event}
    {i j : Nat} {route : Route} (hij : i < j) (h : Untouched g s run i j route) :
    (before g s run j).provider.router.link? route =
      (before g s run (i + 1)).provider.router.link? route := by
  refine stateAt_induction (P := fun m (s' : Service σ κ) ↦ m ≤ j →
    s'.provider.router.link? route = (before g s run (i + 1)).provider.router.link? route)
    (i := i + 1) (fun _ ↦ rfl) ?_ ?_ hij (Nat.le_refl j)
  · intro m event him hevent ih hmj
    rw [provider_step, Provider.link?_step (h m event him hmj hevent)]
    exact ih (Nat.le_of_succ_le hmj)
  · intro m _ _ ih hmj
    exact ih (Nat.le_of_succ_le hmj)

theorem grows_before (policy : Policy) (tokens : Nat → String) (s : Service Store Collection)
    (run : List Event) {i j : Nat} (hij : i ≤ j) :
    (before ⟨backend policy, tokens⟩ s run i).provider.store.Grows
      (before ⟨backend policy, tokens⟩ s run j).provider.store := by
  refine stateAt_induction (P := fun _ (s' : Service Store Collection) ↦
    (before ⟨backend policy, tokens⟩ s run i).provider.store.Grows s'.provider.store)
    (.refl _) ?_ (fun _ _ _ ih ↦ ih) hij
  intro m event _ _ ih site b hb
  obtain ⟨b', hb'⟩ := ih site b hb
  rw [provider_step]
  exact Provider.grows_step (fun _ ↦ store_of_seen) site b' hb'

theorem owned_before {σ κ : Type} (g : Ground σ κ) (engine : Rpc.Engine) (settings : Settings)
    (store : σ) (run : List Event) (i : Nat) :
    (before g (idle engine (create settings store)) run i).provider.Owned g := by
  rw [provider_before]
  exact Provider.owned_before (fun _ hjob ↦ by cases hjob) _ i

/-- A link that could not be connected fails every use, and only such a link does. Take any run of a
service on a new store in which the host attaches a link that has all its entries. Then it is
attached, and no other link and no bucket is changed. If its connection string gives no host, or it
has other credentials than the store wants, or its host is not reached, it is in its place until the
host attaches another one there or ends it, every call over it is answered that it is unavailable,
and all that is asked by those who mean it is in vain. Otherwise it leads where its arguments say,
and whenever a call is made over it, the answer is never that the bucket is unavailable. -/
theorem attach_settles (policy : Policy) (tokens : Nat → String) (engine : Rpc.Engine)
    (settings : Settings) (run : List Event) {i n now : Nat} {q : Rpc.Request}
    {d : Link.Definition} {args : Link.Args} :
    let g : Ground Store Collection := ⟨backend policy, tokens⟩
    let s := idle engine (create settings .empty)
    run[i]? = some (.proceed n now) → (before g s run i).errands[n]? = some ⟨q, none⟩ →
      Puts q d → Link.Args.ofDefinition d = .ok args → ∃ connection,
        (before g s run (i + 1)).provider =
          Provider.afterRequest g now (before g s run i).provider q ∧
        Attaches g now (before g s run i).provider q d.route ⟨args, connection⟩ ∧
        (∀ j, i < j → Untouched g s run i j d.route →
          (before g s run j).provider.router.link? d.route = some ⟨args, connection⟩) ∧
        (policy.Excludes args → ∃ reason, connection = .unavailable reason ∧
          (∀ now' c store, g.backend.perform connection now' c store =
            (.fault (.unavailable reason), store)) ∧
          ∀ j now' q', i < j → Untouched g s run i j d.route →
            Means (before g s run j).provider q'.headers d.route →
            Vain g now' (before g s run j).provider q' reason) ∧
        (¬ policy.Excludes args → ∃ k, connection = .live k ∧ Store.Leads args k ∧
          ∀ j now', i < j →
            (∀ c reason, (g.backend.perform connection now' c
              (before g s run j).provider.store).1 ≠ .fault (.unavailable reason)) ∧
            ∀ q' op, Untouched g s run i j d.route →
              Means (before g s run j).provider q'.headers d.route →
              ReadsAs q' (.keyValue op) → ¬ Gets g now' (before g s run j).provider q'
                (Wire.tagged "err" (StoreError.other "unavailable").toJson)) := by
  intro g s hevent herrand hq hargs
  have hattaches := Provider.attaches_of_puts policy tokens hq hargs now
    (before g s run i).provider
  have hafter : (before g s run (i + 1)).provider =
      Provider.afterRequest g now (before g s run i).provider q := by
    rw [before, stateAt_succ _ _ hevent, step, proceed_of_open herrand]
    rfl
  generalize hconnection : ((backend policy).establish args (before g s run i).provider.store).1 =
    connection at hattaches
  have hlink : ∀ j, i < j → Untouched g s run i j d.route →
      (before g s run j).provider.router.link? d.route = some ⟨args, connection⟩ := by
    intro j hij huntouched
    rw [link?_before hij huntouched, hafter]
    exact hattaches.link
  refine ⟨connection, hafter, hattaches, hlink, fun hexcludes ↦ ?_, fun hnot ↦ ?_⟩
  · obtain ⟨reason, hreason⟩ := Store.establish_of_excludes hexcludes
      (before g s run i).provider.store
    obtain rfl : connection = .unavailable reason := hconnection.symm.trans hreason
    refine ⟨reason, rfl, fun _ _ _ ↦ rfl, fun j now' q' hij huntouched hmeans ↦ ?_⟩
    have hadmits := Provider.admits_iff.2 ⟨_, hmeans, hlink j hij huntouched⟩
    exact Provider.vain_of_leadsTo (owned_before g engine settings .empty run j)
      ⟨_, hadmits, rfl⟩ now'
  · obtain ⟨k, hk, hleads⟩ := Store.establish_of_not_excludes hnot
      (before g s run i).provider.store
    obtain rfl : connection = .live k := hconnection.symm.trans hk
    refine ⟨k, rfl, hleads, fun j now' hij ↦ ?_⟩
    have hgrounded := Provider.grounded_before policy tokens engine settings run (i + 1)
    obtain ⟨b, hb⟩ := hgrounded d.route ⟨args, .live k⟩ k (hafter ▸ hattaches.link) rfl
    obtain ⟨b', hb'⟩ := grows_before policy tokens s run hij k.site b hb
    have hcalls := fun c reason ↦ Store.perform_ne_unavailable hb' policy now' c reason
    refine ⟨hcalls, fun q' op huntouched hmeans hread ↦ ?_⟩
    have hadmits := Provider.admits_iff.2 ⟨_, hmeans, hlink j hij huntouched⟩
    exact Provider.not_gets_unavailable ⟨hread, _, hadmits, rfl⟩ hcalls

/-- The host attaches a link to a host that is not reached. -/
def deadRun : List Event :=
  [.inbound (.request Provider.linkRequest) 0, .proceed 0 0, .proceed 0 0]

/-- Its caller stores under a key in vain, and reads a document in the background in vain. -/
theorem attach_settles_deadRun :
    let policy : Policy := { unreachable := ["h"] }
    let tokens : Nat → String := fun n ↦ Uuid.text 0 (.ofNat n)
    let g : Ground Store Collection := ⟨backend policy, tokens⟩
    let s := idle {} (create {} .empty)
    let p := (before g s deadRun 3).provider
    let args : Link.Args := ⟨"u", "p", "b", "mem://h", none, none⟩
    let later : List (Provider.Event Store Collection) := [.work (fun _ ↦ true) 7]
    policy.Excludes args ∧ Means p Provider.callerHeaders ⟨"s", "default"⟩ ∧
      Gets g 5 p Provider.setRequest (.object [("err", .object [("other", .text "unavailable")])]) ∧
      ∃ handle, Gets g 6 p (Provider.documentRequest 3 "document.get_async") (.text handle) ∧
        ∃ job, job.handle = handle ∧ Provider.Delivers g
          (Provider.afterRequest g 6 p (Provider.documentRequest 3 "document.get_async")) later job
          (.object [("err", .text "other")]) := by
  intro policy tokens g s p args later
  have hhost : Address.IsHost "mem://h" "h" := Address.host?_eq_some_iff.1 rfl
  have hexcludes : policy.Excludes args := .unreached hhost List.mem_cons_self
  have hmeans : Means p Provider.callerHeaders ⟨"s", "default"⟩ :=
    .default rfl (by decide) nofun
  obtain ⟨connection, -, -, -, hvain, -⟩ := attach_settles policy tokens {} {} deadRun (i := 1)
    (n := 0) (d := ⟨"s", "default", .ofList [("bucketName", "b"), ("connectionString", "mem://h"),
      ("username", "u")], .ofList [("password", .string "p")]⟩) rfl rfl ⟨rfl, rfl⟩ rfl
  obtain ⟨reason, -, -, hvain⟩ := hvain hexcludes
  have huntouched : Untouched g s deadRun 1 3 ⟨"s", "default"⟩ := by
    intro m event hm hlast hevent
    obtain rfl : m = 2 := by omega
    cases hevent
    exact id
  have hset := hvain 3 5 Provider.setRequest (by decide) huntouched hmeans
  have hget := hvain 3 6 (Provider.documentRequest 3 "document.get_async") (by decide) huntouched
    hmeans
  obtain ⟨hhandle, hdelivers⟩ := hget.background (.read "a" {})
    ⟨_, List.mem_of_getElem? (i := 11) rfl, rfl⟩
  have hfresh : Provider.FreshTokens g (Provider.before g (Provider.afterRequest g 6 p
      (Provider.documentRequest 3 "document.get_async")) later later.length).issued := by
    refine ⟨fun i _ ↦ ⟨0, .ofNat i, rfl⟩, fun i j hij hj ↦ ?_⟩
    have hcount : (Provider.before g (Provider.afterRequest g 6 p
      (Provider.documentRequest 3 "document.get_async")) later later.length).issued = 1 := rfl
    omega
  exact ⟨hexcludes, hmeans, hset.keyValue (.set "" "a" [255])
    ⟨_, List.mem_of_getElem? (i := 17) rfl, rfl⟩ nofun, _, hhandle, _, rfl, hdelivers later hfresh⟩

end Service
end Depot
