import Depot.Proofs.Provider.Alike
import Depot.Proofs.Provider.Service

/-!
# Two services in step

Two providers are alike when nothing but their stores, the reasons for missing connections and what
is known under handles set aside tells them apart (`Pairing.Providers`). Every request keeps them
alike, and only one that asks for such a handle may be answered differently (`Providers.serve`); so
do work in the background and sweeps (`Providers.runNext`, `Providers.sweep`). So two services to
which the same happens send the same responses at the same time, but to those who ask for a handle
set aside (`Services.before`).
-/

set_option autoImplicit false
set_option relaxedAutoImplicit false

namespace Depot

variable {σ σ' κ κ' ι α : Type}

/-- Work by its handle and the name of the collection that it is for. -/
def Job.named (name : κ → ι) (job : Job κ) : String × Option ι × Background :=
  (job.handle, job.connection.named name, job.work)

namespace Pairing

/-- The queued work of a provider under handles that are not set aside. -/
def queued (aside : ResultKind → String → Bool) (name : κ → ι) (jobs : List (Job κ)) :
    List (String × Option ι × Background) :=
  (jobs.filter fun job ↦ !aside job.work.kind job.handle).map (Job.named name)

/-- Providers that nothing tells apart but their stores, and what is set aside. -/
structure Providers (w : Pairing σ σ' κ κ' ι) (p : Provider σ κ) (p' : Provider σ' κ') : Prop where
  settings : p.settings = p'.settings
  states : w.states p.store p'.store
  router : p.router.named w.name = p'.router.named w.name'
  readings : p.readings.AgreeBut (w.aside .reading) p'.readings
  mutations : p.mutations.AgreeBut (w.aside .mutation) p'.mutations
  jobs : queued w.aside w.name p.jobs = queued w.aside w.name' p'.jobs
  issued : p.issued = p'.issued
  stopped : p.stopped = p'.stopped

/-- The request asks for a handle that is set aside. -/
def mentions (w : Pairing σ σ' κ κ' ι) (q : Rpc.Request) : Bool :=
  match Provider.handleParams (q.params?.getD .null) with
  | .ok handle => [ResultKind.reading, ResultKind.mutation].any fun kind ↦
      w.aside kind handle &&
        (q.method = Provider.readyMethod kind || q.method = Provider.resultMethod kind)
  | .error _ => false

variable {w : Pairing σ σ' κ κ' ι} {g : Ground σ κ} {g' : Ground σ' κ'} {p : Provider σ κ}
  {p' : Provider σ' κ'} {connection : Connection κ} {connection' : Connection κ'}
  {kind : ResultKind} {handle : String} {q : Rpc.Request}

theorem not_aside_of_not_mentions (h : w.mentions q = false)
    (hmethod : q.method = Provider.readyMethod kind ∨ q.method = Provider.resultMethod kind)
    (hparams : Provider.handleParams (q.params?.getD .null) = .ok handle) :
    w.aside kind handle = false := by
  have hor : (decide (q.method = Provider.readyMethod kind) ||
      decide (q.method = Provider.resultMethod kind)) = true := by simpa using hmethod
  have hkind : kind ∈ [ResultKind.reading, ResultKind.mutation] := by cases kind <;> decide
  simp only [mentions, hparams, List.any_eq_false, Bool.and_eq_true, not_and] at h
  exact Bool.eq_false_iff.2 fun haside ↦ h kind hkind haside hor

/-! ## Requests of the host -/

namespace Providers

theorem linkPut (h : w.Providers p p') (hg : w.Grounds g g') (d : Link.Definition) :
    (p.linkPut g d).1 = (p'.linkPut g' d).1 ∧
      w.Providers (p.linkPut g d).2 (p'.linkPut g' d).2 := by
  simp only [Provider.linkPut, Router.attach]
  cases hargs : Link.Args.ofDefinition d with
  | error gap => exact ⟨rfl, h⟩
  | ok args =>
    obtain ⟨hconnection, hstates⟩ := hg.establish args _ _ h.states
    have hlink : Router.namedLink w.name ⟨args, (g.backend.establish args p.store).1⟩ =
        Router.namedLink w.name' ⟨args, (g'.backend.establish args p'.store).1⟩ :=
      Prod.ext rfl hconnection
    exact ⟨rfl, { h with
      states := hstates
      router := Router.mapLinks_attached h.router d.source d.name hlink }⟩

theorem isReady (h : w.Providers p p') (haside : w.aside kind handle = false) :
    p.isReady kind handle = p'.isReady kind handle := by
  cases kind with
  | reading => exact Deferred.isReady_congr (h.readings handle haside)
  | mutation => exact Deferred.isReady_congr (h.mutations handle haside)

theorem fetch_eq (h : w.Providers p p') (haside : w.aside kind handle = false) :
    (p.fetch kind handle).1 = (p'.fetch kind handle).1 := by
  cases kind with
  | reading => exact congrArg (Except.map _) (Deferred.fetch_congr (h.readings handle haside))
  | mutation => exact congrArg (Except.map _) (Deferred.fetch_congr (h.mutations handle haside))

/-- Whoever fetches, and be it under a handle set aside, leaves the providers alike. -/
theorem fetch (h : w.Providers p p') (kind : ResultKind) (handle : String) :
    w.Providers (p.fetch kind handle).2 (p'.fetch kind handle).2 := by
  cases kind with
  | reading => exact { h with readings := h.readings.fetch handle }
  | mutation => exact { h with mutations := h.mutations.fetch handle }

theorem serveHost (h : w.Providers p p') (hg : w.Grounds g g') {r : Provider.HostRequest}
    (hnames : r.Names q.method (q.params?.getD .null)) :
    (w.mentions q = false → (p.serveHost g r).1 = (p'.serveHost g' r).1) ∧
      w.Providers (p.serveHost g r).2 (p'.serveHost g' r).2 := by
  cases r with
  | linkPut d => exact ⟨fun _ ↦ (h.linkPut hg d).1, (h.linkPut hg d).2⟩
  | linkDel source link =>
    exact ⟨fun _ ↦ rfl, { h with router := Router.mapLinks_detach h.router ⟨source, link⟩ }⟩
  | health => exact ⟨fun _ ↦ rfl, h⟩
  | shutdown => exact ⟨fun _ ↦ rfl, { h with router := rfl, stopped := rfl }⟩
  | ready kind handle =>
    refine ⟨fun hmentions ↦ ?_, h⟩
    have haside := not_aside_of_not_mentions hmentions (Or.inl hnames.1) hnames.2
    simp only [Provider.serveHost, h.isReady haside]
  | fetch kind handle =>
    refine ⟨fun hmentions ↦ ?_, h.fetch kind handle⟩
    have haside := not_aside_of_not_mentions hmentions (Or.inr hnames.1) hnames.2
    simp only [Provider.serveHost, h.fetch_eq haside]

/-! ## Requests of callers -/

theorem document (h : w.Providers p p') (hg : w.Grounds g g')
    (hconnection : connection.named w.name = connection'.named w.name') (now : Nat)
    (op : Document.Operation) :
    (p.document g now connection op).1 = (p'.document g' now connection' op).1 ∧
      w.Providers (p.document g now connection op).2 (p'.document g' now connection' op).2 := by
  obtain ⟨heq, hstates⟩ := hg.document hconnection h.states now op
  exact ⟨congrArg (Provider.reply _ _) heq, { h with states := hstates }⟩

theorem keyValue (h : w.Providers p p') (hg : w.Grounds g g')
    (hconnection : connection.named w.name = connection'.named w.name') (now : Nat)
    (op : KeyValue.Operation) :
    (p.keyValue g now connection op).1 = (p'.keyValue g' now connection' op).1 ∧
      w.Providers (p.keyValue g now connection op).2 (p'.keyValue g' now connection' op).2 := by
  obtain ⟨heq, hstates⟩ := hg.keyValue hconnection h.states now op
  exact ⟨congrArg (Provider.reply _ _) heq, { h with states := hstates }⟩

theorem queued_append {aside : ResultKind → String → Bool} {name : κ → ι} {name' : κ' → ι}
    {jobs : List (Job κ)} {jobs' : List (Job κ')} {job : Job κ} {job' : Job κ'}
    (h : queued aside name jobs = queued aside name' jobs')
    (hjob : job.named name = job'.named name') :
    queued aside name (jobs ++ [job]) = queued aside name' (jobs' ++ [job']) := by
  obtain ⟨handle, connection, work⟩ := job
  obtain ⟨handle', connection', work'⟩ := job'
  obtain ⟨rfl, hrest⟩ := Prod.mk.inj hjob
  obtain ⟨hconnection, rfl⟩ := Prod.mk.inj hrest
  unfold queued at h ⊢
  rw [List.filter_append, List.filter_append, List.map_append, List.map_append, h]
  cases haside : aside work.kind handle <;> simp [haside, Job.named, hconnection]

theorem background (h : w.Providers p p') (hg : w.Grounds g g')
    (hconnection : connection.named w.name = connection'.named w.name') (work : Background) :
    (p.background g connection work).1 = (p'.background g' connection' work).1 ∧
      w.Providers (p.background g connection work).2 (p'.background g' connection' work).2 := by
  have hhandle : p.nextHandle g work = p'.nextHandle g' work := by
    rw [Provider.nextHandle, Provider.nextHandle, h.issued, hg.tokens]
  have hjobs : queued w.aside w.name (p.jobs ++ [⟨p.nextHandle g work, connection, work⟩]) =
      queued w.aside w.name' (p'.jobs ++ [⟨p'.nextHandle g' work, connection', work⟩]) :=
    queued_append h.jobs (by rw [Job.named, Job.named, hhandle, hconnection])
  refine ⟨congrArg (Except.ok ∘ Json.text) hhandle, ?_⟩
  cases work with
  | read id o =>
    have hreadings : (p.readings.submit (p.nextHandle g (.read id o))).AgreeBut (w.aside .reading)
        (p'.readings.submit (p'.nextHandle g' (.read id o))) := by
      rw [hhandle]
      exact h.readings.submit _
    exact { h with
      jobs := hjobs
      issued := congrArg (· + 1) h.issued
      readings := hreadings }
  | write change =>
    have hmutations : (p.mutations.submit (p.nextHandle g (.write change))).AgreeBut
        (w.aside .mutation) (p'.mutations.submit (p'.nextHandle g' (.write change))) := by
      rw [hhandle]
      exact h.mutations.submit _
    exact { h with
      jobs := hjobs
      issued := congrArg (· + 1) h.issued
      mutations := hmutations }

theorem serveCaller (h : w.Providers p p') (hg : w.Grounds g g')
    (hconnection : connection.named w.name = connection'.named w.name') (now : Nat)
    (r : Provider.CallerRequest) :
    (p.serveCaller g now connection r).1 = (p'.serveCaller g' now connection' r).1 ∧
      w.Providers (p.serveCaller g now connection r).2
        (p'.serveCaller g' now connection' r).2 := by
  cases r with
  | document op => exact h.document hg hconnection now op
  | background work => exact h.background hg hconnection work
  | keyValue op => exact h.keyValue hg hconnection now op

theorem callerMethod (h : w.Providers p p') (hg : w.Grounds g g') (now : Nat)
    (params : Wire.Decoder Provider.CallerRequest) (params? : Option Json)
    (headers : Fields String) :
    (p.callerMethod g now params params? headers).1 =
        (p'.callerMethod g' now params params? headers).1 ∧
      w.Providers (p.callerMethod g now params params? headers).2
        (p'.callerMethod g' now params params? headers).2 := by
  have hidentify : p.identify headers = p'.identify headers := by
    rw [Provider.identify, Provider.identify, h.settings]
  unfold Provider.callerMethod
  rw [hidentify]
  cases p'.identify headers with
  | error e => exact ⟨rfl, h⟩
  | ok who =>
    cases Provider.readParams params params? with
    | error e => exact ⟨rfl, h⟩
    | ok r =>
      have hfind := Router.mapLinks_find? h.router p.settings.defaultLink who
      simp only [Provider.resolve, Router.resolve]
      rw [← h.settings]
      rcases map_eq_map_cases hfind with ⟨hnone, hnone'⟩ | ⟨a, a', ha, ha', heq⟩
      · rw [hnone, hnone']
        exact ⟨rfl, h⟩
      · rw [ha, ha']
        exact h.serveCaller hg (congrArg Prod.snd heq) now r

/-- A request is answered alike, unless it asks for a handle set aside, and leaves the providers
alike whatever it asks for. -/
theorem serve (h : w.Providers p p') (hg : w.Grounds g g') (now : Nat) (q : Rpc.Request) :
    (w.mentions q = false → (p.serve g now q.method q.params? q.headers).1 =
        (p'.serve g' now q.method q.params? q.headers).1) ∧
      w.Providers (p.serve g now q.method q.params? q.headers).2
        (p'.serve g' now q.method q.params? q.headers).2 := by
  unfold Provider.serve
  cases hname : Provider.Method.ofName? q.method with
  | none => exact ⟨fun _ ↦ rfl, h⟩
  | some method =>
    cases method with
    | host params =>
      have hmem : (q.method, params) ∈ Provider.hostMethods := by
        simpa [Provider.methods] using Provider.ofName?_eq_some_iff.1 hname
      simp only [Provider.hostMethod]
      cases hread : Provider.readParams params q.params? with
      | error e => exact ⟨fun _ ↦ rfl, h⟩
      | ok r =>
        exact h.serveHost hg (Provider.names_of_mem hmem (Provider.readParams_eq_ok_iff.1 hread))
    | caller params =>
      have hserved := h.callerMethod hg now params q.params? q.headers
      exact ⟨fun _ ↦ hserved.1, hserved.2⟩

/-! ## Work in the background -/

theorem runJob (h : w.Providers p p') (hg : w.Grounds g g') {job : Job κ} {job' : Job κ'}
    (hjob : job.named w.name = job'.named w.name') (now : Nat) :
    w.Providers (Provider.runJob g now job p) (Provider.runJob g' now job' p') := by
  obtain ⟨handle, connection, work⟩ := job
  obtain ⟨handle', connection', work'⟩ := job'
  obtain ⟨rfl, hrest⟩ := Prod.mk.inj hjob
  obtain ⟨hconnection, rfl⟩ := Prod.mk.inj hrest
  have hrun := hg.document hconnection h.states now
  cases work with
  | read id o =>
    obtain ⟨heq, hstates⟩ := hrun (.get id o)
    exact { h with states := hstates, readings := h.readings.settle handle heq now }
  | write change =>
    cases change with
    | insert id d o =>
      obtain ⟨heq, hstates⟩ := hrun (.insert id d o)
      exact { h with states := hstates, mutations := h.mutations.settle handle heq now }
    | upsert id d o =>
      obtain ⟨heq, hstates⟩ := hrun (.upsert id d o)
      exact { h with states := hstates, mutations := h.mutations.settle handle heq now }
    | replace id d o =>
      obtain ⟨heq, hstates⟩ := hrun (.replace id d o)
      exact { h with states := hstates, mutations := h.mutations.settle handle heq now }
    | remove id o =>
      obtain ⟨heq, hstates⟩ := hrun (.remove id o)
      exact { h with states := hstates, mutations := h.mutations.settle handle heq now }

/-- The first work under a handle that is not set aside, and the work that is left without it. -/
theorem queued_find? {aside : ResultKind → String → Bool}
    (haside : ∀ kind, aside kind handle = false) (name : κ → ι) (jobs : List (Job κ)) :
    (jobs.find? fun job ↦ job.handle = handle).map (Job.named name) =
        (queued aside name jobs).find? (fun named ↦ named.1 = handle) ∧
      queued aside name (jobs.eraseP fun job ↦ job.handle = handle) =
        (queued aside name jobs).eraseP fun named ↦ named.1 = handle := by
  have hkept : (fun job : Job κ ↦ decide ((!aside job.work.kind job.handle) = true ∧
      decide (job.handle = handle) = true)) = fun job ↦ decide (job.handle = handle) := by
    funext job
    by_cases heq : job.handle = handle
    · simp [heq, haside]
    · simp [heq]
  have hkept' : (fun job : Job κ ↦ decide (job.handle = handle) &&
      !aside job.work.kind job.handle) = fun job ↦ decide (job.handle = handle) := by
    funext job
    by_cases heq : job.handle = handle
    · simp [heq, haside]
    · simp [heq]
  constructor
  · rw [queued, List.find?_map, List.find?_filter]
    exact congrArg (fun keep ↦ Option.map (Job.named name) (jobs.find? keep)) hkept.symm
  · rw [queued, queued, List.eraseP_map, List.eraseP_filter]
    exact congrArg (fun keep ↦ ((jobs.eraseP keep).filter _).map (Job.named name)) hkept'.symm

theorem runNext (h : w.Providers p p') (hg : w.Grounds g g')
    (haside : ∀ kind, w.aside kind handle = false) (now : Nat) :
    w.Providers (p.runNext g now fun job ↦ job.handle = handle)
      (p'.runNext g' now fun job ↦ job.handle = handle) := by
  obtain ⟨hfind, herase⟩ := queued_find? haside w.name p.jobs
  obtain ⟨hfind', herase'⟩ := queued_find? haside w.name' p'.jobs
  have hboth := hfind.trans (h.jobs ▸ hfind'.symm)
  unfold Provider.runNext
  rcases map_eq_map_cases hboth with ⟨hnone, hnone'⟩ | ⟨job, job', hjob, hjob', hnamed⟩
  · rw [hnone, hnone']
    exact h
  · rw [hjob, hjob']
    have hrest : w.Providers { p with jobs := p.jobs.eraseP fun job ↦ job.handle = handle }
        { p' with jobs := p'.jobs.eraseP fun job ↦ job.handle = handle } :=
      { h with jobs := herase.trans (h.jobs ▸ herase'.symm) }
    exact hrest.runJob hg hnamed now

theorem sweep (h : w.Providers p p') (ttl now : Nat) :
    w.Providers (p.sweep ttl now) (p'.sweep ttl now) :=
  { h with readings := h.readings.evict ttl now, mutations := h.mutations.evict ttl now }

end Providers

/-! ## Services -/

variable (w)

/-- A response with its request; it does not show where the request asks for a handle set aside. -/
def shown (answered : Rpc.Request × Rpc.Response) : Rpc.Request × Option Rpc.Response :=
  (answered.1, if w.mentions answered.1 then none else some answered.2)

def shownErrand (errand : Errand) : Rpc.Request × Option (Option Rpc.Response) :=
  (errand.request, errand.response?.map fun response ↦ (w.shown (errand.request, response)).2)

/-- Services that nothing tells apart but their stores, and what is set aside. -/
structure Services (s : Service σ κ) (s' : Service σ' κ') : Prop where
  engine : s.engine = s'.engine
  provider : w.Providers s.provider s'.provider
  errands : s.errands.map w.shownErrand = s'.errands.map w.shownErrand
  sent : s.sent.map w.shown = s'.sent.map w.shown

/-- The event carries out no work under a handle set aside. -/
def Spares : Service.Event → Prop
  | .work handle _ => ∀ kind, w.aside kind handle = false
  | _ => True

variable {w} {s : Service σ κ} {s' : Service σ' κ'} {event : Service.Event}

theorem map_eraseIdx {β γ : Type} (f : β → γ) (l : List β) (n : Nat) :
    (l.eraseIdx n).map f = (l.map f).eraseIdx n := by
  induction l generalizing n with
  | nil => rfl
  | cons a l ih =>
    cases n with
    | zero => rfl
    | succ n => exact congrArg (List.cons (f a)) (ih n)

namespace Services

theorem proceed (h : w.Services s s') (hg : w.Grounds g g') (n now : Nat) :
    w.Services (s.proceed g n now) (s'.proceed g' n now) := by
  have hat := congrArg (·[n]?) h.errands
  simp only [List.getElem?_map] at hat
  rcases map_eq_map_cases hat with ⟨hnone, hnone'⟩ | ⟨errand, errand', herrand, herrand', heq⟩
  · rw [Service.proceed_of_none hnone, Service.proceed_of_none hnone']
    exact h
  obtain ⟨q, response?⟩ := errand
  obtain ⟨q', response'?⟩ := errand'
  obtain ⟨rfl, hresponse⟩ := Prod.mk.inj heq
  rcases map_eq_map_cases hresponse with ⟨hnone, hnone'⟩ | ⟨r, r', hr, hr', hshown⟩
  · obtain rfl := hnone
    obtain rfl := hnone'
    obtain ⟨hanswer, hprovider⟩ := h.provider.serve hg now q
    have hshown : w.shownErrand
          ⟨q, some ((Provider.handler g now).onRequest q s.provider).1⟩ =
        w.shownErrand ⟨q, some ((Provider.handler g' now).onRequest q s'.provider).1⟩ := by
      simp only [shownErrand, shown, Option.map_some]
      cases hmentions : w.mentions q with
      | true => rfl
      | false => simp only [Provider.handler, hanswer hmentions]
    rw [Service.proceed_of_open herrand, Service.proceed_of_open herrand']
    refine { h with provider := hprovider, errands := ?_ }
    rw [List.map_set, List.map_set, h.errands, hshown]
  · obtain rfl := hr
    obtain rfl := hr'
    rw [Service.proceed_of_served herrand, Service.proceed_of_served herrand']
    refine { h with errands := ?_, sent := ?_ }
    · rw [map_eraseIdx, map_eraseIdx, h.errands]
    · rw [List.map_append, List.map_append, h.sent, List.map_singleton, List.map_singleton, shown,
        shown]
      exact congrArg (fun response ↦ _ ++ [(q, response)]) hshown

theorem step (h : w.Services s s') (hg : w.Grounds g g') (hspares : w.Spares event) :
    w.Services (s.step g event) (s'.step g' event) := by
  cases event with
  | inbound payload now =>
    cases payload with
    | request q =>
      refine { h with errands := ?_ }
      simp only [Service.step, Service.takeIn, List.map_append, h.errands]
    | notification n => exact { h with provider := h.provider }
    | response r => exact { h with engine := congrArg (·.respond r) h.engine }
  | proceed n now => exact h.proceed hg n now
  | work handle now => exact { h with provider := h.provider.runNext hg hspares now }
  | sweep ttl now => exact { h with provider := h.provider.sweep ttl now }

/-- Services that are alike stay alike as long as no work under handles set aside is carried out. -/
theorem before (h : w.Services s s') (hg : w.Grounds g g') {run : List Service.Event}
    (hspares : ∀ event ∈ run, w.Spares event) (i : Nat) :
    w.Services (Service.before g s run i) (Service.before g' s' run i) := by
  induction i with
  | zero => exact h
  | succ i ih =>
    cases hevent : run[i]? with
    | none =>
      rw [Service.before, Service.before, stateAt_succ_of_none _ _ hevent,
        stateAt_succ_of_none _ _ hevent]
      exact ih
    | some event =>
      rw [Service.before, Service.before, stateAt_succ _ _ hevent, stateAt_succ _ _ hevent]
      exact ih.step hg (hspares event (List.mem_of_getElem? hevent))

end Services
end Pairing
end Depot
