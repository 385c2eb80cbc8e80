import Depot.Proofs.Provider.Methods
import Depot.Proofs.Run

/-!
# What events do to work in the background

Requests are served, queued work is carried out, results are swept, and others change the store. An
event registers new work, or carries out work, or takes results, or does nothing of the kind
(`Effect`), and what it does to the work under one handle follows from that alone: unless the event
carries this work out, it stays queued and its task is what it was, or the task was ready and is
taken (`Keeps`).
-/

set_option autoImplicit false
set_option relaxedAutoImplicit false

namespace Depot

variable {σ κ : Type}

/-- The kind of the result that work comes to. -/
def Background.kind : Background → ResultKind
  | read .. => .reading
  | write _ => .mutation

/-- A task whose value is put into other words. -/
def Task.map {α β : Type} (f : α → β) (t : Task α) : Task β :=
  ⟨t.value?.map f, t.since?, t.ready⟩

namespace Provider

open Wire (Decoder)

/-- Something happens to a provider. The background carries out the first work in the queue that it
is let to; the store is changed by others. -/
inductive Event (σ κ : Type) where
  | request (q : Rpc.Request) (now : Nat)
  | work (mayRun : Job κ → Bool) (now : Nat)
  | sweep (ttl now : Nat)
  | store (s : σ)

def step (g : Ground σ κ) (p : Provider σ κ) : Event σ κ → Provider σ κ
  | .request q now => ((handler g now).onRequest q p).2
  | .work mayRun now => p.runNext g now mayRun
  | .sweep ttl now => p.sweep ttl now
  | .store store => { p with store }

/-- The provider that step `i` of a run finds. -/
abbrev before (g : Ground σ κ) (p : Provider σ κ) (run : List (Event σ κ)) (i : Nat) :
    Provider σ κ :=
  stateAt (step g) p run i

/-- The method that asks whether a result of a kind is ready. -/
def readyMethod : ResultKind → String
  | .reading => "document.get_result.ready"
  | .mutation => "document.mutation_result.ready"

/-- The method that fetches results of a kind. -/
def resultMethod : ResultKind → String
  | .reading => "document.get_result.get"
  | .mutation => "document.mutation_result.get"

/-- The request is to fetch the result under a handle. -/
def Asks (kind : ResultKind) (handle : String) (q : Rpc.Request) : Prop :=
  q.method = resultMethod kind ∧ handleParams (q.params?.getD .null) = .ok handle

/-- The event takes the result under a handle if it is ready: it is fetched, or may be swept. -/
def Event.Takes (kind : ResultKind) (handle : String) : Event σ κ → Prop
  | .request q _ => Asks kind handle q
  | .sweep _ _ => True
  | _ => False

/-- What is registered under a handle, with its result as callers get it. -/
def task? (p : Provider σ κ) : ResultKind → String → Option (Task Json)
  | .reading, handle => (p.readings.tasks.get? handle).map
      (Task.map (Outcome.toJson ReadResult.toJson DocumentError.toJson))
  | .mutation, handle => (p.mutations.tasks.get? handle).map
      (Task.map (Outcome.toJson Receipt.toJson DocumentError.toJson))

/-- The queued work under a handle. -/
def queue (p : Provider σ κ) (handle : String) : List (Job κ) :=
  p.jobs.filter (·.handle = handle)

variable {g : Ground σ κ} {p p' : Provider σ κ} {e : Event σ κ} {kind : ResultKind}
  {handle : String}

/-! ## One event -/

/-- What an event does to the work of a provider. -/
inductive Effect (g : Ground σ κ) (p : Provider σ κ) : Event σ κ → Provider σ κ → Prop
  | elsewhere (e : Event σ κ) (p' : Provider σ κ) (hreadings : p'.readings = p.readings)
      (hmutations : p'.mutations = p.mutations) (hjobs : p'.jobs = p.jobs)
      (hissued : p'.issued = p.issued) : Effect g p e p'
  | submit (e : Event σ κ) (connection : Connection κ) (work : Background) :
      Effect g p e (p.background g connection work).2
  | fetch (q : Rpc.Request) (now : Nat) (kind : ResultKind) (handle : String)
      (hasks : Asks kind handle q) : Effect g p (.request q now) (p.fetch kind handle).2
  | run (mayRun : Job κ → Bool) (now : Nat) (job : Job κ) (hjob : p.jobs.find? mayRun = some job) :
      Effect g p (.work mayRun now) (runJob g now job { p with jobs := p.jobs.eraseP mayRun })
  | sweep (ttl now : Nat) : Effect g p (.sweep ttl now) (p.sweep ttl now)

/-- A request of the host for a result names its kind by the method and gives the handle. -/
def HostRequest.Names (method : String) (params : Json) : HostRequest → Prop
  | .ready kind handle => method = readyMethod kind ∧ handleParams params = .ok handle
  | .fetch kind handle => method = resultMethod kind ∧ handleParams params = .ok handle
  | _ => True

theorem names_of_mem {method : String} {decoder : Decoder HostRequest} {params : Json}
    {r : HostRequest} (hmem : (method, decoder) ∈ hostMethods)
    (hparams : decoder params = .ok r) : r.Names method params := by
  simp only [hostMethods, List.mem_cons, Prod.mk.injEq, List.not_mem_nil, or_false] at hmem
  rcases hmem with ⟨_, rfl⟩ | ⟨_, rfl⟩ | ⟨_, rfl⟩ | ⟨_, rfl⟩ | ⟨hmethod, rfl⟩ | ⟨hmethod, rfl⟩ |
    ⟨hmethod, rfl⟩ | ⟨hmethod, rfl⟩
  case inr.inr.inl => cases hparams; trivial
  case inr.inr.inr.inl => cases hparams; trivial
  all_goals
    obtain ⟨other, hother, heq⟩ := map_eq_ok_iff.1 hparams
    cases heq
    first
    | exact ⟨hmethod, hother⟩
    | trivial

/-- Results are fetched by their method, with a handle. -/
theorem asks_of_fetch {q : Rpc.Request} {params : Decoder HostRequest}
    (hmem : (q.method, params) ∈ hostMethods)
    (hparams : params (q.params?.getD .null) = .ok (.fetch kind handle)) : Asks kind handle q :=
  names_of_mem hmem hparams

theorem effect_serveHost {q : Rpc.Request} {params : Decoder HostRequest} {r : HostRequest}
    (hmem : (q.method, params) ∈ hostMethods) (hparams : params (q.params?.getD .null) = .ok r)
    (now : Nat) : Effect g p (.request q now) (p.serveHost g r).2 := by
  cases r with
  | linkPut d =>
    rw [serveHost, linkPut]
    split <;> exact .elsewhere _ _ rfl rfl rfl rfl
  | fetch kind handle => exact .fetch q now kind handle (asks_of_fetch hmem hparams)
  | _ => exact .elsewhere _ _ rfl rfl rfl rfl

theorem effect_step (g : Ground σ κ) (p : Provider σ κ) (e : Event σ κ) :
    Effect g p e (p.step g e) := by
  cases e with
  | request q now =>
    change Effect g p _ (p.serve g now q.method q.params? q.headers).2
    rcases serve_cases g now q.method q.params? q.headers p with
      ⟨e, heq⟩ | ⟨params, r, hmem, hparams, heq⟩ | ⟨params, r, connection, _, _, heq⟩
    · rw [heq]
      exact .elsewhere _ _ rfl rfl rfl rfl
    · rw [heq]
      exact effect_serveHost hmem hparams now
    · rw [heq]
      cases r with
      | background work => exact .submit _ connection work
      | _ => exact .elsewhere _ _ rfl rfl rfl rfl
  | work mayRun now =>
    rw [step, runNext]
    split
    · exact .elsewhere _ _ rfl rfl rfl rfl
    · rename_i job hjob
      exact .run mayRun now job hjob
  | sweep ttl now => exact .sweep ttl now
  | store s => exact .elsewhere _ _ rfl rfl rfl rfl

theorem step_of_find? {mayRun : Job κ → Bool} {job : Job κ} (h : p.jobs.find? mayRun = some job)
    (now : Nat) :
    p.step g (.work mayRun now) = runJob g now job { p with jobs := p.jobs.eraseP mayRun } := by
  rw [step, runNext, h]

/-! ## Work under one handle -/

/-- The handle that the next work gets. -/
def nextHandle (g : Ground σ κ) (p : Provider σ κ) (work : Background) : String :=
  Deferred.handle work.label (g.tokens p.issued)

theorem map_get?_submit {α : Type} (f : α → Json) (d : Deferred α) (submitted handle : String) :
    ((d.submit submitted).tasks.get? handle).map (Task.map f) =
      if submitted = handle then some {} else (d.tasks.get? handle).map (Task.map f) := by
  rw [Deferred.get?_submit]
  split <;> rfl

theorem task?_background (g : Ground σ κ) (p : Provider σ κ) (connection : Connection κ)
    (work : Background) (kind : ResultKind) (handle : String) :
    (p.background g connection work).2.task? kind handle =
      if work.kind = kind ∧ p.nextHandle g work = handle then some {} else p.task? kind handle := by
  cases work with
  | read id o =>
    cases kind with
    | reading =>
      refine (map_get?_submit _ _ (p.nextHandle g (.read id o)) handle).trans ?_
      simp only [Background.kind, true_and]
      rfl
    | mutation => exact (if_neg fun h ↦ by cases h.1).symm
  | write w =>
    cases kind with
    | reading => exact (if_neg fun h ↦ by cases h.1).symm
    | mutation =>
      refine (map_get?_submit _ _ (p.nextHandle g (.write w)) handle).trans ?_
      simp only [Background.kind, true_and]
      rfl

theorem jobs_background (g : Ground σ κ) (p : Provider σ κ) (connection : Connection κ)
    (work : Background) : (p.background g connection work).2.jobs =
      p.jobs ++ [⟨p.nextHandle g work, connection, work⟩] := by
  cases work <;> rfl

theorem issued_background (g : Ground σ κ) (p : Provider σ κ) (connection : Connection κ)
    (work : Background) : (p.background g connection work).2.issued = p.issued + 1 := by
  cases work <;> rfl

theorem store_background (g : Ground σ κ) (p : Provider σ κ) (connection : Connection κ)
    (work : Background) : (p.background g connection work).2.store = p.store := by
  cases work <;> rfl

/-- The work is the operation, carried out at once on the store as it is then. -/
theorem store_runJob (g : Ground σ κ) (now : Nat) (job : Job κ) (p : Provider σ κ) :
    (runJob g now job p).store =
      (p.document g now job.connection job.work.operation).2.store := by
  obtain ⟨_, _, _ | w⟩ := job
  · rfl
  · cases w <;> rfl

/-- Work changes the store and the results, and nothing else. -/
theorem runJob_frame (g : Ground σ κ) (now : Nat) (job : Job κ) (p : Provider σ κ) :
    runJob g now job p = { p with
      store := (runJob g now job p).store
      readings := (runJob g now job p).readings
      mutations := (runJob g now job p).mutations } := by
  obtain ⟨_, _, _ | w⟩ := job
  · rfl
  · cases w <;> rfl

theorem jobs_runJob (g : Ground σ κ) (now : Nat) (job : Job κ) (p : Provider σ κ) :
    (runJob g now job p).jobs = p.jobs := by
  rw [runJob_frame]

theorem issued_runJob (g : Ground σ κ) (now : Nat) (job : Job κ) (p : Provider σ κ) :
    (runJob g now job p).issued = p.issued := by
  rw [runJob_frame]

theorem map_get?_settle_of_ne {α : Type} (f : α → Json) (d : Deferred α) {other : String}
    (hne : other ≠ handle) (value? : Option α) (now : Nat) :
    ((d.settle other value? now).tasks.get? handle).map (Task.map f) =
      (d.tasks.get? handle).map (Task.map f) := by
  rw [Deferred.get?_settle_of_ne d hne]

theorem task?_runJob_of_ne {job : Job κ} (hne : job.handle ≠ handle) (now : Nat) :
    (runJob g now job p).task? kind handle = p.task? kind handle := by
  obtain ⟨other, connection, work⟩ := job
  cases work with
  | read id o =>
    cases kind with
    | reading => exact map_get?_settle_of_ne _ p.readings hne _ now
    | mutation => rfl
  | write w =>
    cases kind with
    | reading => cases w <;> rfl
    | mutation => cases w <;> exact map_get?_settle_of_ne _ p.mutations hne _ now

/-- A value that is put down under a handle is the one that the operation answers at once. -/
theorem map_get?_settle_self {ε α : Type} {ofAnswer : α → Json} {ofError : ε → Json}
    {d : Deferred (Except ε α)}
    (h : (d.tasks.get? handle).map (Task.map (Outcome.toJson ofAnswer ofError)) = some {})
    (outcome? : Option (Except ε α)) (now : Nat) :
    ((d.settle handle outcome? now).tasks.get? handle).map
        (Task.map (Outcome.toJson ofAnswer ofError)) =
      (reply ofAnswer ofError outcome?).toOption.map
        fun result ↦ ⟨some result, some now, true⟩ := by
  obtain ⟨⟨value?, since?, ready⟩, htask, heq⟩ := Option.map_eq_some_iff.1 h
  obtain ⟨hvalue, rfl, rfl⟩ := Task.mk.inj heq
  obtain rfl := Option.map_eq_none_iff.1 hvalue
  rw [Deferred.get?_settle_self d htask]
  cases outcome? <;> rfl

/-- Work that comes back leaves what the operation answers, ready to be fetched; work that does not
come back leaves nothing. -/
theorem task?_runJob_self {job : Job κ} (h : p.task? job.work.kind job.handle = some {})
    (now : Nat) : (runJob g now job p).task? job.work.kind job.handle =
      (p.document g now job.connection job.work.operation).1.toOption.map
        fun result ↦ ⟨some result, some now, true⟩ := by
  obtain ⟨handle, connection, work⟩ := job
  cases work with
  | read id o => exact map_get?_settle_self h _ now
  | write w => cases w <;> exact map_get?_settle_self h _ now

/-- What is left of the work under a handle when something else happens. -/
structure Keeps (kind : ResultKind) (handle : String) (takes : Prop) (p p' : Provider σ κ) :
    Prop where
  queue : p'.queue handle = p.queue handle
  known : ∀ t, p'.task? kind handle = some t → p.task? kind handle = some t
  kept : ∀ t, p.task? kind handle = some t → t.ready = false ∨ ¬ takes →
    p'.task? kind handle = some t

theorem Keeps.of_eq {takes : Prop} (hqueue : p'.queue handle = p.queue handle)
    (htask : p'.task? kind handle = p.task? kind handle) : Keeps kind handle takes p p' where
  queue := hqueue
  known _ h := htask ▸ h
  kept _ h _ := htask ▸ h

/-- A registry that loses ready tasks at most. -/
theorem map_get?_kept {α : Type} {f : α → Json} {d d' : Deferred α} {keep : Task α → Prop}
    (hget : ∀ t, d'.tasks.get? handle = some t ↔ d.tasks.get? handle = some t ∧ keep t)
    (hkeep : ∀ t, t.ready = false → keep t) (t : Task Json) :
    ((d'.tasks.get? handle).map (Task.map f) = some t →
      (d.tasks.get? handle).map (Task.map f) = some t) ∧
    ((d.tasks.get? handle).map (Task.map f) = some t → t.ready = false →
      (d'.tasks.get? handle).map (Task.map f) = some t) := by
  simp only [Option.map_eq_some_iff]
  constructor
  · rintro ⟨t', ht', heq⟩
    exact ⟨t', ((hget t').1 ht').1, heq⟩
  · rintro ⟨t', ht', rfl⟩ hready
    exact ⟨t', (hget t').2 ⟨ht', hkeep t' hready⟩, rfl⟩

theorem Keeps.of_kept (hqueue : p'.queue handle = p.queue handle)
    (h : ∀ t, (p'.task? kind handle = some t → p.task? kind handle = some t) ∧
      (p.task? kind handle = some t → t.ready = false → p'.task? kind handle = some t)) :
    Keeps kind handle True p p' where
  queue := hqueue
  known t := (h t).1
  kept t ht hor := (h t).2 ht (hor.resolve_right (not_not_intro trivial))

theorem keeps_fetch (p : Provider σ κ) (kind : ResultKind) (handle : String) :
    Keeps kind handle True p (p.fetch kind handle).2 := by
  cases kind with
  | reading =>
    exact .of_kept rfl (map_get?_kept (d := p.readings)
      (fun _ ↦ Deferred.get?_fetch_eq_some_iff) fun _ hready _ ↦ hready)
  | mutation =>
    exact .of_kept rfl (map_get?_kept (d := p.mutations)
      (fun _ ↦ Deferred.get?_fetch_eq_some_iff) fun _ hready _ ↦ hready)

theorem task?_fetch_of_ne {kind' : ResultKind} {other : String}
    (hne : ¬ (kind' = kind ∧ other = handle)) :
    (p.fetch kind' other).2.task? kind handle = p.task? kind handle := by
  cases kind' with
  | reading =>
    cases kind with
    | reading => exact congrArg (Option.map _) (Deferred.get?_fetch_of_ne fun h ↦ hne ⟨rfl, h⟩)
    | mutation => rfl
  | mutation =>
    cases kind with
    | reading => rfl
    | mutation => exact congrArg (Option.map _) (Deferred.get?_fetch_of_ne fun h ↦ hne ⟨rfl, h⟩)

theorem keeps_sweep (p : Provider σ κ) (kind : ResultKind) (handle : String) (ttl now : Nat) :
    Keeps kind handle True p (p.sweep ttl now) := by
  cases kind with
  | reading =>
    exact .of_kept rfl (map_get?_kept (d := p.readings)
      (fun _ ↦ Deferred.get?_evict_eq_some_iff) fun _ ↦ Deferred.outlives_of_not_ready)
  | mutation =>
    exact .of_kept rfl (map_get?_kept (d := p.mutations)
      (fun _ ↦ Deferred.get?_evict_eq_some_iff) fun _ ↦ Deferred.outlives_of_not_ready)

/-- What is carried out is the first work that is let to, and it is in the queue no more. -/
theorem exists_of_find? {mayRun : Job κ → Bool} {job : Job κ} {jobs : List (Job κ)}
    (h : jobs.find? mayRun = some job) : ∃ earlier later, jobs = earlier ++ job :: later ∧
      jobs.eraseP mayRun = earlier ++ later ∧ earlier.filter mayRun = [] := by
  obtain ⟨hjob, earlier, later, rfl, hearlier⟩ := List.find?_eq_some_iff_append.1 h
  have hnone : ∀ other ∈ earlier, ¬ mayRun other = true := by simpa using hearlier
  refine ⟨earlier, later, rfl, ?_, List.filter_eq_nil_iff.2 hnone⟩
  rw [List.eraseP_append_right _ hnone, List.eraseP_cons_of_pos hjob]

theorem queue_eraseP_of_ne {mayRun : Job κ → Bool} {job : Job κ}
    (h : p.jobs.find? mayRun = some job) (hne : job.handle ≠ handle) :
    (p.jobs.eraseP mayRun).filter (·.handle = handle) = p.queue handle := by
  obtain ⟨earlier, later, hjobs, herase, _⟩ := exists_of_find? h
  rw [queue, herase, hjobs, List.filter_append, List.filter_append,
    List.filter_cons_of_neg (by simpa using hne)]

/-- Whatever happens, but that the work under a handle is carried out, keeps it. -/
theorem keeps_step (g : Ground σ κ) (p : Provider σ κ) (e : Event σ κ) (kind : ResultKind)
    (handle : String)
    (hfresh : ∀ label, (p.step g e).issued ≠ p.issued →
      Deferred.handle label (g.tokens p.issued) ≠ handle)
    (hother : ∀ mayRun now job, e = .work mayRun now → p.jobs.find? mayRun = some job →
      job.handle ≠ handle) :
    Keeps kind handle (e.Takes kind handle) p (p.step g e) := by
  have heffect := effect_step g p e
  generalize p.step g e = p' at heffect hfresh ⊢
  cases heffect with
  | elsewhere e p' hreadings hmutations hjobs hissued =>
    refine .of_eq (by rw [queue, hjobs, queue]) ?_
    cases kind with
    | reading => rw [task?, hreadings, task?]
    | mutation => rw [task?, hmutations, task?]
  | submit e connection work =>
    rw [issued_background] at hfresh
    have hne : p.nextHandle g work ≠ handle := hfresh work.label (Nat.succ_ne_self _)
    refine .of_eq ?_ ?_
    · rw [queue, jobs_background, List.filter_append, List.filter_cons_of_neg (by simpa using hne),
        List.filter_nil, List.append_nil, queue]
    · rw [task?_background, if_neg fun h ↦ hne h.2]
  | fetch q now kind' other hasks =>
    by_cases hsame : kind' = kind ∧ other = handle
    · obtain ⟨rfl, rfl⟩ := hsame
      have hkeeps := keeps_fetch p kind' other
      exact ⟨hkeeps.queue, hkeeps.known, fun t ht hor ↦
        hkeeps.kept t ht (hor.imp_right fun hnot ↦ absurd hasks hnot)⟩
    · refine .of_eq ?_ (task?_fetch_of_ne hsame)
      cases kind' <;> rfl
  | run mayRun now job hjob =>
    have hne := hother mayRun now job rfl hjob
    refine .of_eq ?_ ?_
    · rw [queue, jobs_runJob]
      exact queue_eraseP_of_ne hjob hne
    · rw [task?_runJob_of_ne hne]
      cases kind <;> rfl
  | sweep ttl now => exact keeps_sweep p kind handle ttl now

/-! ## Handles that were issued -/

theorem issued_le_step (g : Ground σ κ) (p : Provider σ κ) (e : Event σ κ) :
    p.issued ≤ (p.step g e).issued := by
  have heffect := effect_step g p e
  generalize p.step g e = p' at heffect
  cases heffect with
  | elsewhere _ _ _ _ _ hissued => exact Nat.le_of_eq hissued.symm
  | submit _ connection work =>
    rw [issued_background]
    exact Nat.le_succ _
  | fetch _ _ kind => cases kind <;> exact Nat.le_refl _
  | run mayRun now job =>
    have hissued := issued_runJob g now job { p with jobs := p.jobs.eraseP mayRun }
    exact Nat.le_of_eq hissued.symm
  | sweep => exact Nat.le_refl _

/-- Work in the queue has a handle with a token that was drawn. -/
def Owned (g : Ground σ κ) (p : Provider σ κ) : Prop :=
  ∀ job ∈ p.jobs, ∃ n label, n < p.issued ∧ job.handle = Deferred.handle label (g.tokens n)

theorem Owned.of_sublist (hp : p.Owned g) (hjobs : ∀ job ∈ p'.jobs, job ∈ p.jobs)
    (hissued : p.issued ≤ p'.issued) : p'.Owned g := by
  intro job hjob
  obtain ⟨n, label, hn, hhandle⟩ := hp job (hjobs job hjob)
  exact ⟨n, label, Nat.lt_of_lt_of_le hn hissued, hhandle⟩

theorem Owned.step (hp : p.Owned g) (e : Event σ κ) : (p.step g e).Owned g := by
  have hissued := issued_le_step g p e
  have heffect := effect_step g p e
  generalize p.step g e = p' at heffect hissued ⊢
  cases heffect with
  | elsewhere _ _ _ _ hjobs => exact hp.of_sublist (fun job h ↦ hjobs ▸ h) hissued
  | submit _ connection work =>
    intro job hjob
    rw [jobs_background] at hjob
    rcases List.mem_append.1 hjob with hjob | hjob
    · obtain ⟨n, label, hn, hhandle⟩ := hp job hjob
      exact ⟨n, label, Nat.lt_of_lt_of_le hn hissued, hhandle⟩
    · obtain rfl := List.mem_singleton.1 hjob
      rw [issued_background]
      exact ⟨p.issued, work.label, Nat.lt_succ_self _, rfl⟩
  | fetch _ _ kind => exact hp.of_sublist (fun job h ↦ by cases kind <;> exact h) hissued
  | run mayRun now job hjob =>
    refine hp.of_sublist (fun other h ↦ ?_) hissued
    rw [jobs_runJob] at h
    exact List.mem_of_mem_eraseP h
  | sweep => exact hp.of_sublist (fun job h ↦ h) hissued

theorem owned_before (hp : p.Owned g) (run : List (Event σ κ)) (i : Nat) :
    (before g p run i).Owned g :=
  stateAt_induction (P := fun _ (p' : Provider σ κ) ↦ p'.Owned g) (i := 0) hp
    (fun _ e _ _ h ↦ h.step e) (fun _ _ _ h ↦ h) (Nat.zero_le i)

end Provider
end Depot
