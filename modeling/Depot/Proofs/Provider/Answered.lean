import Depot.Proofs.Provider.Background
import Depot.Proofs.Provider.Lockstep
import Depot.Proofs.Provider.Verdict

/-!
# Every request is answered once

Work that is carried out in the background changes the store and what is registered under its
handle, and nothing else (`Providers.of_runNext`); so the service goes on as if this work had not
begun, and only who asks for its handle can tell. Work that does not come back takes its handle with
it (`task?_runJob_of_crashes`). Where nothing is registered nothing turns up (`task?_step_of_none`),
since later handles end in tokens of their own; so from then on the handle is not found.
-/

set_option autoImplicit false
set_option relaxedAutoImplicit false

namespace Depot

variable {σ κ : Type}

/-! ## Handles that are gone -/

namespace Provider

variable {g : Ground σ κ} {p : Provider σ κ} {e : Event σ κ} {kind : ResultKind} {handle : String}
  {job : Job κ} {q : Rpc.Request} {now : Nat}

/-- The request asks whether the result under a handle is ready, or for the result. -/
def Probes (kind : ResultKind) (handle : String) (q : Rpc.Request) : Prop :=
  (q.method = readyMethod kind ∨ q.method = resultMethod kind) ∧
    handleParams (q.params?.getD .null) = .ok handle

theorem isReady_of_task?_none (h : p.task? kind handle = none) :
    p.isReady kind handle = .error (.notFound handle) := by
  cases kind with
  | reading => exact Deferred.isReady_of_none (Option.map_eq_none_iff.1 h)
  | mutation => exact Deferred.isReady_of_none (Option.map_eq_none_iff.1 h)

/-- Where nothing is registered, whoever asks is told that the handle is not found. -/
theorem onRequest_of_none (h : p.task? kind handle = none) (hq : Probes kind handle q)
    (g : Ground σ κ) (now : Nat) :
    ((handler g now).onRequest q p).1 = respond q.id (.error (.handleNotFound handle)) := by
  obtain ⟨hready | hresult, hparams⟩ := hq
  · have hmem : (q.method, fun j ↦ (handleParams j).map (.ready kind)) ∈ hostMethods := by
      rw [hready]
      cases kind with
      | reading => exact List.mem_of_getElem? (i := 4) rfl
      | mutation => exact List.mem_of_getElem? (i := 6) rfl
    have hserved := serve_of_host (p := p) hmem (map_eq_ok_iff.2 ⟨handle, hparams, rfl⟩) g now
    simp only [handler, hserved, serveHost, isReady_of_task?_none h]
    rfl
  · simp only [handler, serve_of_asks ⟨hresult, hparams⟩, fetch_fst, h]
    rfl

theorem map_get?_settle_of_none {α : Type} (f : α → Json) {d : Deferred α}
    (h : (d.tasks.get? handle).map (Task.map f) = none) (other : String) (value? : Option α)
    (now : Nat) : ((d.settle other value? now).tasks.get? handle).map (Task.map f) = none := by
  rw [Deferred.get?_settle_of_none d other (Option.map_eq_none_iff.1 h), Option.map_none]

theorem task?_runJob_of_none (h : p.task? kind handle = none) (g : Ground σ κ) (job : Job κ)
    (now : Nat) : (runJob g now job p).task? kind handle = none := by
  obtain ⟨other, connection, work⟩ := job
  cases work with
  | read id o =>
    cases kind with
    | reading => exact map_get?_settle_of_none _ h other _ now
    | mutation => exact h
  | write w =>
    cases kind with
    | reading => cases w <;> exact h
    | mutation => cases w <;> exact map_get?_settle_of_none _ h other _ now

theorem run_of_crashes {op : Document.Operation} {connection : Connection κ} {s : σ}
    (h : (CallerRequest.document op).Crashes g now connection s) :
    (op.run g.backend connection now s).1 = none := by
  obtain ⟨c, hc, hcrash⟩ := h
  obtain rfl := Option.some.inj hc
  simp only [Document.Operation.run, hcrash, Document.Operation.ofAttempt]

theorem map_get?_settle_self_of_none {α : Type} (f : α → Json) (d : Deferred α) {value? : Option α}
    (h : value? = none) (now : Nat) :
    ((d.settle handle value? now).tasks.get? handle).map (Task.map f) = none := by
  rw [h, Deferred.settle, Deferred.get?_abandon, if_pos rfl, Option.map_none]

/-- Work that does not come back takes its handle with it. -/
theorem task?_runJob_of_crashes
    (h : (CallerRequest.document job.work.operation).Crashes g now job.connection p.store) :
    (runJob g now job p).task? job.work.kind job.handle = none := by
  have hrun := run_of_crashes h
  obtain ⟨handle, connection, work⟩ := job
  cases work with
  | read id o => exact map_get?_settle_self_of_none _ p.readings hrun now
  | write w => cases w <;> exact map_get?_settle_self_of_none _ p.mutations hrun now

/-- Nothing turns up under a handle that no work gets. -/
theorem task?_step_of_none (h : p.task? kind handle = none)
    (hfresh : ∀ label, (p.step g e).issued ≠ p.issued →
      Deferred.handle label (g.tokens p.issued) ≠ handle) :
    (p.step g e).task? kind handle = none := by
  have heffect := effect_step g p e
  generalize p.step g e = p' at heffect hfresh ⊢
  cases heffect with
  | elsewhere e p' hreadings hmutations =>
    cases kind with
    | reading => rwa [task?, hreadings]
    | mutation => rwa [task?, hmutations]
  | submit e connection work =>
    rw [issued_background] at hfresh
    have hne : p.nextHandle g work ≠ handle := hfresh work.label (Nat.succ_ne_self _)
    rwa [task?_background, if_neg fun h ↦ hne h.2]
  | fetch q now kind' other =>
    by_cases hsame : kind' = kind ∧ other = handle
    · obtain ⟨rfl, rfl⟩ := hsame
      refine Option.eq_none_iff_forall_ne_some.2 fun t ht ↦ ?_
      have hknown := (keeps_fetch p kind' other).known t ht
      rw [h] at hknown
      cases hknown
    · rwa [task?_fetch_of_ne hsame]
  | run mayRun now job hjob =>
    refine task?_runJob_of_none ?_ g job now
    cases kind <;> exact h
  | sweep ttl now =>
    refine Option.eq_none_iff_forall_ne_some.2 fun t ht ↦ ?_
    have hknown := (keeps_sweep p kind handle ttl now).known t ht
    rw [h] at hknown
    cases hknown

/-- Once work has not come back, nothing is ever registered under its handle again. -/
theorem task?_before_of_crashes {run : List (Event σ κ)} {k m : Nat} (hp : p.Owned g)
    (hfresh : FreshTokens g (before g p run run.length).issued) (hran : Ran g p run k job now)
    (hcrashes : (CallerRequest.document job.work.operation).Crashes g now job.connection
      (before g p run k).store) (hkm : k < m) :
    (before g p run m).task? job.work.kind job.handle = none := by
  obtain ⟨mayRun, hat, hjob⟩ := hran
  obtain ⟨n, label, hn, hhandle⟩ :=
    owned_before hp run k job (List.mem_of_find?_eq_some hjob)
  refine stateAt_induction (P := fun _ (p' : Provider σ κ) ↦
    p'.task? job.work.kind job.handle = none) (i := k + 1) ?_ ?_ (fun _ _ _ h ↦ h) hkm
  · rw [stateAt_succ _ _ hat, step_of_find? hjob]
    exact task?_runJob_of_crashes hcrashes
  · intro m e hkm he hnone
    refine task?_step_of_none hnone fun other hissued ↦ ?_
    -- the work had its token before this event draws another
    have hhad : n < (before g p run m).issued :=
      Nat.lt_of_lt_of_le hn (issued_before_mono g p run (Nat.le_of_succ_le hkm))
    have hdraws : (before g p run m).issued < ((before g p run m).step g e).issued :=
      Nat.lt_of_le_of_ne (issued_le_step g _ e) (Ne.symm hissued)
    have hlast := issued_before_mono g p run (List.getElem?_eq_some_iff.1 he).1
    rw [before, stateAt_succ _ _ he] at hlast
    rw [hhandle]
    exact (hfresh.handle_ne hhad (Nat.lt_of_lt_of_le hdraws hlast) label other).symm

/-- Work leaves the results under other handles alone. -/
theorem get?_readings_runJob {other : String}
    (h : ¬ (.reading = job.work.kind ∧ other = job.handle)) (g : Ground σ κ) (now : Nat) :
    (runJob g now job p).readings.tasks.get? other = p.readings.tasks.get? other := by
  obtain ⟨handle, connection, work⟩ := job
  cases work with
  | read id o => exact Deferred.get?_settle_of_ne p.readings (fun heq ↦ h ⟨rfl, heq.symm⟩) _ now
  | write w => cases w <;> rfl

theorem get?_mutations_runJob {other : String}
    (h : ¬ (.mutation = job.work.kind ∧ other = job.handle)) (g : Ground σ κ) (now : Nat) :
    (runJob g now job p).mutations.tasks.get? other = p.mutations.tasks.get? other := by
  obtain ⟨handle, connection, work⟩ := job
  have hne : .mutation = work.kind → handle ≠ other := fun hkind heq ↦ h ⟨hkind, heq.symm⟩
  cases work with
  | read id o => rfl
  | write w => cases w <;> exact Deferred.get?_settle_of_ne p.mutations (hne rfl) _ now

end Provider

/-! ## Work under one handle -/

namespace Pairing

variable {g : Ground σ κ} {p : Provider σ κ} {job : Job κ} {kind : ResultKind} {handle : String}
  {q : Rpc.Request}

/-- Two services on the same store, with one handle set aside. -/
def apart (σ κ : Type) (kind : ResultKind) (handle : String) : Pairing σ σ κ κ κ :=
  same σ κ fun kind' other ↦ kind' = kind ∧ other = handle

theorem queued_eraseP (name : κ → κ) {jobs : List (Job κ)}
    (hjob : jobs.find? (fun job ↦ job.handle = handle) = some job) :
    queued (apart σ κ job.work.kind handle).aside name
        (jobs.eraseP fun job ↦ job.handle = handle) =
      queued (apart σ κ job.work.kind handle).aside name jobs := by
  have hhandle : job.handle = handle := by simpa using List.find?_some hjob
  obtain ⟨earlier, later, hjobs, herase, _⟩ := Provider.exists_of_find? hjob
  rw [herase, hjobs]
  simp [queued, apart, same, hhandle]

/-- Work that is carried out shows only in the store, and to who asks for its handle. -/
theorem Providers.of_runNext (g : Ground σ κ) (now : Nat)
    (hjob : p.jobs.find? (fun job ↦ job.handle = handle) = some job) :
    (apart σ κ job.work.kind handle).Providers (p.runNext g now fun job ↦ job.handle = handle)
      { p with store := (p.runNext g now fun job ↦ job.handle = handle).store } := by
  have hhandle : job.handle = handle := by simpa using List.find?_some hjob
  have hrun : (p.runNext g now fun job ↦ job.handle = handle) = Provider.runJob g now job
      { p with jobs := p.jobs.eraseP fun job ↦ job.handle = handle } := by
    rw [Provider.runNext, hjob]
  have haside : ∀ {kind other}, (apart σ κ job.work.kind handle).aside kind other = false →
      ¬ (kind = job.work.kind ∧ other = job.handle) := by
    intro kind other h
    rw [hhandle]
    exact of_decide_eq_false h
  have hframe := Provider.runJob_frame g now job
    { p with jobs := p.jobs.eraseP fun job ↦ job.handle = handle }
  rw [hrun]
  exact {
    settings := by rw [hframe]
    states := rfl
    router := by rw [hframe]; rfl
    readings := fun other h ↦ Provider.get?_readings_runJob (haside h) g now
    mutations := fun other h ↦ Provider.get?_mutations_runJob (haside h) g now
    jobs := by rw [hframe]; exact queued_eraseP id hjob
    issued := by rw [hframe]
    stopped := by rw [hframe] }

end Pairing

namespace Service

open Provider (handler respond Probes CallCrashes FreshTokens CallerRequest)

variable {g : Ground σ κ} {s : Service σ κ} {run rest : List Event} {i k now : Nat}
  {handle : String} {job : Job κ} {q : Rpc.Request} {r : Rpc.Response}

/-- A response carries the number of its request, and either a result or an error. -/
theorem Served.shape (h : Served g s run k now q r) :
    r.id = q.id ∧ r.result?.isSome = !r.error?.isSome := by
  obtain ⟨n, _, _, rfl⟩ := h
  have hresponse : ((handler g now).onRequest q (before g s run k).provider).1 =
    respond q.id ((before g s run k).provider.serve g now q.method q.params? q.headers).1 := rfl
  rw [hresponse]
  cases ((before g s run k).provider.serve g now q.method q.params? q.headers).1 <;>
    exact ⟨rfl, rfl⟩

/-- A service whose errands have all come to an end has answered every request. -/
theorem accounted_of_nil (h : s.errands = []) : s.accounted = s.sent.map Prod.fst := by
  rw [accounted, h, List.map_nil, List.append_nil]

/-- Services go on alike whether work was carried out or was not begun, but for its handle. -/
theorem services_of_work (g : Ground σ κ) (now : Nat)
    (hjob : s.provider.jobs.find? (fun job ↦ job.handle = handle) = some job) :
    (Pairing.apart σ κ job.work.kind handle).Services (s.step g (.work handle now))
      { s with provider := { s.provider with
        store := (s.step g (.work handle now)).provider.store } } where
  engine := rfl
  provider := Pairing.Providers.of_runNext g now hjob
  errands := rfl
  sent := rfl

theorem spares_apart {kind : ResultKind} (h : ∀ now, .work handle now ∉ rest) :
    ∀ event ∈ rest, (Pairing.apart σ κ kind handle).Spares event := by
  intro event hevent
  cases event with
  | work other now =>
    refine fun kind' ↦ decide_eq_false fun hsame ↦ ?_
    obtain ⟨-, rfl⟩ := hsame
    exact h now hevent
  | _ => trivial

/-- Once work has not come back, all who ask for its handle are told that it is not found. -/
theorem answer_of_crashes (hs : s.provider.Owned g)
    (hfresh : FreshTokens g (before g s run run.length).provider.issued)
    (hwork : run[i]? = some (.work handle now))
    (hjob : (before g s run i).provider.jobs.find? (fun job ↦ job.handle = handle) = some job)
    (hcrashes : (CallerRequest.document job.work.operation).Crashes g now job.connection
      (before g s run i).provider.store) {now' : Nat} (hik : i < k)
    (hserved : Served g s run k now' q r) (hprobes : Probes job.work.kind handle q) :
    r = respond q.id (.error (.handleNotFound handle)) := by
  have hhandle : job.handle = handle := by simpa using List.find?_some hjob
  rw [provider_before] at hjob hcrashes
  have hran : Provider.Ran g s.provider (s.watched g run) i job now :=
    ⟨fun job ↦ job.handle = handle, watched_of_event hwork, hjob⟩
  have hnone := Provider.task?_before_of_crashes hs
    (by rwa [length_watched, ← provider_before]) hran hcrashes hik
  rw [← provider_before, hhandle] at hnone
  obtain ⟨n, _, _, rfl⟩ := hserved
  exact Provider.onRequest_of_none hnone hprobes g now'

/-- Every request is answered exactly once. Whatever comes in and whatever the calls of the store
come to, the requests that came in are those that were answered and those that are being answered,
and each of the latter is two steps from its answer at most, in whatever order they are brought on.
Nothing but an answer is sent. It carries the number of its request and either a result or an error;
its code is that of an internal error exactly if the request made a call that did not come back.
Work in the background that does not come back changes no answer that was given, and from then on
none but those to requests for its own handle, which is not found. -/
theorem answered_once (g : Ground σ κ) (engine : Rpc.Engine) (provider : Provider σ κ)
    (run : List Event) :
    let s := idle engine provider
    (∀ i, (before g s run i).accounted.Perm (requests (run.take i))) ∧
    (∀ i event, run[i]? = some event →
      (before g s run (i + 1)).sent = (before g s run i).sent ∨
      ∃ n now q r, event = .proceed n now ∧ (before g s run i).errands[n]? = some ⟨q, some r⟩ ∧
        (before g s run (i + 1)).sent = (before g s run i).sent ++ [(q, r)]) ∧
    (∀ i now, let found := before g s run i
      (∀ n < found.errands.length, (found.proceed g n now).due + 1 = found.due) ∧
      ((before g found (List.replicate found.due (.proceed 0 now)) found.due).sent.map
        Prod.fst).Perm (requests (run.take i))) ∧
    (∀ i q r, (q, r) ∈ (before g s run i).sent → ∃ k now, k < i ∧ Served g s run k now q r) ∧
    (∀ k now q r, Served g s run k now q r →
      r.id = q.id ∧ r.result?.isSome = !r.error?.isSome ∧
        (r.code? = some (-32603) ↔ CallCrashes g now (before g s run k).provider q)) ∧
    ∀ i handle now job, run[i]? = some (.work handle now) →
      (before g s run i).provider.jobs.find? (fun job ↦ job.handle = handle) = some job →
      let found := before g s run i
      let left := before g s run (i + 1)
      let untouched := { found with provider := { found.provider with
        store := left.provider.store } }
      left = { found with provider := left.provider } ∧
      (∀ rest, (∀ now, .work handle now ∉ rest) → ∀ j,
        (before g left rest j).sent.map (Pairing.apart σ κ job.work.kind handle).shown =
          (before g untouched rest j).sent.map (Pairing.apart σ κ job.work.kind handle).shown) ∧
      (provider.Reached g → FreshTokens g (before g s run run.length).provider.issued →
        (CallerRequest.document job.work.operation).Crashes g now job.connection
          found.provider.store →
        ∀ k now' q r, i < k → Served g s run k now' q r → Probes job.work.kind handle q →
          r = respond q.id (.error (.handleNotFound handle))) := by
  intro s
  have hnone : ∀ q r, ¬ s.Answers q r := by
    rintro q r (hsent | herrand)
    · cases hsent
    · cases herrand
  have haccounted : ∀ i, (before g s run i).accounted.Perm (requests (run.take i)) :=
    perm_accounted g s run
  refine ⟨haccounted, fun i event hevent ↦ ?_, fun i now ↦ ⟨fun n hn ↦ due_proceed hn g now, ?_⟩,
    fun i q r hsent ↦ exists_served hnone (Or.inl hsent), fun k now q r hserved ↦ ?_,
    fun i handle now job hwork hjob ↦ ?_⟩
  · rw [before, stateAt_succ _ _ hevent]
    exact sent_step g _ event
  · generalize hfound : before g s run i = found
    have hend := errands_after_due g now found
    have hlater := perm_accounted g found (List.replicate found.due (.proceed 0 now)) found.due
    have hidle : requests ((List.replicate found.due (.proceed 0 now)).take found.due) = [] := by
      rw [List.take_of_length_le (by simp), requests, List.filterMap_replicate_of_none rfl]
    rw [accounted_of_nil hend, hidle, List.append_nil] at hlater
    exact hlater.trans (hfound ▸ haccounted i)
  · refine ⟨hserved.shape.1, hserved.shape.2, ?_⟩
    obtain ⟨n, _, _, rfl⟩ := hserved
    exact Provider.code?_internal_iff
  · have hleft : before g s run (i + 1) = (before g s run i).step g (.work handle now) :=
      stateAt_succ _ _ hwork
    refine ⟨?_, fun rest hspares j ↦ ?_, fun hreached hfresh hcrashes k now' q r ↦ ?_⟩
    · rw [hleft]
      rfl
    · rw [hleft]
      exact ((services_of_work g now hjob).before (Pairing.grounds_same g _)
        (spares_apart hspares) j).sent
    · exact answer_of_crashes hreached.owned hfresh hwork hjob hcrashes

/-- A store that counts its calls; none of them comes back. -/
def silent : Ground Nat Unit :=
  ⟨⟨fun _ n ↦ (.ok ⟨.ok (), .live ()⟩, n), fun _ _ _ n ↦ (.crash, n + 1)⟩,
    fun n ↦ Uuid.text 0 (.ofNat n)⟩

def silentHandle : String := Deferred.handle "get.a" (silent.tokens 0)

/-- Two requests with the same number come in, and one of them works in the background; then
somebody asks for the result. -/
def sameNumber : List Event :=
  [.inbound (.request (Provider.documentRequest 2 "document.get_async")) 1, .proceed 0 1,
    .inbound (.request (Provider.documentRequest 2 "document.get")) 1, .proceed 1 1,
    .work silentHandle 5, .inbound (.request (Provider.resultRequest 3 silentHandle)) 9,
    .proceed 2 9]

theorem freshTokens_sameNumber : FreshTokens silent (before silent
    (idle {} (Provider.linked silent)) sameNumber sameNumber.length).provider.issued := by
  have hcount : (before silent (idle {} (Provider.linked silent)) sameNumber
    sameNumber.length).provider.issued = 1 := by decide +kernel
  rw [hcount]
  exact Provider.freshTokens_one fun n ↦ ⟨0, .ofNat n, rfl⟩

/-- Though no call comes back, all three are answered: the one at once with an internal error, and
the one who asks for the result that its handle is not found. -/
theorem answered_once_sameNumber :
    let s := idle {} (Provider.linked silent)
    let later := Provider.documentRequest 2 "document.get_async"
    let atOnce := Provider.documentRequest 2 "document.get"
    let ask := Provider.resultRequest 3 silentHandle
    let found := before silent s sameNumber 7
    ((before silent found (List.replicate found.due (.proceed 0 9)) found.due).sent.map
        Prod.fst).Perm [later, atOnce, ask] ∧
      (∃ r, Served silent s sameNumber 3 1 atOnce r ∧ r.id = 2 ∧ r.code? = some (-32603)) ∧
      Served silent s sameNumber 6 9 ask (respond 3 (.error (.handleNotFound silentHandle))) := by
  intro s later atOnce ask found
  obtain ⟨-, -, hdue, -, hserved, hwork⟩ :=
    answered_once silent {} (Provider.linked silent) sameNumber
  have hcrash : Served silent s sameNumber 3 1 atOnce
      ((handler silent 1).onRequest atOnce (before silent s sameNumber 3).provider).1 :=
    ⟨1, rfl, rfl, rfl⟩
  have hask : Served silent s sameNumber 6 9 ask
      ((handler silent 9).onRequest ask (before silent s sameNumber 6).provider).1 :=
    ⟨2, rfl, rfl, rfl⟩
  have hadmits : Provider.Admits (before silent s sameNumber 3).provider atOnce.headers
      ⟨⟨"u", "p", "b", "mem://h", none, none⟩, .live ()⟩ := ⟨"s", rfl, by decide, rfl⟩
  have hjobs : (before silent s sameNumber 4).provider.jobs =
    [⟨silentHandle, .live (), .read "a" {}⟩] := rfl
  refine ⟨(hdue 7 9).2, ⟨_, hcrash, ?_⟩, ?_⟩
  · obtain ⟨hid, -, hcode⟩ := hserved 3 1 atOnce _ hcrash
    exact ⟨hid, hcode.2 ⟨_, .document (.get "a" {}), _, List.mem_of_getElem? (i := 0) rfl, rfl,
      hadmits, _, rfl, rfl⟩⟩
  · obtain ⟨-, -, hgone⟩ := hwork 4 silentHandle 5 _ rfl
      (by rw [hjobs, List.find?_cons_of_pos (by simp)])
    have hreached : (Provider.linked silent).Reached silent :=
      ⟨{}, 0, [.request Provider.linkRequest 0], rfl⟩
    have hprobes : Probes .reading silentHandle ask := ⟨Or.inr rfl, rfl⟩
    have hanswer := hgone hreached freshTokens_sameNumber ⟨_, rfl, rfl⟩ 6 9 ask _ (by decide) hask
      hprobes
    rwa [hanswer] at hask

end Service
end Depot
