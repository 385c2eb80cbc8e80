import Depot.Proofs.Provider.Effect
import Depot.Uuid

/-!
# Operations in the background

A method that works in the background reads the same parameters as the one that works at once, and
passes the same gate; so it is refused when the other is, with the same error, and else its work is
the operation of the other (`served_alike`). Work keeps the connection that was found for it, and no
other work has its handle, since a handle ends in a token of its own. So it waits in the queue
whatever happens, and when it is carried out it meets the store as it is then; what it puts down is
what the operation would have answered there, and stays until somebody takes it.
-/

set_option autoImplicit false
set_option relaxedAutoImplicit false

namespace Depot.Provider

open Wire (Decoder)

variable {σ κ : Type}

/-! ## At once and in the background -/

/-- Both read the same parameters, the one as an operation, the other as the same operation for the
background. -/
def Dual (atOnce later : Decoder CallerRequest) : Prop :=
  ∀ j, (∃ m, atOnce j = .error m ∧ later j = .error m) ∨
    ∃ work : Background, atOnce j = .ok (.document work.operation) ∧
      later j = .ok (.background work)

theorem dual_of_map {α : Type} (params : Decoder α) (work : α → Background) :
    Dual (fun j ↦ (params j).map fun a ↦ .document (work a).operation)
      (fun j ↦ (params j).map fun a ↦ .background (work a)) := by
  intro j
  cases hparams : params j with
  | error m =>
    exact Or.inl ⟨m, by simp only [hparams, Except.map], by simp only [hparams, Except.map]⟩
  | ok a =>
    exact Or.inr ⟨work a, by simp only [hparams, Except.map], by simp only [hparams, Except.map]⟩

/-- The methods that can work in the background. -/
def dualNames : List String :=
  ["document.get", "document.insert", "document.upsert", "document.replace", "document.remove"]

theorem dual_of_mem : ∀ name ∈ dualNames, ∃ atOnce later, (name, atOnce) ∈ callerMethods ∧
    (name ++ "_async", later) ∈ callerMethods ∧ Dual atOnce later := by
  simp only [dualNames, List.forall_mem_cons, List.not_mem_nil, false_implies, implies_true,
    and_true]
  refine ⟨⟨_, _, List.mem_of_getElem? (i := 0) rfl, List.mem_of_getElem? (i := 11) rfl, ?_⟩,
    ⟨_, _, List.mem_of_getElem? (i := 1) rfl, List.mem_of_getElem? (i := 12) rfl, ?_⟩,
    ⟨_, _, List.mem_of_getElem? (i := 2) rfl, List.mem_of_getElem? (i := 13) rfl, ?_⟩,
    ⟨_, _, List.mem_of_getElem? (i := 3) rfl, List.mem_of_getElem? (i := 14) rfl, ?_⟩,
    ⟨_, _, List.mem_of_getElem? (i := 4) rfl, List.mem_of_getElem? (i := 15) rfl, ?_⟩⟩
  · exact dual_of_map (idParams Options.Read.ofJson {}) fun p ↦ .read p.1 p.2
  · exact dual_of_map (documentParams Options.Write.ofJson {}) fun p ↦
      .write (.insert p.1 p.2.1 p.2.2)
  · exact dual_of_map (documentParams Options.Write.ofJson {}) fun p ↦
      .write (.upsert p.1 p.2.1 p.2.2)
  · exact dual_of_map (documentParams Options.Replace.ofJson {}) fun p ↦
      .write (.replace p.1 p.2.1 p.2.2)
  · exact dual_of_map (idParams Options.Remove.ofJson {}) fun p ↦ .write (.remove p.1 p.2)

variable {g : Ground σ κ} {p p' : Provider σ κ} {connection : Connection κ} {work : Background}
  {kind : ResultKind} {handle : String}

theorem ne_crashed_of_identify {headers : Fields String} {e : ProviderError}
    (h : p.identify headers = .error e) : e ≠ .crashed := by
  rw [identify, Identity.ofHeaders] at h
  cases hsource : Identity.header? headers p.settings.sourceHeader with
  | none =>
    rw [hsource] at h
    cases h
    intro hcrashed
    cases hcrashed
  | some source =>
    rw [hsource] at h
    cases h

theorem ne_crashed_of_resolve {who : Identity} {e : ProviderError}
    (h : p.resolve who = .error e) : e ≠ .crashed := by
  rw [resolve, Router.resolve] at h
  split at h
  · cases h
  · cases h
    exact nofun

/-- A request for the background is refused as the other one would be, or it is for the same
operation over the same connection. -/
theorem served_alike (g : Ground σ κ) (now : Nat) (p : Provider σ κ) {name : String}
    (hname : name ∈ dualNames) (params? : Option Json) (headers : Fields String) :
    (∃ e, e ≠ .crashed ∧ p.serve g now name params? headers = (.error e, p) ∧
      p.serve g now (name ++ "_async") params? headers = (.error e, p)) ∨
    ∃ who connection work, p.identify headers = .ok who ∧ p.resolve who = .ok connection ∧
      p.serve g now name params? headers = p.document g now connection work.operation ∧
      p.serve g now (name ++ "_async") params? headers = p.background g connection work := by
  obtain ⟨atOnce, later, hatOnce, hlater, hdual⟩ := dual_of_mem name hname
  rw [serve_of_ofName? (ofName?_of_caller hatOnce), serve_of_ofName? (ofName?_of_caller hlater)]
  rcases hdual (params?.getD .null) with ⟨m, hm, hm'⟩ | ⟨work, hwork, hwork'⟩
  · -- both find the same fault in the parameters, if they come to read them
    unfold callerMethod
    cases hidentify : p.identify headers with
    | error e => exact Or.inl ⟨e, ne_crashed_of_identify hidentify, rfl, rfl⟩
    | ok who =>
      rw [readParams_of_error hm, readParams_of_error hm']
      exact Or.inl ⟨.ofMismatch m, nofun, rfl, rfl⟩
  · unfold callerMethod
    rw [readParams_eq_ok_iff.2 hwork, readParams_eq_ok_iff.2 hwork']
    cases hidentify : p.identify headers with
    | error e => exact Or.inl ⟨e, ne_crashed_of_identify hidentify, rfl, rfl⟩
    | ok who =>
      cases hresolve : p.resolve who with
      | error e =>
        refine Or.inl ⟨e, ne_crashed_of_resolve hresolve, ?_, ?_⟩ <;> simp only [hresolve]
      | ok connection =>
        refine Or.inr ⟨who, connection, work, rfl, hresolve, ?_, ?_⟩ <;>
          simp only [hresolve, serveCaller]

/-! ## What is fetched -/

/-- What a fetch gives of a task. -/
def given (handle : String) : Option (Task Json) → Except HandleFault Json
  | none => .error (.notFound handle)
  | some t =>
    if t.ready then
      match t.value? with
      | some result => .ok result
      | none => .error (.notFound handle)
    else .error (.notReady handle)

theorem map_fetch {α : Type} (f : α → Json) (d : Deferred α) (handle : String) :
    (d.fetch handle).1.map f = given handle ((d.tasks.get? handle).map (Task.map f)) := by
  cases htask : d.tasks.get? handle with
  | none =>
    rw [Deferred.fetch_of_none htask]
    rfl
  | some t =>
    obtain ⟨value?, since?, ready⟩ := t
    cases ready with
    | false =>
      rw [Deferred.fetch_of_not_ready htask rfl]
      rfl
    | true =>
      rw [Deferred.fetch_of_ready htask rfl, Deferred.take, htask]
      cases value? <;> rfl

theorem fetch_fst (p : Provider σ κ) (kind : ResultKind) (handle : String) :
    (p.fetch kind handle).1 = given handle (p.task? kind handle) := by
  cases kind with
  | reading => exact map_fetch _ p.readings handle
  | mutation => exact map_fetch _ p.mutations handle

theorem serve_of_asks {q : Rpc.Request} (hasks : Asks kind handle q) (g : Ground σ κ) (now : Nat)
    (p : Provider σ κ) : p.serve g now q.method q.params? q.headers =
      ((p.fetch kind handle).1.mapError .ofHandleFault, (p.fetch kind handle).2) := by
  obtain ⟨hmethod, hhandle⟩ := hasks
  have hmem : (q.method, fun j ↦ (handleParams j).map (.fetch kind)) ∈ hostMethods := by
    rw [hmethod]
    cases kind with
    | reading => exact List.mem_of_getElem? (i := 5) rfl
    | mutation => exact List.mem_of_getElem? (i := 7) rfl
  exact serve_of_host hmem (map_eq_ok_iff.2 ⟨handle, hhandle, rfl⟩) g now

theorem fetch_of_waiting (htask : p.task? kind handle = some {}) :
    p.fetch kind handle = (.error (.notReady handle), p) := by
  cases kind with
  | reading =>
    obtain ⟨t, ht, heq⟩ := Option.map_eq_some_iff.1 htask
    rw [fetch, Deferred.fetch_of_not_ready ht (Task.mk.inj heq).2.2]
    rfl
  | mutation =>
    obtain ⟨t, ht, heq⟩ := Option.map_eq_some_iff.1 htask
    rw [fetch, Deferred.fetch_of_not_ready ht (Task.mk.inj heq).2.2]
    rfl

/-- What the operation answers at once, as it waits to be fetched. -/
def outcome? (g : Ground σ κ) (p : Provider σ κ) (job : Job κ) (now : Nat) : Option (Task Json) :=
  (p.document g now job.connection job.work.operation).1.toOption.map
    fun result ↦ ⟨some result, some now, true⟩

theorem given_outcome? (g : Ground σ κ) (p : Provider σ κ) (job : Job κ) (now : Nat)
    (handle : String) : given handle (outcome? g p job now) =
      match (p.document g now job.connection job.work.operation).1 with
      | .ok result => .ok result
      | .error _ => .error (.notFound handle) := by
  unfold outcome?
  cases (p.document g now job.connection job.work.operation).1 <;> rfl

/-! ## Work along a run -/

/-- The first tokens are texts of identifiers, and all of them are different. -/
structure FreshTokens (g : Ground σ κ) (count : Nat) : Prop where
  isText : ∀ i < count, Uuid.IsText (g.tokens i)
  distinct : ∀ i j, i < j → j < count → g.tokens i ≠ g.tokens j

/-- Handles that end in different tokens are different, whatever the labels are. -/
theorem FreshTokens.handle_ne {count i j : Nat} (h : FreshTokens g count) (hij : i < j)
    (hj : j < count) (label label' : String) :
    Deferred.handle label (g.tokens i) ≠ Deferred.handle label' (g.tokens j) := by
  intro heq
  have hi := (h.isText i (Nat.lt_trans hij hj)).length_eq
  exact h.distinct i j hij hj
    (Deferred.token_eq_of_handle_eq (hi.trans (h.isText j hj).length_eq.symm) heq)

/-- A single token is different from all others. -/
theorem freshTokens_one (h : ∀ n, Uuid.IsText (g.tokens n)) : FreshTokens g 1 where
  isText i _ := h i
  distinct i j hij hj := by omega

variable {run : List (Event σ κ)} {m n k : Nat}

theorem issued_before_mono (g : Ground σ κ) (p : Provider σ κ) (run : List (Event σ κ))
    (hmn : m ≤ n) : (before g p run m).issued ≤ (before g p run n).issued :=
  stateAt_induction (P := fun _ (p' : Provider σ κ) ↦ (before g p run m).issued ≤ p'.issued)
    (Nat.le_refl _) (fun _ e _ _ h ↦ Nat.le_trans h (issued_le_step g _ e)) (fun _ _ _ h ↦ h) hmn

/-- The work waits in the queue, alone under its handle, and its task shows no result. -/
structure Waits (p : Provider σ κ) (job : Job κ) : Prop where
  queue : p.queue job.handle = [job]
  task : p.task? job.work.kind job.handle = some {}

/-- The work is carried out in step `k` of a run, at a time. -/
def Ran (g : Ground σ κ) (p : Provider σ κ) (run : List (Event σ κ)) (k : Nat) (job : Job κ)
    (now : Nat) : Prop :=
  ∃ mayRun, run[k]? = some (.work mayRun now) ∧ (before g p run k).jobs.find? mayRun = some job

/-- Work waits when a run begins, and no step of the run gives its handle to other work. -/
structure Submitted (g : Ground σ κ) (p : Provider σ κ) (run : List (Event σ κ)) (job : Job κ) :
    Prop where
  waits : p.Waits job
  fresh : ∀ m e, run[m]? = some e → ∀ label,
    ((before g p run m).step g e).issued ≠ (before g p run m).issued →
      Deferred.handle label (g.tokens (before g p run m).issued) ≠ job.handle

variable {job : Job κ} {e : Event σ κ} {now : Nat}

theorem mem_queue_iff {other : Job κ} :
    other ∈ p.queue handle ↔ other ∈ p.jobs ∧ other.handle = handle := by
  simp [queue]

theorem Waits.mem (h : p.Waits job) : job ∈ p.jobs := by
  have hmem : job ∈ p.queue job.handle := by
    rw [h.queue]
    exact List.mem_singleton.2 rfl
  exact (mem_queue_iff.1 hmem).1

/-- An event that carries out nothing that waits under the handle keeps what is there. -/
theorem Submitted.keeps (h : Submitted g p run job) (he : run[m]? = some e)
    (hidle : ∀ mayRun now, e = .work mayRun now →
      ∀ other ∈ (before g p run m).queue job.handle,
        (before g p run m).jobs.find? mayRun ≠ some other) :
    Keeps job.work.kind job.handle (e.Takes job.work.kind job.handle) (before g p run m)
      ((before g p run m).step g e) := by
  refine keeps_step g _ e _ _ (h.fresh m e he) fun mayRun now other hwork hother heq ↦ ?_
  exact hidle mayRun now hwork other
    (mem_queue_iff.2 ⟨List.mem_of_find?_eq_some hother, heq⟩) hother

/-- Work that is carried out leaves the queue, meets the store as it is, and leaves what the
operation would have answered. -/
theorem Waits.step {mayRun : Job κ → Bool} (hwaits : p.Waits job)
    (hjob : p.jobs.find? mayRun = some job) (g : Ground σ κ) (now : Nat) :
    (p.step g (.work mayRun now)).queue job.handle = [] ∧
      (p.step g (.work mayRun now)).task? job.work.kind job.handle = outcome? g p job now := by
  rw [step_of_find? hjob]
  constructor
  · obtain ⟨earlier, later, hjobs, herase, _⟩ := exists_of_find? hjob
    have hqueue := hwaits.queue
    rw [Provider.queue, hjobs, List.filter_append, List.filter_cons_of_pos (by simp)] at hqueue
    have hlength := congrArg List.length hqueue
    rw [List.length_append, List.length_cons, List.length_singleton] at hlength
    rw [Provider.queue, jobs_runJob, herase, List.filter_append]
    exact List.eq_nil_of_length_eq_zero (by rw [List.length_append]; omega)
  · refine task?_runJob_self ?_ now
    rw [← hwaits.task]
    cases job.work.kind <;> rfl

/-- Work waits until it is carried out, and is in the queue no more from then on. -/
theorem Submitted.waits_or_ran (h : Submitted g p run job) (m : Nat) :
    (before g p run m).Waits job ∨
      (before g p run m).queue job.handle = [] ∧ ∃ k now, k < m ∧ Ran g p run k job now := by
  refine stateAt_induction (P := fun m (p' : Provider σ κ) ↦ p'.Waits job ∨
    p'.queue job.handle = [] ∧ ∃ k now, k < m ∧ Ran g p run k job now) (i := 0)
    (Or.inl h.waits) ?_ ?_ (Nat.zero_le m)
  · rintro m e _ he (hwaits | ⟨hqueue, k, now, hk, hran⟩)
    · by_cases hruns : ∃ mayRun now, e = .work mayRun now ∧
          (before g p run m).jobs.find? mayRun = some job
      · obtain ⟨mayRun, now, rfl, hjob⟩ := hruns
        exact Or.inr ⟨(hwaits.step hjob g now).1, m, now, Nat.lt_succ_self m, mayRun, he, hjob⟩
      · have hkeeps := h.keeps he fun mayRun now hwork other hother hfind ↦ by
          rw [hwaits.queue] at hother
          obtain rfl := List.mem_singleton.1 hother
          exact hruns ⟨mayRun, now, hwork, hfind⟩
        exact Or.inl ⟨hkeeps.queue.trans hwaits.queue,
          hkeeps.kept {} hwaits.task (Or.inl rfl)⟩
    · have hkeeps := h.keeps he fun _ _ _ other hother ↦ by
        rw [show (before g p run m).queue job.handle = [] from hqueue] at hother
        cases hother
      exact Or.inr ⟨hkeeps.queue.trans hqueue, k, now, Nat.lt_succ_of_lt hk, hran⟩
  · rintro m _ _ (hwaits | ⟨hqueue, k, now, hk, hran⟩)
    · exact Or.inl hwaits
    · exact Or.inr ⟨hqueue, k, now, Nat.lt_succ_of_lt hk, hran⟩

theorem Submitted.waits_of_mem (h : Submitted g p run job)
    (hmem : job ∈ (before g p run m).jobs) : (before g p run m).Waits job := by
  refine (h.waits_or_ran m).resolve_right fun hran ↦ ?_
  have hqueue := mem_queue_iff.2 ⟨hmem, rfl⟩
  rw [hran.1] at hqueue
  cases hqueue

/-- The work is in the queue no more. Under its handle there is this task or nothing, and the task
for certain if nothing touched it. -/
structure Over (p : Provider σ κ) (job : Job κ) (task? : Option (Task Json)) (untouched : Prop) :
    Prop where
  queue : p.queue job.handle = []
  known : ∀ t, p.task? job.work.kind job.handle = some t → task? = some t
  kept : untouched → p.task? job.work.kind job.handle = task?

theorem Over.keeps {task? : Option (Task Json)} {untouched untouched' takes : Prop}
    (h : p.Over job task? untouched) (hkeeps : Keeps job.work.kind job.handle takes p p')
    (huntouched : untouched' → untouched ∧ ¬ takes) : p'.Over job task? untouched' where
  queue := hkeeps.queue.trans h.queue
  known t ht := h.known t (hkeeps.known t ht)
  kept hnot := by
    obtain ⟨hbefore, htakes⟩ := huntouched hnot
    refine Option.ext fun t ↦ ⟨fun ht ↦ h.known t (hkeeps.known t ht), fun ht ↦ ?_⟩
    exact hkeeps.kept t ((h.kept hbefore).trans ht) (Or.inr htakes)

/-- Once work was carried out, there is what it left or nothing under its handle, and that is what
it left until somebody takes it. -/
theorem Submitted.over_of_ran (h : Submitted g p run job) (hran : Ran g p run k job now)
    (hkm : k < m) :
    (before g p run m).Over job (outcome? g (before g p run k) job now)
      (∀ n e, k < n → n < m → run[n]? = some e → ¬ e.Takes job.work.kind job.handle) := by
  obtain ⟨mayRun, hat, hjob⟩ := hran
  have hnext : before g p run (k + 1) = (before g p run k).step g (.work mayRun now) :=
    stateAt_succ _ _ hat
  obtain ⟨hqueue, htask⟩ := (h.waits_of_mem (List.mem_of_find?_eq_some hjob)).step hjob g now
  refine stateAt_induction (P := fun m (p' : Provider σ κ) ↦
    p'.Over job (outcome? g (before g p run k) job now)
      (∀ n e, k < n → n < m → run[n]? = some e → ¬ e.Takes job.work.kind job.handle)) ?_ ?_ ?_ hkm
  · rw [← hnext] at hqueue htask
    exact ⟨hqueue, fun t ht ↦ htask.symm.trans ht, fun _ ↦ htask⟩
  · intro m e hm he hover
    have hkeeps := h.keeps he fun _ _ _ other hother ↦ by
      rw [show (before g p run m).queue job.handle = [] from hover.queue] at hother
      cases hother
    exact hover.keeps hkeeps fun hnot ↦ ⟨fun n e' hkn hn ↦ hnot n e' hkn (Nat.lt_succ_of_lt hn),
      hnot m e hm (Nat.lt_succ_self m) he⟩
  · intro m _ _ hover
    exact ⟨hover.queue, hover.known, fun hnot ↦ hover.kept fun n e' hkn hn ↦
      hnot n e' hkn (Nat.lt_succ_of_lt hn)⟩

theorem store_of_ran (hran : Ran g p run k job now) : (before g p run (k + 1)).store =
    ((before g p run k).document g now job.connection job.work.operation).2.store := by
  obtain ⟨mayRun, hat, hjob⟩ := hran
  have hnext : before g p run (k + 1) = (before g p run k).step g (.work mayRun now) :=
    stateAt_succ _ _ hat
  rw [hnext, step_of_find? hjob, store_runJob]
  rfl

variable {ask : Rpc.Request}

/-- Whoever fetches too early is told so, and nothing changes. -/
theorem Submitted.serve_of_mem (h : Submitted g p run job) (hmem : job ∈ (before g p run m).jobs)
    (hasks : Asks job.work.kind job.handle ask) (now : Nat) :
    (before g p run m).serve g now ask.method ask.params? ask.headers =
      (.error (.handleNotReady job.handle), before g p run m) := by
  rw [serve_of_asks hasks, fetch_of_waiting (h.waits_of_mem hmem).task]
  rfl

/-- What is fetched once work was carried out. -/
theorem Submitted.serve_of_ran (h : Submitted g p run job) (hran : Ran g p run k job now)
    (hkm : k < m) (hasks : Asks job.work.kind job.handle ask) (now' : Nat) :
    (∀ result,
      ((before g p run m).serve g now' ask.method ask.params? ask.headers).1 = .ok result →
      ((before g p run k).document g now job.connection job.work.operation).1 = .ok result) ∧
    ((∀ n e, k < n → n < m → run[n]? = some e → ¬ e.Takes job.work.kind job.handle) →
      ((before g p run m).serve g now' ask.method ask.params? ask.headers).1 =
        match ((before g p run k).document g now job.connection job.work.operation).1 with
        | .ok result => .ok result
        | .error _ => .error (.handleNotFound job.handle)) := by
  have hover := h.over_of_ran hran hkm
  rw [serve_of_asks hasks, fetch_fst]
  refine ⟨fun result hresult ↦ ?_, fun hnot ↦ ?_⟩
  · cases htask : (before g p run m).task? job.work.kind job.handle with
    | none =>
      rw [htask] at hresult
      cases hresult
    | some t =>
      rw [htask, ← hover.known t htask, given_outcome?] at hresult
      split at hresult
      · cases hresult
        assumption
      · cases hresult
  · rw [hover.kept hnot, given_outcome?]
    split <;> rfl

/-- A provider that things have happened to since it began. -/
def Reached (g : Ground σ κ) (p : Provider σ κ) : Prop :=
  ∃ settings store past, p = before g (create settings store) past past.length

theorem Reached.owned (h : p.Reached g) : p.Owned g := by
  obtain ⟨settings, store, past, rfl⟩ := h
  exact owned_before (fun _ h ↦ by cases h) past past.length

/-- What is submitted waits, and no other work has its handle or will get it. -/
theorem submitted_background (hp : p.Owned g) (connection : Connection κ) (work : Background)
    (hfresh : FreshTokens g
      (before g (p.background g connection work).2 run run.length).issued) :
    Submitted g (p.background g connection work).2 run
      ⟨p.nextHandle g work, connection, work⟩ := by
  have hstart : ∀ m, p.issued < (before g (p.background g connection work).2 run m).issued := by
    intro m
    have hmono := issued_before_mono g (p.background g connection work).2 run (Nat.zero_le m)
    have hzero : (before g (p.background g connection work).2 run 0).issued = p.issued + 1 :=
      issued_background g p connection work
    omega
  refine ⟨⟨?_, ?_⟩, fun m e he label hissued ↦ ?_⟩
  · have hnone : p.jobs.filter (·.handle = p.nextHandle g work) = [] := by
      refine List.filter_eq_nil_iff.2 fun job hjob ↦ ?_
      obtain ⟨n, label, hn, hhandle⟩ := hp job hjob
      rw [decide_eq_true_iff, hhandle]
      exact hfresh.handle_ne hn (hstart run.length) label work.label
    rw [queue, jobs_background, List.filter_append, hnone, List.nil_append,
      List.filter_cons_of_pos (by simp), List.filter_nil]
  · rw [task?_background, if_pos ⟨rfl, rfl⟩]
  · obtain ⟨hlt, _⟩ := List.getElem?_eq_some_iff.1 he
    have hnext : before g (p.background g connection work).2 run (m + 1) =
        (before g (p.background g connection work).2 run m).step g e := stateAt_succ _ _ he
    have hle := issued_le_step g (before g (p.background g connection work).2 run m) e
    have hlast := issued_before_mono g (p.background g connection work).2 run
      (show m + 1 ≤ run.length from hlt)
    rw [hnext] at hlast
    exact (hfresh.handle_ne (hstart m) (by omega) work.label label).symm

/-- Operations in the background agree with the same operations at once. A request for the
background is refused exactly as the other one would be, and changes nothing then; or else its work
is the other's operation, over the same connection. Submitting touches no store and answers a
handle. Whatever happens next, the work waits until it is carried out, and whoever fetches before is
told so. It meets the store as it is when it is carried out, at that time, and leaves there what the
operation would have left; what is fetched later is what the operation would have answered, and
never anything else. It is there until somebody fetches it or results are swept; only work that did
not come back leaves nothing. -/
theorem background_agrees (hp : p.Reached g) {answer : Except ProviderError Json}
    {q : Provider σ κ} (hq : p.background g connection work = (answer, q))
    (hfresh : FreshTokens g (before g q run run.length).issued) :
    let job : Job κ := ⟨p.nextHandle g work, connection, work⟩
    (∀ name ∈ dualNames, ∀ now params? headers,
      (∃ e, e ≠ .crashed ∧ p.serve g now name params? headers = (.error e, p) ∧
        p.serve g now (name ++ "_async") params? headers = (.error e, p)) ∨
      ∃ who connection' work', p.identify headers = .ok who ∧ p.resolve who = .ok connection' ∧
        p.serve g now name params? headers = p.document g now connection' work'.operation ∧
        p.serve g now (name ++ "_async") params? headers = p.background g connection' work') ∧
    answer = .ok (.text job.handle) ∧ q.store = p.store ∧
    (∀ m, job ∈ (before g q run m).jobs ∨ ∃ k now, k < m ∧ Ran g q run k job now) ∧
    (∀ m ask now, job ∈ (before g q run m).jobs → Asks work.kind job.handle ask →
      (before g q run m).serve g now ask.method ask.params? ask.headers =
        (.error (.handleNotReady job.handle), before g q run m)) ∧
    ∀ k now, Ran g q run k job now →
      (before g q run (k + 1)).store =
        ((before g q run k).document g now connection work.operation).2.store ∧
      ∀ m ask now', k < m → Asks work.kind job.handle ask →
        (∀ result,
          ((before g q run m).serve g now' ask.method ask.params? ask.headers).1 = .ok result →
          ((before g q run k).document g now connection work.operation).1 = .ok result) ∧
        ((∀ n e, k < n → n < m → run[n]? = some e → ¬ e.Takes work.kind job.handle) →
          ((before g q run m).serve g now' ask.method ask.params? ask.headers).1 =
            match ((before g q run k).document g now connection work.operation).1 with
            | .ok result => .ok result
            | .error _ => .error (.handleNotFound job.handle)) := by
  intro job
  obtain rfl : (p.background g connection work).2 = q := congrArg Prod.snd hq
  have hsubmitted : Submitted g _ run job :=
    submitted_background hp.owned connection work hfresh
  refine ⟨fun name hname now params? headers ↦ served_alike g now p hname params? headers,
    (congrArg Prod.fst hq).symm, store_background g p connection work, fun m ↦ ?_,
    fun m ask now hjob hasks ↦ ?_, fun k now hran ↦ ⟨?_, fun m ask now' hkm hasks ↦ ?_⟩⟩
  · rcases hsubmitted.waits_or_ran m with hwaits | ⟨_, hran⟩
    · exact Or.inl hwaits.mem
    · exact Or.inr hran
  · exact hsubmitted.serve_of_mem hjob hasks now
  · exact store_of_ran hran
  · exact hsubmitted.serve_of_ran hran hkm hasks now'

/-- Work is submitted, the provider is shut down, and others change the store; then the work is
carried out there, over the connection of its caller, and its result is fetched. This store counts
its calls, and has no documents. -/
theorem background_agrees_after_shutdown :
    let g : Ground Nat Unit := ⟨⟨fun _ s ↦ (.error .timeout, s), fun _ _ _ s ↦
      (.fault .documentNotFound, s + 1)⟩, fun n ↦ Uuid.text 0 (.ofNat n)⟩
    let p : Provider Nat Unit := create {} 0
    let work : Background := .write (.remove "a" {})
    let q := (p.background g (.live ()) work).2
    let run : List (Event Nat Unit) := [.request ⟨1, "provider.shutdown", none, .empty⟩ 1,
      .store 5, .work (fun _ ↦ true) 7]
    let ask : Rpc.Request := ⟨2, "document.mutation_result.get",
      some (.object [("handle", .text (p.nextHandle g work))]), .empty⟩
    p.Reached g ∧ FreshTokens g (before g q run run.length).issued ∧
      (before g q run 3).store = 6 ∧
      ((before g q run 3).serve g 8 ask.method ask.params? ask.headers).1 =
        .ok (.object [("err", .text "not-found")]) := by
  intro g p work q run ask
  have hp : p.Reached g := ⟨{}, 0, [], rfl⟩
  have hfresh : FreshTokens g (before g q run run.length).issued := by
    refine ⟨fun i _ ↦ ⟨0, .ofNat i, rfl⟩, fun i j hij hj ↦ ?_⟩
    have hcount : (before g q run run.length).issued = 1 := rfl
    omega
  have hran : Ran g q run 2 ⟨p.nextHandle g work, .live (), work⟩ 7 := ⟨fun _ ↦ true, rfl, rfl⟩
  have hq : p.background g (.live ()) work = ((p.background g (.live ()) work).1, q) := rfl
  obtain ⟨_, _, _, _, _, hafter⟩ := background_agrees hp hq hfresh
  obtain ⟨hstore, hfetch⟩ := hafter 2 7 hran
  obtain ⟨_, hkept⟩ := hfetch 3 ask 8 (by decide) ⟨rfl, rfl⟩
  exact ⟨hp, hfresh, hstore, hkept fun n e hn hm ↦ by omega⟩

end Depot.Provider
