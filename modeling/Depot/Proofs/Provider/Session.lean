import Depot.Proofs.Provider.Service
import Depot.Session

/-!
# Sessions as runs of a service

A session serves one message after another, and work in the background and sweeps stand in between.
All that is a run of the service behind it (`Session.runs_actAll`): every request is brought to its
answer before anything else happens (`Service.foldl_alone`), and the responses that go out are those
that the service sends, and the rejections of bodies that are no messages (`Session.Runs`). So what
holds along every run of a service holds of a session.
-/

set_option autoImplicit false
set_option relaxedAutoImplicit false

namespace Depot

variable {σ κ : Type} {g : Ground σ κ} {now : Nat}

/-! ## One message at a time -/

namespace Service

/-- A request that is brought to its end before anything else happens. -/
theorem foldl_alone (g : Ground σ κ) (now : Nat) (q : Rpc.Request) (s : Service σ κ) :
    [.inbound (.request q) now, .proceed s.errands.length now,
      .proceed s.errands.length now].foldl (step g) s = { s with
        provider := ((Provider.handler g now).onRequest q s.provider).2
        sent := s.sent ++ [(q, ((Provider.handler g now).onRequest q s.provider).1)] } := by
  have hopen : (s.takeIn g now (.request q)).errands[s.errands.length]? = some ⟨q, none⟩ :=
    List.getElem?_concat_length
  simp only [List.foldl, step]
  rw [proceed_of_open hopen]
  rw [proceed_of_served (List.getElem?_set_self (List.getElem?_eq_some_iff.1 hopen).1)]
  simp only [takeIn, List.set_append_right _ _ (Nat.le_refl _), Nat.sub_self, List.set_cons_zero,
    List.eraseIdx_append_of_length_le (Nat.le_refl _), List.eraseIdx_cons_zero, List.append_nil]

end Service

/-! ## Work and time -/

namespace Provider

variable {p : Provider σ κ}

/-- The first piece of queued work is also the first one under its handle. -/
theorem runNext_eq_of_head {job : Job κ} {jobs : List (Job κ)} (h : p.jobs = job :: jobs) :
    p.runNext g now (fun _ ↦ true) = p.runNext g now fun other ↦ other.handle = job.handle := by
  simp only [runNext, h, List.find?_cons_of_pos, List.eraseP_cons_of_pos, decide_true]

theorem runNext_of_nil (h : p.jobs = []) (mayRun : Job κ → Bool) :
    p.runNext g now mayRun = p := by
  simp only [runNext, h, List.find?_nil]

end Provider

/-! ## Sessions -/

namespace Session

variable {s s' s'' : Session σ κ} {responses later : List Rpc.Response}

/-- The service behind a session while no request is on its way, with what it has sent. -/
def service (s : Session σ κ) (sent : List (Rpc.Request × Rpc.Response)) : Service σ κ :=
  { engine := s.engine, provider := s.provider, sent }

/-- The way from one session to another is a run of the service behind it. The responses that go out
are those that the service sends, and the rejections of bodies that are no messages. -/
def Runs (g : Ground σ κ) (s : Session σ κ) (responses : List Rpc.Response) (s' : Session σ κ) :
    Prop :=
  ∃ (run : List Service.Event) (new : List (Rpc.Request × Rpc.Response))
      (rejections : List Rpc.Response),
    (∀ sent, run.foldl (Service.step g) (s.service sent) = s'.service (sent ++ new)) ∧
    responses.Perm (new.map Prod.snd ++ rejections) ∧
    ∀ r ∈ rejections, ∃ body, Rpc.handle body = .reject r

theorem Runs.of_same (hengine : s'.engine = s.engine) (hprovider : s'.provider = s.provider) :
    Runs g s [] s' :=
  ⟨[], [], [], fun sent ↦ by simp [service, hengine, hprovider], .nil, nofun⟩

theorem Runs.trans (h : Runs g s responses s') (h' : Runs g s' later s'') :
    Runs g s (responses ++ later) s'' := by
  obtain ⟨run, new, rejections, hrun, hperm, hreject⟩ := h
  obtain ⟨run', new', rejections', hrun', hperm', hreject'⟩ := h'
  refine ⟨run ++ run', new ++ new', rejections ++ rejections', fun sent ↦ ?_, ?_, ?_⟩
  · rw [List.foldl_append, hrun, hrun', List.append_assoc]
  · refine (hperm.append hperm').trans ?_
    simp only [List.map_append, List.append_assoc]
    exact (List.perm_append_comm_assoc ..).append_left _
  · exact List.forall_mem_append.2 ⟨hreject, hreject'⟩

/-- A run of one step that sends nothing. -/
theorem Runs.of_step (event : Service.Event)
    (h : ∀ sent, Service.step g (s.service sent) event = s'.service sent) : Runs g s [] s' :=
  ⟨[event], [], [], fun sent ↦ by rw [List.foldl_cons, h, List.append_nil, List.foldl_nil], .nil,
    nofun⟩

theorem runs_serve (g : Ground σ κ) (now : Nat) (body : Bytes) (s : Session σ κ) :
    Runs g s (s.serve g now body).1.toList (s.serve g now body).2 := by
  unfold serve
  cases hbody : Rpc.handle body with
  | discard => exact .of_same rfl rfl
  | reject r =>
    refine ⟨[], [], [r], fun sent ↦ ?_, .refl _, List.forall_mem_singleton.2 ⟨body, hbody⟩⟩
    rw [List.append_nil]
    rfl
  | deliver payload =>
    cases payload with
    | request q =>
      exact ⟨[.inbound (.request q) now, .proceed 0 now, .proceed 0 now],
        [(q, ((Provider.handler g now).onRequest q s.provider).1)], [],
        fun sent ↦ Service.foldl_alone g now q (s.service sent), .refl _, nofun⟩
    | notification n => exact .of_step (.inbound (.notification n) now) fun sent ↦ rfl
    | response r => exact .of_step (.inbound (.response r) now) fun sent ↦ rfl

theorem runs_drain (g : Ground σ κ) (now : Nat) (closed : Bool) (fuel : Nat) (s : Session σ κ) :
    Runs g s (s.drain g now closed fuel).1 (s.drain g now closed fuel).2 := by
  induction fuel generalizing s with
  | zero => exact .of_same rfl rfl
  | succ fuel ih =>
    rw [drain]
    cases Rpc.Frame.next closed s.buffer with
    | frame body rest =>
      have hrest : Runs g (s.serve g now body).2 []
          { (s.serve g now body).2 with buffer := rest } := .of_same rfl rfl
      exact (runs_serve g now body s).trans (hrest.trans (ih _))
    | _ => exact .of_same rfl rfl

theorem runs_advance (g : Ground σ κ) (before now : Nat) (s : Session σ κ) :
    Runs g s [] { s with provider := s.provider.advance before now } := by
  unfold Provider.advance
  cases s.provider.settings.ttl? with
  | none => exact .of_same rfl rfl
  | some ttl =>
    dsimp only
    split
    · exact .of_step (.sweep ttl _) fun sent ↦ rfl
    · exact .of_same rfl rfl

theorem runs_runNext (g : Ground σ κ) (now : Nat) (s : Session σ κ) :
    Runs g s [] { s with provider := s.provider.runNext g now fun _ ↦ true } := by
  cases hjobs : s.provider.jobs with
  | nil => exact .of_same rfl (Provider.runNext_of_nil hjobs _)
  | cons job jobs =>
    rw [Provider.runNext_eq_of_head hjobs]
    exact .of_step (.work job.handle now) fun sent ↦ rfl

theorem runs_runAll (g : Ground σ κ) (now : Nat) (s : Session σ κ) :
    Runs g s [] { s with provider := s.provider.runAll g now fun _ ↦ true } := by
  unfold Provider.runAll
  induction s.provider.jobs.countP fun _ ↦ true with
  | zero => exact .of_same rfl rfl
  | succ n ih => exact ih.trans (runs_runNext g now _)

/-- What happens to a session: input comes in or ends, time passes, or all queued work is carried
out. -/
inductive Event where
  | feed (input : Bytes) (now : Nat)
  | close (now : Nat)
  | advance (before now : Nat)
  | runAll (now : Nat)

/-- What is answered, and the session behind it. -/
def act (g : Ground σ κ) (s : Session σ κ) : Event → List Rpc.Response × Session σ κ
  | .feed input now => s.feed g now input
  | .close now => s.close g now
  | .advance before now => ([], { s with provider := s.provider.advance before now })
  | .runAll now => ([], { s with provider := s.provider.runAll g now fun _ ↦ true })

def actAll (g : Ground σ κ) : Session σ κ → List Event → List Rpc.Response × Session σ κ
  | s, [] => ([], s)
  | s, event :: events =>
    let (responses, s) := s.act g event
    let (later, s) := actAll g s events
    (responses ++ later, s)

theorem runs_act (g : Ground σ κ) (s : Session σ κ) (event : Event) :
    Runs g s (s.act g event).1 (s.act g event).2 := by
  cases event with
  | feed input now =>
    rw [act, feed]
    split
    · exact .of_same rfl rfl
    · have hinput : Runs g s [] { s with buffer := s.buffer ++ input } := .of_same rfl rfl
      exact hinput.trans (runs_drain g now false _ _)
  | close now =>
    rw [act, close]
    split
    · exact .of_same rfl rfl
    · exact runs_drain g now true _ s
  | advance before now => exact runs_advance g before now s
  | runAll now => exact runs_runAll g now s

/-- Whatever happens to a session, the way it takes is a run of the service behind it. -/
theorem runs_actAll (g : Ground σ κ) (s : Session σ κ) (events : List Event) :
    Runs g s (s.actAll g events).1 (s.actAll g events).2 := by
  induction events generalizing s with
  | nil => exact .of_same rfl rfl
  | cons event events ih => exact (runs_act g s event).trans (ih _)

end Session
end Depot
