import Depot.Proofs.Provider.Effect

/-!
# Requests on their way

A `Service` is a provider behind an engine that takes messages in, with all that goes on at the same
time. A request that comes in becomes an `Errand`; the provider serves errands in any order, and
their responses leave in any order, while work in the background is carried out and results are
swept. Nothing is lost on the way: the requests that came in are those that were answered and those
whose errands are open (`perm_accounted`), every answer is what the provider once said to its
request (`exists_served`), and an open errand is two steps from its answer at most (`due_proceed`).
-/

set_option autoImplicit false
set_option relaxedAutoImplicit false

namespace Depot

variable {σ κ : Type}

/-- A request that came in and is not answered yet. Its response leaves once it has one. -/
structure Errand where
  request : Rpc.Request
  response? : Option Rpc.Response := none

/-- An engine that takes messages in, its provider, and the requests in between. -/
structure Service (σ κ : Type) where
  engine : Rpc.Engine
  provider : Provider σ κ
  errands : List Errand := []
  /-- The responses that left, first to last, each with the request that it answers. -/
  sent : List (Rpc.Request × Rpc.Response) := []

namespace Service

/-- Something happens: a message comes in, an errand is brought on, work in the background is
carried out, or results are swept. -/
inductive Event where
  | inbound (payload : Rpc.Payload) (now : Nat)
  | proceed (n now : Nat)
  | work (handle : String) (now : Nat)
  | sweep (ttl now : Nat)

def Event.request? : Event → Option Rpc.Request
  | inbound (.request q) _ => some q
  | _ => none

/-- The requests that come in during a run. -/
def requests (run : List Event) : List Rpc.Request := run.filterMap Event.request?

/-- Takes a message in. Only a request becomes an errand. -/
def takeIn (g : Ground σ κ) (now : Nat) (s : Service σ κ) : Rpc.Payload → Service σ κ
  | .request q => { s with errands := s.errands ++ [⟨q, none⟩] }
  | .notification n => { s with provider := (Provider.handler g now).onNotification n s.provider }
  | .response r => { s with engine := s.engine.respond r }

/-- Brings an errand on: its request is served, or its response leaves. -/
def proceed (g : Ground σ κ) (n now : Nat) (s : Service σ κ) : Service σ κ :=
  match s.errands[n]? with
  | none => s
  | some ⟨q, none⟩ =>
    let (response, provider) := (Provider.handler g now).onRequest q s.provider
    { s with provider, errands := s.errands.set n ⟨q, some response⟩ }
  | some ⟨q, some response⟩ =>
    { s with errands := s.errands.eraseIdx n, sent := s.sent ++ [(q, response)] }

def step (g : Ground σ κ) (s : Service σ κ) : Event → Service σ κ
  | .inbound payload now => s.takeIn g now payload
  | .proceed n now => s.proceed g n now
  | .work handle now =>
    { s with provider := s.provider.runNext g now fun job ↦ job.handle = handle }
  | .sweep ttl now => { s with provider := s.provider.sweep ttl now }

/-- The service that step `i` of a run finds. -/
abbrev before (g : Ground σ κ) (s : Service σ κ) (run : List Event) (i : Nat) : Service σ κ :=
  stateAt (step g) s run i

/-- A service that nothing has come to yet. -/
def idle (engine : Rpc.Engine) (provider : Provider σ κ) : Service σ κ := { engine, provider }

variable {g : Ground σ κ} {s : Service σ κ} {run : List Event} {event : Event} {i k m n now : Nat}
  {q : Rpc.Request} {r : Rpc.Response} {errand : Errand}

/-! ## One errand among others -/

theorem exists_split {α : Type} {l : List α} {a : α} (h : l[n]? = some a) : ∃ front back,
    l = front ++ a :: back ∧ (∀ b, l.set n b = front ++ b :: back) ∧
      l.eraseIdx n = front ++ back := by
  induction l generalizing n with
  | nil => cases h
  | cons head rest ih =>
    cases n with
    | zero =>
      obtain rfl : head = a := Option.some.inj h
      exact ⟨[], rest, rfl, fun _ ↦ rfl, rfl⟩
    | succ n =>
      obtain ⟨front, back, hrest, hset, herase⟩ := ih h
      refine ⟨head :: front, back, congrArg _ hrest, fun b ↦ congrArg _ (hset b), ?_⟩
      exact congrArg (List.cons head) herase

theorem proceed_of_none (h : s.errands[n]? = none) (g : Ground σ κ) (now : Nat) :
    s.proceed g n now = s := by
  simp only [proceed, h]

theorem proceed_of_open (h : s.errands[n]? = some ⟨q, none⟩) (g : Ground σ κ) (now : Nat) :
    s.proceed g n now = { s with
      provider := ((Provider.handler g now).onRequest q s.provider).2
      errands := s.errands.set n
        ⟨q, some ((Provider.handler g now).onRequest q s.provider).1⟩ } := by
  simp only [proceed, h]

theorem proceed_of_served (h : s.errands[n]? = some ⟨q, some r⟩) (g : Ground σ κ) (now : Nat) :
    s.proceed g n now =
      { s with errands := s.errands.eraseIdx n, sent := s.sent ++ [(q, r)] } := by
  simp only [proceed, h]

/-! ## No request is lost or doubled -/

/-- The requests that were answered, and those that are not answered yet. -/
def accounted (s : Service σ κ) : List Rpc.Request :=
  s.sent.map Prod.fst ++ s.errands.map Errand.request

theorem perm_accounted_step (g : Ground σ κ) (s : Service σ κ) (event : Event) :
    (s.step g event).accounted.Perm (s.accounted ++ event.request?.toList) := by
  have hsame : s.accounted.Perm (s.accounted ++ []) := by rw [List.append_nil]
  cases event with
  | inbound payload now =>
    cases payload with
    | request q =>
      simp only [step, takeIn, accounted, Event.request?, Option.toList_some, List.map_append,
        List.map_singleton, List.append_assoc, List.Perm.refl]
    | _ => exact hsame
  | proceed n now =>
    rw [step]
    cases herrand : s.errands[n]? with
    | none =>
      rw [proceed_of_none herrand]
      exact hsame
    | some errand =>
      obtain ⟨front, back, hsplit, hset, herase⟩ := exists_split herrand
      obtain ⟨q, _ | r⟩ := errand
      · rw [proceed_of_open herrand]
        simp only [accounted, hset, Event.request?, Option.toList_none, List.append_nil]
        rw [hsplit]
        simp only [List.map_append, List.map_cons, List.Perm.refl]
      · rw [proceed_of_served herrand]
        simp only [accounted, herase, Event.request?, Option.toList_none, List.append_nil]
        rw [hsplit]
        simp only [List.map_append, List.map_cons, List.map_nil, List.append_assoc,
          List.singleton_append]
        exact (List.perm_middle.symm).append_left _
  | work handle now => exact hsame
  | sweep ttl now => exact hsame

/-- Whatever happens, every request that came in is answered, once, or its errand is open. -/
theorem perm_accounted (g : Ground σ κ) (s : Service σ κ) (run : List Event) (i : Nat) :
    (before g s run i).accounted.Perm (s.accounted ++ requests (run.take i)) := by
  induction i with
  | zero => simp [requests]
  | succ i ih =>
    cases hevent : run[i]? with
    | none =>
      rw [before, stateAt_succ_of_none _ _ hevent]
      have hend : run.length ≤ i := List.getElem?_eq_none_iff.1 hevent
      rw [List.take_of_length_le (Nat.le_succ_of_le hend)]
      rwa [List.take_of_length_le hend] at ih
    | some event =>
      obtain ⟨hi, rfl⟩ := List.getElem?_eq_some_iff.1 hevent
      have hnext : requests (run.take (i + 1)) =
          requests (run.take i) ++ run[i].request?.toList := by
        rw [List.take_succ_eq_append_getElem hi, requests, List.filterMap_append]
        cases hrequest : run[i].request? <;> simp [requests, hrequest]
      rw [before, stateAt_succ _ _ hevent, hnext, ← List.append_assoc]
      exact (perm_accounted_step g _ _).trans (ih.append_right _)

/-- A response leaves only when an errand that has one is brought on. -/
theorem sent_step (g : Ground σ κ) (s : Service σ κ) (event : Event) :
    (s.step g event).sent = s.sent ∨ ∃ n now q r, event = .proceed n now ∧
      s.errands[n]? = some ⟨q, some r⟩ ∧ (s.step g event).sent = s.sent ++ [(q, r)] := by
  cases event with
  | inbound payload now => cases payload <;> exact Or.inl rfl
  | proceed n now =>
    cases herrand : s.errands[n]? with
    | none => exact Or.inl (by rw [step, proceed_of_none herrand])
    | some errand =>
      obtain ⟨q, _ | r⟩ := errand
      · exact Or.inl (by rw [step, proceed_of_open herrand])
      · exact Or.inr ⟨n, now, q, r, rfl, herrand, by rw [step, proceed_of_served herrand]⟩
  | work handle now => exact Or.inl rfl
  | sweep ttl now => exact Or.inl rfl

/-! ## What is answered -/

/-- In step `k` of a run the provider serves a request, and this is its response. -/
def Served (g : Ground σ κ) (s : Service σ κ) (run : List Event) (k now : Nat) (q : Rpc.Request)
    (r : Rpc.Response) : Prop :=
  ∃ n, run[k]? = some (.proceed n now) ∧ (before g s run k).errands[n]? = some ⟨q, none⟩ ∧
    r = ((Provider.handler g now).onRequest q (before g s run k).provider).1

/-- The response was given to the request and has left, or is about to. -/
def Answers (s : Service σ κ) (q : Rpc.Request) (r : Rpc.Response) : Prop :=
  (q, r) ∈ s.sent ∨ ⟨q, some r⟩ ∈ s.errands

/-- A new response is one that the provider has just given. -/
theorem answers_step (h : (s.step g event).Answers q r) : s.Answers q r ∨ ∃ n now,
    event = .proceed n now ∧ s.errands[n]? = some ⟨q, none⟩ ∧
      r = ((Provider.handler g now).onRequest q s.provider).1 := by
  cases event with
  | inbound payload now =>
    cases payload with
    | request q' =>
      refine Or.inl (h.imp_right fun hmem ↦ ?_)
      rcases List.mem_append.1 hmem with hmem | hmem
      · exact hmem
      · cases List.mem_singleton.1 hmem
    | _ => exact Or.inl h
  | proceed n now =>
    rw [step] at h
    cases herrand : s.errands[n]? with
    | none =>
      rw [proceed_of_none herrand] at h
      exact Or.inl h
    | some errand =>
      obtain ⟨front, back, hsplit, hset, herase⟩ := exists_split herrand
      obtain ⟨q', _ | r'⟩ := errand
      · rw [proceed_of_open herrand] at h
        simp only [Answers, hset, List.mem_append, List.mem_cons, Errand.mk.injEq,
          Option.some.injEq] at h
        rcases h with hsent | hfront | ⟨rfl, rfl⟩ | hback
        · exact Or.inl (Or.inl hsent)
        · exact Or.inl (Or.inr (hsplit ▸ List.mem_append_left _ hfront))
        · exact Or.inr ⟨n, now, rfl, herrand, rfl⟩
        · exact Or.inl (Or.inr (hsplit ▸ List.mem_append_right _ (List.mem_cons_of_mem _ hback)))
      · rw [proceed_of_served herrand] at h
        simp only [Answers, herase, List.mem_append, List.mem_singleton, Prod.mk.injEq] at h
        rcases h with (hsent | ⟨rfl, rfl⟩) | hfront | hback
        · exact Or.inl (Or.inl hsent)
        · exact Or.inl (Or.inr (List.mem_of_getElem? herrand))
        · exact Or.inl (Or.inr (hsplit ▸ List.mem_append_left _ hfront))
        · exact Or.inl (Or.inr (hsplit ▸ List.mem_append_right _ (List.mem_cons_of_mem _ hback)))
  | work handle now => exact Or.inl h
  | sweep ttl now => exact Or.inl h

/-- Every answer is one that the provider gave to its request. -/
theorem exists_served (hs : ∀ q r, ¬ s.Answers q r) (h : (before g s run m).Answers q r) :
    ∃ k now, k < m ∧ Served g s run k now q r := by
  refine stateAt_induction (P := fun m (s' : Service σ κ) ↦ ∀ q r, s'.Answers q r →
    ∃ k now, k < m ∧ Served g s run k now q r) (i := 0) (fun q r h ↦ absurd h (hs q r)) ?_ ?_
    (Nat.zero_le m) q r h
  · intro m event _ hevent ih q r h
    rcases answers_step h with h | ⟨n, now, rfl, herrand, hr⟩
    · obtain ⟨k, now, hk, hserved⟩ := ih q r h
      exact ⟨k, now, Nat.lt_succ_of_lt hk, hserved⟩
    · exact ⟨m, now, Nat.lt_succ_self m, n, hevent, herrand, hr⟩
  · intro m _ _ ih q r h
    obtain ⟨k, now, hk, hserved⟩ := ih q r h
    exact ⟨k, now, Nat.lt_succ_of_lt hk, hserved⟩

/-! ## Open errands come to an end -/

/-- How many steps all errands together are from their answers: each has to leave, and some have to
be served before. -/
def due (s : Service σ κ) : Nat :=
  s.errands.length + s.errands.countP fun errand ↦ errand.response?.isNone

/-- Whatever errand is brought on, it comes a step nearer to its answer. -/
theorem due_proceed (h : n < s.errands.length) (g : Ground σ κ) (now : Nat) :
    (s.proceed g n now).due + 1 = s.due := by
  obtain ⟨⟨q, response?⟩, herrand⟩ : ∃ errand, s.errands[n]? = some errand :=
    ⟨_, List.getElem?_eq_getElem h⟩
  obtain ⟨front, back, hsplit, hset, herase⟩ := exists_split herrand
  cases response? with
  | none =>
    rw [proceed_of_open herrand]
    simp only [due, hset]
    rw [hsplit]
    simp only [List.length_append, List.length_cons, List.countP_append, List.countP_cons,
      Option.isNone_some, Option.isNone_none, if_true, Bool.false_eq_true, if_false]
    omega
  | some r =>
    rw [proceed_of_served herrand]
    simp only [due, herase]
    rw [hsplit]
    simp only [List.length_append, List.length_cons, List.countP_append, List.countP_cons,
      Option.isNone_some, Bool.false_eq_true, if_false]
    omega

theorem due_eq_zero_iff : s.due = 0 ↔ s.errands = [] := by
  constructor
  · intro hdue
    exact List.eq_nil_of_length_eq_zero (Nat.eq_zero_of_add_eq_zero_right hdue)
  · intro herrands
    rw [due, herrands]
    rfl

/-- If nothing else happens, all that came in is answered in so many steps. -/
theorem errands_after_due (g : Ground σ κ) (now : Nat) (s : Service σ κ) :
    (before g s (List.replicate s.due (.proceed 0 now)) s.due).errands = [] := by
  generalize hdue : s.due = d
  induction d generalizing s with
  | zero => exact due_eq_zero_iff.1 hdue
  | succ d ih =>
    have hlength : 0 < s.errands.length := by
      refine List.length_pos_iff.2 fun hnil ↦ ?_
      rw [due_eq_zero_iff.2 hnil] at hdue
      cases hdue
    have hnext := due_proceed hlength g now
    rw [before, List.replicate_succ, stateAt_cons_succ]
    exact ih _ (by rw [step]; omega)

/-! ## The provider behind the service -/

/-- What happens to the provider when something happens to its service. -/
def seen (s : Service σ κ) : Event → Provider.Event σ κ
  | .proceed n now =>
    match s.errands[n]? with
    | some ⟨q, none⟩ => .request q now
    | _ => .store s.provider.store
  | .work handle now => .work (fun job ↦ job.handle = handle) now
  | .sweep ttl now => .sweep ttl now
  | .inbound _ _ => .store s.provider.store

theorem provider_step (g : Ground σ κ) (s : Service σ κ) (event : Event) :
    (s.step g event).provider = s.provider.step g (s.seen event) := by
  cases event with
  | inbound payload now => cases payload <;> rfl
  | proceed n now =>
    cases herrand : s.errands[n]? with
    | none =>
      simp only [step, proceed_of_none herrand, seen, herrand]
      rfl
    | some errand =>
      obtain ⟨q, _ | r⟩ := errand
      · simp only [step, proceed_of_open herrand, seen, herrand]
        rfl
      · simp only [step, proceed_of_served herrand, seen, herrand]
        rfl
  | work handle now => rfl
  | sweep ttl now => rfl

/-- Nobody else changes the store. -/
theorem store_of_seen {store : σ} (h : s.seen event = .store store) : store = s.provider.store := by
  cases event with
  | proceed n now =>
    rw [seen] at h
    split at h
    · contradiction
    · exact (Provider.Event.store.inj h).symm
  | inbound payload now => exact (Provider.Event.store.inj h).symm
  | work handle now => contradiction
  | sweep ttl now => contradiction

/-- What happens to the provider during a run of its service. -/
def watched (g : Ground σ κ) : Service σ κ → List Event → List (Provider.Event σ κ)
  | _, [] => []
  | s, event :: run => s.seen event :: watched g (s.step g event) run

theorem length_watched (g : Ground σ κ) (s : Service σ κ) (run : List Event) :
    (s.watched g run).length = run.length := by
  induction run generalizing s with
  | nil => rfl
  | cons event run ih => exact congrArg (· + 1) (ih _)

theorem watched_of_event (h : run[i]? = some event) :
    (s.watched g run)[i]? = some ((before g s run i).seen event) := by
  induction run generalizing s i with
  | nil => cases h
  | cons first run ih =>
    cases i with
    | zero =>
      obtain rfl := Option.some.inj h
      rfl
    | succ i => exact ih h

/-- Along a run of its service the provider is on a run of its own. -/
theorem provider_before (g : Ground σ κ) (s : Service σ κ) (run : List Event) (i : Nat) :
    (before g s run i).provider = Provider.before g s.provider (s.watched g run) i := by
  induction run generalizing s i with
  | nil => simp [before, watched, stateAt]
  | cons event run ih =>
    cases i with
    | zero => rfl
    | succ i =>
      rw [before, stateAt_cons_succ, watched, Provider.before, stateAt_cons_succ, ← provider_step]
      exact ih _ i

end Service
end Depot
