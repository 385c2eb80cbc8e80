import Depot.Proofs.Provider.Effect
import Depot.Proofs.Provider.Gate

/-!
# What a request comes to

A request that is let through makes one call at most, and how this call ends settles the answer
(`Verdict`, `verdict_serveCaller`). A call that fails is told in the result, by the kind of its
fault, and so is one that is answered; only a call that does not come back is an error of the
request. The store is left as the call leaves it (`store_serveCaller`). So the code of an internal
error stands for a call that did not come back and for nothing else (`code?_internal_iff`).
-/

set_option autoImplicit false
set_option relaxedAutoImplicit false

namespace Depot

/-- An outcome as callers get it: something under `ok`, or something under `err`. -/
def Outcome.Shape (j : Json) : Prop :=
  ∃ content, j = Wire.tagged "ok" content ∨ j = Wire.tagged "err" content

theorem Outcome.shape_toJson {ε α : Type} (ofAnswer : α → Json) (ofError : ε → Json)
    (outcome : Except ε α) : Shape (toJson ofAnswer ofError outcome) := by
  cases outcome with
  | ok a => exact ⟨ofAnswer a, Or.inl rfl⟩
  | error e => exact ⟨ofError e, Or.inr rfl⟩

namespace KeyValue.Operation

/-- The call that an operation makes. Listing keys makes none. -/
def call? : Operation → Option Call
  | get _ key => some (.get key {})
  | set _ key value => some (.upsert key value {})
  | delete _ key => some (.remove key {})
  | contains _ key => some (.contains key none)
  | listKeys _ _ => none
  | increment _ key delta => some (.increment key { delta, initial? := some delta })

/-- To these operations a key that is not there is no failure. -/
def Forgives : Operation → Prop
  | get .. => True
  | delete .. => True
  | _ => False

end KeyValue.Operation

namespace Provider

variable {σ κ : Type}

namespace CallerRequest

/-- The call that a request makes at once. Work in the background makes its call later. -/
def call? : CallerRequest → Option Call
  | document op => some op.call
  | background _ => none
  | keyValue op => op.call?

/-- What callers learn of a fault. -/
def errorJson : CallerRequest → Fault → Json
  | keyValue _, f => (StoreError.ofFault f).toJson
  | _, f => (DocumentError.ofFault f).toJson

variable (g : Ground σ κ) (now : Nat) (connection : Connection κ) (s : σ) (r : CallerRequest)

/-- The call that a request makes does not come back. -/
def Crashes : Prop :=
  ∃ c, r.call? = some c ∧ (g.backend.perform connection now c s).1 = .crash

/-- The call that a request makes fails. -/
def Fails (f : Fault) : Prop :=
  ∃ c, r.call? = some c ∧ (g.backend.perform connection now c s).1 = .fault f

/-- The call that a request makes is answered. -/
def Succeeds : Prop :=
  ∃ c a, r.call? = some c ∧ (g.backend.perform connection now c s).1 = .answer a

end CallerRequest

variable {g : Ground σ κ} {now : Nat} {connection : Connection κ} {p : Provider σ κ}
  {r : CallerRequest} {s : σ} {f : Fault}

theorem CallerRequest.Fails.not_crashes (h : r.Fails g now connection s f) :
    ¬ r.Crashes g now connection s := by
  rintro ⟨c, hc, hcrash⟩
  obtain ⟨c', hc', hfault⟩ := h
  obtain rfl := Option.some.inj (hc.symm.trans hc')
  rw [hcrash] at hfault
  cases hfault

theorem CallerRequest.Succeeds.not_crashes (h : r.Succeeds g now connection s) :
    ¬ r.Crashes g now connection s := by
  rintro ⟨c, hc, hcrash⟩
  obtain ⟨c', a, hc', hanswer⟩ := h
  obtain rfl := Option.some.inj (hc.symm.trans hc')
  rw [hcrash] at hanswer
  cases hanswer

theorem CallerRequest.Fails.unique {f' : Fault} (h : r.Fails g now connection s f)
    (h' : r.Fails g now connection s f') : f = f' := by
  obtain ⟨c, hc, hfault⟩ := h
  obtain ⟨c', hc', hfault'⟩ := h'
  obtain rfl := Option.some.inj (hc.symm.trans hc')
  rw [hfault] at hfault'
  injection hfault'

/-! ## One verdict for every request -/

/-- What is answered to a request, and why. -/
inductive Verdict (g : Ground σ κ) (now : Nat) (connection : Connection κ) (p : Provider σ κ) :
    CallerRequest → Except ProviderError Json → Prop
  | crashed {r : CallerRequest} (h : r.Crashes g now connection p.store) :
      Verdict g now connection p r (.error .crashed)
  | failed {r : CallerRequest} {f : Fault} (h : r.Fails g now connection p.store f) :
      Verdict g now connection p r (.ok (Wire.tagged "err" (r.errorJson f)))
  | forgiven {op : KeyValue.Operation}
      (h : (CallerRequest.keyValue op).Fails g now connection p.store .documentNotFound)
      (hop : op.Forgives) :
      Verdict g now connection p (.keyValue op) (.ok (Wire.tagged "ok" .null))
  | succeeded {r : CallerRequest} {j : Json} (h : r.Succeeds g now connection p.store)
      (hj : Outcome.Shape j) : Verdict g now connection p r (.ok j)
  | unlisted (bucket : String) (cursor? : Option UInt64) :
      Verdict g now connection p (.keyValue (.listKeys bucket cursor?))
        (.ok (Wire.tagged "err" KeyValue.Operation.noListing.toJson))
  | deferred (work : Background) :
      Verdict g now connection p (.background work) (.ok (.text (p.nextHandle g work)))

theorem verdict_document (op : Document.Operation) :
    Verdict g now connection p (.document op) (p.document g now connection op).1 := by
  have hreply : (p.document g now connection op).1 = reply op.answerJson DocumentError.toJson
      (op.ofAttempt (g.backend.perform connection now op.call p.store).1) := rfl
  rw [hreply]
  cases hattempt : (g.backend.perform connection now op.call p.store).1 with
  | answer a => exact .succeeded ⟨op.call, a, rfl, hattempt⟩ (Outcome.shape_toJson _ _ _)
  | fault f => exact .failed (f := f) ⟨op.call, rfl, hattempt⟩
  | crash => exact .crashed ⟨op.call, rfl, hattempt⟩

/-- An operation that makes a call refuses its faults, or forgives that there is no document. -/
theorem verdict_conclude {op : KeyValue.Operation} {c : Call} (hc : op.call? = some c)
    {onAnswer : c.Answer → Except StoreError op.Answer}
    {onFault : Fault → Except StoreError op.Answer}
    (hreply : (p.keyValue g now connection op).1 = reply op.answerJson StoreError.toJson
      (KeyValue.Operation.conclude onAnswer onFault
        (g.backend.perform connection now c p.store).1))
    (hfault : ∀ f, onFault f = KeyValue.Operation.refuse f ∨ f = .documentNotFound ∧ op.Forgives ∧
      Outcome.toJson op.answerJson StoreError.toJson (onFault f) = Wire.tagged "ok" .null) :
    Verdict g now connection p (.keyValue op) (p.keyValue g now connection op).1 := by
  rw [hreply]
  cases hattempt : (g.backend.perform connection now c p.store).1 with
  | answer a => exact .succeeded ⟨c, a, hc, hattempt⟩ (Outcome.shape_toJson _ _ _)
  | crash => exact .crashed ⟨c, hc, hattempt⟩
  | fault f =>
    rcases hfault f with hrefuse | ⟨rfl, hforgives, hnull⟩
    · simp only [KeyValue.Operation.conclude, hrefuse]
      exact .failed (f := f) ⟨c, hc, hattempt⟩
    · simp only [KeyValue.Operation.conclude, reply, hnull]
      exact .forgiven ⟨c, hc, hattempt⟩ hforgives

theorem verdict_keyValue (op : KeyValue.Operation) :
    Verdict g now connection p (.keyValue op) (p.keyValue g now connection op).1 := by
  cases op with
  | get bucket key =>
    refine verdict_conclude rfl rfl fun f ↦ ?_
    cases f with
    | documentNotFound => exact Or.inr ⟨rfl, trivial, rfl⟩
    | _ => exact Or.inl rfl
  | delete bucket key =>
    refine verdict_conclude rfl rfl fun f ↦ ?_
    cases f with
    | documentNotFound => exact Or.inr ⟨rfl, trivial, rfl⟩
    | _ => exact Or.inl rfl
  | listKeys bucket cursor? => exact .unlisted bucket cursor?
  | set bucket key value => exact verdict_conclude rfl rfl fun f ↦ Or.inl rfl
  | contains bucket key => exact verdict_conclude rfl rfl fun f ↦ Or.inl rfl
  | increment bucket key delta => exact verdict_conclude rfl rfl fun f ↦ Or.inl rfl

/-- Every request that is served over a connection has its verdict. -/
theorem verdict_serveCaller (g : Ground σ κ) (now : Nat) (connection : Connection κ)
    (p : Provider σ κ) (r : CallerRequest) :
    Verdict g now connection p r (p.serveCaller g now connection r).1 := by
  cases r with
  | document op => exact verdict_document op
  | background work => exact .deferred work
  | keyValue op => exact verdict_keyValue op

/-! ## What a request leaves -/

/-- The store after a request is that after its call, if it makes one. -/
theorem store_serveCaller (g : Ground σ κ) (now : Nat) (connection : Connection κ)
    (p : Provider σ κ) (r : CallerRequest) :
    (p.serveCaller g now connection r).2.store =
      r.call?.elim p.store fun c ↦ (g.backend.perform connection now c p.store).2 := by
  cases r with
  | document op => rfl
  | background work => cases work <;> rfl
  | keyValue op => cases op <;> rfl

/-- No caller changes the links. -/
theorem router_serveCaller (g : Ground σ κ) (now : Nat) (connection : Connection κ)
    (p : Provider σ κ) (r : CallerRequest) :
    (p.serveCaller g now connection r).2.router = p.router := by
  cases r with
  | document op => rfl
  | background work => cases work <;> rfl
  | keyValue op => rfl

/-! ## Calls that do not come back -/

theorem serveCaller_eq_error_iff {e : ProviderError} :
    (p.serveCaller g now connection r).1 = .error e ↔
      e = .crashed ∧ r.Crashes g now connection p.store := by
  have hverdict := verdict_serveCaller g now connection p r
  generalize (p.serveCaller g now connection r).1 = answer at hverdict
  cases hverdict with
  | crashed h => exact ⟨fun heq ↦ ⟨(Except.error.inj heq).symm, h⟩, fun h ↦ congrArg _ h.1.symm⟩
  | failed h => exact iff_of_false nofun fun hand ↦ h.not_crashes hand.2
  | forgiven h => exact iff_of_false nofun fun hand ↦ h.not_crashes hand.2
  | succeeded h => exact iff_of_false nofun fun hand ↦ h.not_crashes hand.2
  | unlisted => exact iff_of_false nofun fun ⟨_, _, hc, _⟩ ↦ by cases hc
  | deferred => exact iff_of_false nofun fun ⟨_, _, hc, _⟩ ↦ by cases hc

/-- The request is let through, and the call that it makes does not come back. -/
def CallCrashes (g : Ground σ κ) (now : Nat) (p : Provider σ κ) (q : Rpc.Request) : Prop :=
  ∃ params r a, (q.method, params) ∈ callerMethods ∧ params (q.params?.getD .null) = .ok r ∧
    Admits p q.headers a ∧ r.Crashes g now a.connection p.store

theorem Admits.unique {headers : Fields String} {a a' : Attached κ} (h : Admits p headers a)
    (h' : Admits p headers a') : a = a' := by
  obtain ⟨source, hsource, _, hfind⟩ := h
  obtain ⟨source', hsource', _, hfind'⟩ := h'
  obtain rfl := Option.some.inj (hsource.symm.trans hsource')
  exact Option.some.inj (hfind.symm.trans hfind')

/-- A request that is let through is served over the connection of its caller. -/
theorem serve_of_admits {q : Rpc.Request} {params : Wire.Decoder CallerRequest} {a : Attached κ}
    (hmethod : (q.method, params) ∈ callerMethods)
    (hparams : params (q.params?.getD .null) = .ok r) (hadmits : Admits p q.headers a)
    (g : Ground σ κ) (now : Nat) :
    p.serve g now q.method q.params? q.headers = p.serveCaller g now a.connection r := by
  rw [serve_of_ofName? (ofName?_of_caller hmethod)]
  rcases callerMethod_gate g now params q.params? q.headers p with
    ⟨hanonymous, _⟩ | ⟨_, m, hread, _⟩ | ⟨_, _, hunlinked, _⟩ | ⟨_, r', a', hread, hadmits', heq⟩
  · obtain ⟨source, hsource, hne, _⟩ := hadmits
    rcases hanonymous with hnone | hempty
    · rw [hsource] at hnone
      cases hnone
    · rw [hsource] at hempty
      exact absurd (Option.some.inj hempty) hne
  · rw [hparams] at hread
    cases hread
  · exact absurd hunlinked hadmits.not_unlinked
  · rw [hparams] at hread
    obtain rfl := Except.ok.inj hread
    obtain rfl := hadmits.unique hadmits'
    exact heq

/-- No handle that gives nothing is an internal error. -/
theorem code_ofHandleFault_ne (fault : HandleFault) :
    (ProviderError.ofHandleFault fault).code ≠ -32603 := by
  cases fault with
  | notFound handle => exact (by decide : (-32004 : Int32) ≠ -32603)
  | notReady handle => exact (by decide : (-32005 : Int32) ≠ -32603)

theorem code_mapError_ne {α : Type} {answer : Except HandleFault α} {e : ProviderError}
    (h : answer.mapError ProviderError.ofHandleFault = .error e) : e.code ≠ -32603 := by
  cases answer with
  | ok a => cases h
  | error fault =>
    obtain rfl := Except.error.inj h
    exact code_ofHandleFault_ne fault

theorem code_serveHost_ne {r : HostRequest} {e : ProviderError}
    (h : (p.serveHost g r).1 = .error e) : e.code ≠ -32603 := by
  cases r with
  | linkPut d =>
    simp only [serveHost, linkPut, Router.attach] at h
    cases hargs : Link.Args.ofDefinition d with
    | error gap =>
      rw [hargs] at h
      obtain rfl := Except.error.inj h
      exact (by decide : (-32003 : Int32) ≠ -32603)
    | ok args =>
      rw [hargs] at h
      cases h
  | ready kind handle => exact code_mapError_ne h
  | fetch kind handle => exact code_mapError_ne h
  | _ => cases h

/-- An internal error comes of a call alone. -/
theorem callCrashes_of_error {q : Rpc.Request} {e : ProviderError}
    (h : (p.serve g now q.method q.params? q.headers).1 = .error e) (he : e.code = -32603) :
    CallCrashes g now p q := by
  unfold serve at h
  cases hname : Method.ofName? q.method with
  | none =>
    rw [hname] at h
    obtain rfl := Except.error.inj h
    exact absurd he (by decide : (-32601 : Int32) ≠ -32603)
  | some method =>
    rw [hname] at h
    cases method with
    | host params =>
      simp only [hostMethod] at h
      cases hread : params (q.params?.getD .null) with
      | error m =>
        rw [readParams_of_error hread] at h
        obtain rfl := Except.error.inj h
        exact absurd he (by decide : (-32602 : Int32) ≠ -32603)
      | ok r =>
        rw [readParams_eq_ok_iff.2 hread] at h
        exact absurd he (code_serveHost_ne h)
    | caller params =>
      have hmem : (q.method, params) ∈ callerMethods := by
        simpa [methods] using ofName?_eq_some_iff.1 hname
      simp only at h
      rcases callerMethod_gate g now params q.params? q.headers p with
        ⟨_, heq⟩ | ⟨_, m, _, heq⟩ | ⟨_, _, _, source, heq⟩ | ⟨_, r, a, hread, hadmits, heq⟩
      · rw [heq] at h
        obtain rfl := Except.error.inj h
        exact absurd he (by decide : (-32001 : Int32) ≠ -32603)
      · rw [heq] at h
        obtain rfl := Except.error.inj h
        exact absurd he (by decide : (-32602 : Int32) ≠ -32603)
      · rw [heq] at h
        obtain rfl := Except.error.inj h
        exact absurd he (by decide : (-32002 : Int32) ≠ -32603)
      · rw [heq] at h
        exact ⟨params, r, a, hmem, hread, hadmits, (serveCaller_eq_error_iff.1 h).2⟩

/-- The code of an internal error stands for a call that did not come back, and for nothing else. -/
theorem code?_internal_iff {q : Rpc.Request} :
    ((handler g now).onRequest q p).1.code? = some (-32603) ↔ CallCrashes g now p q := by
  have hresponse : ((handler g now).onRequest q p).1 =
      respond q.id (p.serve g now q.method q.params? q.headers).1 := rfl
  rw [hresponse]
  constructor
  · intro hcode
    cases hanswer : (p.serve g now q.method q.params? q.headers).1 with
    | ok j =>
      rw [hanswer] at hcode
      cases hcode
    | error e =>
      rw [hanswer] at hcode
      exact callCrashes_of_error hanswer (Option.some.inj hcode)
  · rintro ⟨params, r, a, hmethod, hparams, hadmits, hcrashes⟩
    rw [serve_of_admits hmethod hparams hadmits, serveCaller_eq_error_iff.2 ⟨rfl, hcrashes⟩]
    rfl

/-! ## A caller and its link -/

/-- The host links a caller. -/
def linkRequest : Rpc.Request :=
  let link : Link.Definition :=
    ⟨"s", "default", .ofList [("bucketName", "b"), ("connectionString", "mem://h"),
      ("username", "u")], .ofList [("password", .string "p")]⟩
  ⟨1, "provider.link_put", some link.toJson, .empty⟩

/-- A request of this caller about a document, without options. -/
def documentRequest (id : UInt64) (method : String) : Rpc.Request :=
  ⟨id, method, some (.object [("id", .text "a")]), .ofList [("source-id", "s")]⟩

/-- The host asks for the result of reading under a handle. -/
def resultRequest (id : UInt64) (handle : String) : Rpc.Request :=
  ⟨id, "document.get_result.get", some (.object [("handle", .text handle)]), .empty⟩

/-- A provider that has linked this caller, on a store that nothing was done to. -/
def linked (g : Ground Nat Unit) : Provider Nat Unit :=
  before g (create {} 0) [.request linkRequest 0] 1

end Provider
end Depot
