import Depot.Proofs.Provider.Methods

/-!
# The gate before every effect

A method of callers is refused for want of a caller, for parameters that cannot be read, or for want
of a link, in this order, and a refusal leaves the provider as it was. Calls are counted by a store
that notes them (`Backend.noted`), so that a refusal is seen to make none, and a request that is let
through to make one at most, over the connection that was found for its caller. The three codes
stand for nothing else: a request that is let through fails, if at all, for a call that did not come
back.
-/

set_option autoImplicit false
set_option relaxedAutoImplicit false

namespace Depot

variable {σ κ : Type}

/-- A store with the calls that were made on its collections, in order. -/
structure Noted (σ κ : Type) where
  state : σ
  calls : List (κ × Call)

/-- The same backend; every call on a collection is noted. -/
def Backend.noted (b : Backend σ κ) : Backend (Noted σ κ) κ where
  connect args s :=
    let (r, state) := b.connect args s.state
    (r, { s with state })
  call key now c s :=
    let (r, state) := b.call key now c s.state
    (r, ⟨state, s.calls ++ [(key, c)]⟩)

/-- The calls that were made since are one at most, on the collection of a connection. -/
def Noted.Through (connection : Connection κ) (s s' : Noted σ κ) : Prop :=
  ∃ calls, s'.calls = s.calls ++ calls ∧ calls.length ≤ 1 ∧
    ∀ call ∈ calls, connection = .live call.1

theorem Noted.through_refl (connection : Connection κ) (s : Noted σ κ) : s.Through connection s :=
  ⟨[], (List.append_nil _).symm, Nat.zero_le 1, nofun⟩

theorem Backend.through_perform (b : Backend σ κ) (connection : Connection κ) (now : Nat) (c : Call)
    (s : Noted σ κ) : s.Through connection (b.noted.perform connection now c s).2 := by
  cases connection with
  | live key =>
    refine ⟨[(key, c)], rfl, Nat.le_refl 1, fun call hcall ↦ ?_⟩
    rw [List.mem_singleton.1 hcall]
  | unavailable reason => exact s.through_refl _

/-- The code of the error that a response carries. -/
def Rpc.Response.code? (r : Rpc.Response) : Option Int32 := r.error?.map (·.code)

namespace Provider

open Wire (Decoder)

variable {p : Provider σ κ} {headers : Fields String} {params : Decoder CallerRequest}
  {params? : Option Json}

/-! ## Reasons to refuse -/

/-- The headers name no caller: the header is not there, or empty. -/
def Anonymous (p : Provider σ κ) (headers : Fields String) : Prop :=
  headers.get? p.settings.sourceHeader = none ∨ headers.get? p.settings.sourceHeader = some ""

/-- The parameters cannot be read; absent ones are null. -/
def Unreadable (params : Decoder CallerRequest) (params? : Option Json) : Prop :=
  ∃ m, params (params?.getD .null) = .error m

/-- The caller that the headers name has no link that it means. -/
def Unlinked (p : Provider σ κ) (headers : Fields String) : Prop :=
  ∃ source, headers.get? p.settings.sourceHeader = some source ∧
    p.router.find? p.settings.defaultLink
      ⟨source, (headers.get? p.settings.linkHeader).filter (· ≠ "")⟩ = none

/-- The caller that the headers name, and the link that it means. -/
def Admits (p : Provider σ κ) (headers : Fields String) (a : Attached κ) : Prop :=
  ∃ source, headers.get? p.settings.sourceHeader = some source ∧ source ≠ "" ∧
    p.router.find? p.settings.defaultLink
      ⟨source, (headers.get? p.settings.linkHeader).filter (· ≠ "")⟩ = some a

theorem identify_of_anonymous (h : Anonymous p headers) :
    p.identify headers = .error .missingIdentity := by
  rcases h with h | h <;>
    simp [identify, Identity.ofHeaders, Identity.header?, h, Option.filter_some]

theorem identify_of_not_anonymous (h : ¬ Anonymous p headers) : ∃ source,
    headers.get? p.settings.sourceHeader = some source ∧ source ≠ "" ∧
      p.identify headers = .ok
        ⟨source, (headers.get? p.settings.linkHeader).filter (· ≠ "")⟩ := by
  obtain ⟨hsome, hne⟩ := not_or.1 h
  obtain ⟨source, hsource⟩ := Option.ne_none_iff_exists'.1 hsome
  have hnonempty : source ≠ "" := by
    rintro rfl
    exact hne hsource
  refine ⟨source, hsource, hnonempty, ?_⟩
  simp [identify, Identity.ofHeaders, Identity.header?, hsource, hnonempty, Option.filter_some]

theorem not_unreadable {r : CallerRequest} (h : params (params?.getD .null) = .ok r) :
    ¬ Unreadable params params? := by
  rintro ⟨m, hm⟩
  rw [h] at hm
  cases hm

/-- The three refusals in their order, each before anything is done, and what is served instead. -/
theorem callerMethod_gate (g : Ground σ κ) (now : Nat) (params : Decoder CallerRequest)
    (params? : Option Json) (headers : Fields String) (p : Provider σ κ) :
    (Anonymous p headers ∧
      p.callerMethod g now params params? headers = (.error .missingIdentity, p)) ∨
    (¬ Anonymous p headers ∧ ∃ m, params (params?.getD .null) = .error m ∧
      p.callerMethod g now params params? headers = (.error (.ofMismatch m), p)) ∨
    (¬ Anonymous p headers ∧ ¬ Unreadable params params? ∧ Unlinked p headers ∧
      ∃ source, p.callerMethod g now params params? headers =
        (.error (.unlinkedSource source), p)) ∨
    (¬ Anonymous p headers ∧ ∃ r a, params (params?.getD .null) = .ok r ∧ Admits p headers a ∧
      p.callerMethod g now params params? headers = p.serveCaller g now a.connection r) := by
  unfold callerMethod
  by_cases hanonymous : Anonymous p headers
  · rw [identify_of_anonymous hanonymous]
    exact Or.inl ⟨hanonymous, rfl⟩
  obtain ⟨source, hsource, hne, hidentify⟩ := identify_of_not_anonymous hanonymous
  rw [hidentify]
  cases hread : params (params?.getD .null) with
  | error m =>
    refine Or.inr (Or.inl ⟨hanonymous, m, rfl, ?_⟩)
    rw [readParams_of_error hread]
  | ok r =>
    have hreadable := not_unreadable hread
    rw [readParams_eq_ok_iff.2 hread]
    cases hfind : p.router.find? p.settings.defaultLink
        ⟨source, (headers.get? p.settings.linkHeader).filter (· ≠ "")⟩ with
    | none =>
      refine Or.inr (Or.inr (Or.inl ⟨hanonymous, hreadable, ⟨source, hsource, hfind⟩, source, ?_⟩))
      simp only [resolve, Router.resolve, hfind]
    | some a =>
      refine Or.inr (Or.inr (Or.inr ⟨hanonymous, r, a, rfl, ⟨source, hsource, hne, hfind⟩, ?_⟩))
      simp only [resolve, Router.resolve, hfind]

theorem Admits.not_unlinked {a : Attached κ} (h : Admits p headers a) : ¬ Unlinked p headers := by
  obtain ⟨source, hsource, _, hfind⟩ := h
  rintro ⟨other, hother, hnone⟩
  obtain rfl := Option.some.inj (hsource.symm.trans hother)
  rw [hfind] at hnone
  cases hnone

/-! ## What is let through -/

/-- A request that is let through fails only for a call that did not come back. -/
theorem eq_crashed_of_serveCaller {g : Ground σ κ} {now : Nat} {connection : Connection κ}
    {r : CallerRequest} {e : ProviderError}
    (h : (p.serveCaller g now connection r).1 = .error e) : e = .crashed := by
  have hreply : ∀ {ε α : Type} (ofAnswer : α → Json) (ofError : ε → Json)
      (outcome? : Option (Except ε α)), reply ofAnswer ofError outcome? = .error e →
      e = .crashed := by
    intro ε α ofAnswer ofError outcome? h
    cases outcome? with
    | some outcome => cases h
    | none =>
      cases h
      rfl
  cases r with
  | document op => exact hreply _ _ _ h
  | background work => cases h
  | keyValue op => exact hreply _ _ _ h

/-- Calls are made only over the connection that a request is served over, and one at most. -/
theorem through_serveCaller (b : Backend σ κ) (tokens : Nat → String) (now : Nat)
    (connection : Connection κ) (p : Provider (Noted σ κ) κ) (r : CallerRequest) :
    p.store.Through connection (p.serveCaller ⟨b.noted, tokens⟩ now connection r).2.store := by
  cases r with
  | document op => exact b.through_perform connection now op.call p.store
  | background work =>
    cases work with
    | read => exact p.store.through_refl connection
    | write => exact p.store.through_refl connection
  | keyValue op =>
    cases op with
    | listKeys => exact p.store.through_refl connection
    | _ => exact b.through_perform connection now _ p.store

theorem code?_ne {id : UInt64} {e : ProviderError} {c : Int32} (code : Int32) (he : e.code = code)
    (hne : code ≠ c) : (respond id (.error e)).code? ≠ some c :=
  fun heq ↦ hne (he.symm.trans (Option.some.inj heq))

/-- A request that is let through is never refused, whatever its operation answers. -/
theorem code?_serveCaller_ne {g : Ground σ κ} {now : Nat} {connection : Connection κ}
    {r : CallerRequest} {id : UInt64} {c : Int32} (hc : c ≠ -32603) :
    (respond id (p.serveCaller g now connection r).1).code? ≠ some c := by
  cases hserve : (p.serveCaller g now connection r).1 with
  | ok j => exact nofun
  | error e =>
    obtain rfl := eq_crashed_of_serveCaller hserve
    exact code?_ne (-32603) rfl hc.symm

/-- The gate of every method that needs a caller. A request is refused for want of a caller exactly
when its header is absent or empty, whatever else it holds; otherwise for its parameters exactly
when they cannot be read; otherwise for want of a link exactly when the caller has none that it
means. A refused request leaves the provider as it was: its store and the calls made on it, the
routing table, the results that wait and the work that was asked for. A request that is let through
is served over the connection of its caller, and makes one call at most, on that collection. -/
theorem gate_precedes_effects (b : Backend σ κ) (tokens : Nat → String) (now : Nat)
    (p : Provider (Noted σ κ) κ) {request : Rpc.Request} {params : Decoder CallerRequest}
    (hmethod : (request.method, params) ∈ callerMethods) {response : Rpc.Response}
    {p' : Provider (Noted σ κ) κ}
    (hserved : (handler ⟨b.noted, tokens⟩ now).onRequest request p = (response, p')) :
    (response.code? = some (-32001) ↔ Anonymous p request.headers) ∧
    (response.code? = some (-32602) ↔
      ¬ Anonymous p request.headers ∧ Unreadable params request.params?) ∧
    (response.code? = some (-32002) ↔ ¬ Anonymous p request.headers ∧
      ¬ Unreadable params request.params? ∧ Unlinked p request.headers) ∧
    (Anonymous p request.headers ∨ Unreadable params request.params? ∨
      Unlinked p request.headers → p' = p) ∧
    (¬ Anonymous p request.headers → ¬ Unreadable params request.params? →
      ¬ Unlinked p request.headers → ∃ r a, params (request.params?.getD .null) = .ok r ∧
        Admits p request.headers a ∧
        (response, p') = (respond request.id
          (p.serveCaller ⟨b.noted, tokens⟩ now a.connection r).1,
          (p.serveCaller ⟨b.noted, tokens⟩ now a.connection r).2) ∧
        p.store.Through a.connection p'.store) := by
  obtain ⟨rfl, rfl⟩ := served_of_onRequest hserved
  rw [serve_of_ofName? (ofName?_of_caller hmethod)]
  rcases callerMethod_gate ⟨b.noted, tokens⟩ now params request.params? request.headers p with
    ⟨hanonymous, heq⟩ | ⟨hknown, m, hread, heq⟩ | ⟨hknown, hreadable, hunlinked, source, heq⟩ |
    ⟨hknown, r, a, hread, hadmits, heq⟩
  · rw [heq]
    exact ⟨iff_of_true rfl hanonymous,
      iff_of_false (code?_ne (-32001) rfl (by decide)) fun h ↦ h.1 hanonymous,
      iff_of_false (code?_ne (-32001) rfl (by decide)) fun h ↦ h.1 hanonymous, fun _ ↦ rfl,
      fun h ↦ absurd hanonymous h⟩
  · rw [heq]
    have hunreadable : Unreadable params request.params? := ⟨m, hread⟩
    exact ⟨iff_of_false (code?_ne (-32602) rfl (by decide)) hknown,
      iff_of_true rfl ⟨hknown, hunreadable⟩,
      iff_of_false (code?_ne (-32602) rfl (by decide)) fun h ↦ h.2.1 hunreadable, fun _ ↦ rfl,
      fun _ h ↦ absurd hunreadable h⟩
  · rw [heq]
    exact ⟨iff_of_false (code?_ne (-32002) rfl (by decide)) hknown,
      iff_of_false (code?_ne (-32002) rfl (by decide)) fun h ↦ hreadable h.2,
      iff_of_true rfl ⟨hknown, hreadable, hunlinked⟩, fun _ ↦ rfl,
      fun _ _ h ↦ absurd hunlinked h⟩
  · have hreadable := not_unreadable hread
    have hlinked := hadmits.not_unlinked
    rw [heq]
    refine ⟨iff_of_false (code?_serveCaller_ne (by decide)) hknown,
      iff_of_false (code?_serveCaller_ne (by decide)) fun h ↦ hreadable h.2,
      iff_of_false (code?_serveCaller_ne (by decide)) fun h ↦ hlinked h.2.2, fun h ↦ ?_,
      fun _ _ _ ↦ ?_⟩
    · rcases h with h | h | h
      · exact absurd h hknown
      · exact absurd h hreadable
      · exact absurd h hlinked
    · exact ⟨r, a, hread, hadmits, rfl, through_serveCaller b tokens now a.connection p r⟩

/-- The method that never looks at its collection is refused like all others: without a caller,
without parameters, and without a link. -/
theorem gate_precedes_effects_listKeys :
    let g : Ground (Noted Unit Unit) Unit :=
      ⟨(⟨fun _ s ↦ (.error .timeout, s), fun _ _ _ s ↦ (.crash, s)⟩ : Backend Unit Unit).noted,
        fun _ ↦ ""⟩
    let p : Provider (Noted Unit Unit) Unit := create {} ⟨(), []⟩
    let serve (params? : Option Json) (headers : Fields String) :=
      (handler g 0).onRequest ⟨1, "keyvalue.store.list_keys", params?, headers⟩ p
    let params : Json := .object [("bucket", .text "b")]
    let headers : Fields String := .ofList [("source-id", "s")]
    ((serve (some params) .empty).1.code? = some (-32001) ∧ (serve (some params) .empty).2 = p) ∧
      ((serve none headers).1.code? = some (-32602) ∧ (serve none headers).2 = p) ∧
      ((serve (some params) headers).1.code? = some (-32002) ∧
        (serve (some params) headers).2 = p) := by
  intro g p serve params headers
  have hmethod : ("keyvalue.store.list_keys", _) ∈ callerMethods :=
    List.mem_of_getElem? (i := 20) rfl
  have hanonymous : Anonymous p .empty := Or.inl rfl
  have hknown : ¬ Anonymous p headers := by
    rintro (h | h) <;> exact absurd h (by decide)
  refine ⟨?_, ?_, ?_⟩
  · have hall := gate_precedes_effects _ _ 0 p hmethod
      (show serve (some params) .empty = (_, _) from rfl)
    exact ⟨hall.1.2 hanonymous, hall.2.2.2.1 (Or.inl hanonymous)⟩
  · have hall := gate_precedes_effects _ _ 0 p hmethod
      (show serve none headers = (_, _) from rfl)
    have hunreadable := (hall.2.1.1 rfl).2
    exact ⟨hall.2.1.2 ⟨hknown, hunreadable⟩, hall.2.2.2.1 (Or.inr (Or.inl hunreadable))⟩
  · have hall := gate_precedes_effects _ _ 0 p hmethod
      (show serve (some params) headers = (_, _) from rfl)
    have hunlinked := (hall.2.2.1.1 rfl).2.2
    exact ⟨rfl, hall.2.2.2.1 (Or.inr (Or.inr hunlinked))⟩

end Provider
end Depot
