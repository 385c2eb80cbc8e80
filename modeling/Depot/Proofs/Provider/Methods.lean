import Depot.Provider.Basic
import Depot.Proofs.Chaining

/-!
# Methods by name

Every method has one name, so that looking a name up finds a method exactly when the tables list it
under this name. The parameters of a document method give a document operation, those of a
key-value method a key-value operation, whatever the parameters are. A method of callers is served
over a connection, or it ends in an error before anything is done.
-/

set_option autoImplicit false
set_option relaxedAutoImplicit false

namespace Depot.Provider

open Wire (Decoder)

theorem nodup_methods : (methods.map Prod.fst).Nodup := by decide

/-- A name finds the method that is listed under it. -/
theorem ofName?_eq_some_iff {name : String} {method : Method} :
    Method.ofName? name = some method ↔ (name, method) ∈ methods :=
  Table.get?_eq_some_iff_mem ⟨methods, nodup_methods⟩ name method

theorem ofName?_of_host {name : String} {params : Decoder HostRequest}
    (h : (name, params) ∈ hostMethods) : Method.ofName? name = some (.host params) :=
  ofName?_eq_some_iff.2 (List.mem_append_left _ (List.mem_map.2 ⟨_, h, rfl⟩))

theorem ofName?_of_caller {name : String} {params : Decoder CallerRequest}
    (h : (name, params) ∈ callerMethods) : Method.ofName? name = some (.caller params) :=
  ofName?_eq_some_iff.2 (List.mem_append_right _ (List.mem_map.2 ⟨_, h, rfl⟩))

theorem ofName?_of_document {name : String} {params : Decoder CallerRequest}
    (h : (name, params) ∈ documentMethods) : Method.ofName? name = some (.caller params) :=
  ofName?_of_caller (List.mem_append_left _ (List.mem_append_left _ h))

theorem ofName?_of_keyValue {name : String} {params : Decoder CallerRequest}
    (h : (name, params) ∈ keyValueMethods) : Method.ofName? name = some (.caller params) :=
  ofName?_of_caller (List.mem_append_right _ h)

/-! ## What parameters give -/

/-- The parameters give document operations only. -/
def GivesDocument (params : Decoder CallerRequest) : Prop :=
  ∀ j r, params j = .ok r → ∃ op, r = .document op

/-- The parameters give key-value operations only. -/
def GivesKeyValue (params : Decoder CallerRequest) : Prop :=
  ∀ j r, params j = .ok r → ∃ op, r = .keyValue op

variable {α : Type} {options : Decoder α} {default : α}

theorem givesDocument_byId {make : String → α → Document.Operation} :
    GivesDocument (byId options default make) := by
  intro j r h
  obtain ⟨p, _, rfl⟩ := map_eq_ok_iff.1 h
  exact ⟨_, rfl⟩

theorem givesDocument_byDocument {make : String → Document → α → Document.Operation} :
    GivesDocument (byDocument options default make) := by
  intro j r h
  obtain ⟨p, _, rfl⟩ := map_eq_ok_iff.1 h
  exact ⟨_, rfl⟩

theorem givesKeyValue_map {params : Decoder α} {make : α → KeyValue.Operation} :
    GivesKeyValue fun j ↦ (params j).map fun a ↦ .keyValue (make a) := by
  intro j r h
  obtain ⟨a, _, rfl⟩ := map_eq_ok_iff.1 h
  exact ⟨_, rfl⟩

theorem givesDocument_of_mem : ∀ m ∈ documentMethods, GivesDocument m.2 := by
  simp only [documentMethods, List.forall_mem_cons, List.not_mem_nil, false_implies, implies_true,
    and_true]
  exact ⟨givesDocument_byId, givesDocument_byDocument, givesDocument_byDocument,
    givesDocument_byDocument, givesDocument_byId, givesDocument_byId, givesDocument_byId,
    givesDocument_byId, givesDocument_byId, givesDocument_byId, givesDocument_byId⟩

theorem givesKeyValue_of_mem : ∀ m ∈ keyValueMethods, GivesKeyValue m.2 := by
  simp only [keyValueMethods, List.forall_mem_cons, List.not_mem_nil, false_implies, implies_true,
    and_true]
  exact ⟨givesKeyValue_map, givesKeyValue_map, givesKeyValue_map, givesKeyValue_map,
    givesKeyValue_map, givesKeyValue_map⟩

/-! ## How a method of callers is served -/

variable {σ κ : Type}

theorem readParams_eq_ok_iff {params : Decoder α} {params? : Option Json} {a : α} :
    readParams params params? = .ok a ↔ params (params?.getD .null) = .ok a := by
  unfold readParams
  cases params (params?.getD .null) with
  | error fault => exact ⟨nofun, nofun⟩
  | ok read =>
    show (Except.ok read : Except ProviderError α) = .ok a ↔ _
    rw [Except.ok.injEq, Except.ok.injEq]

theorem readParams_of_error {params : Decoder α} {params? : Option Json} {m : Wire.Mismatch}
    (h : params (params?.getD .null) = .error m) :
    readParams params params? = .error (.ofMismatch m) := by
  rw [readParams, h]
  rfl

theorem serve_of_ofName? {g : Ground σ κ} {now : Nat} {method : String} {params? : Option Json}
    {headers : Fields String} {p : Provider σ κ} {params : Decoder CallerRequest}
    (h : Method.ofName? method = some (.caller params)) :
    p.serve g now method params? headers = p.callerMethod g now params params? headers := by
  rw [serve, h]

/-- A method of the host whose parameters can be read is served at once. -/
theorem serve_of_host {p : Provider σ κ} {q : Rpc.Request} {params : Decoder HostRequest}
    {r : HostRequest} (hmem : (q.method, params) ∈ hostMethods)
    (hparams : params (q.params?.getD .null) = .ok r) (g : Ground σ κ) (now : Nat) :
    p.serve g now q.method q.params? q.headers = p.serveHost g r := by
  rw [serve, ofName?_of_host hmem]
  simp only [hostMethod, readParams_eq_ok_iff.2 hparams]

/-- A request is served, and the response is made of what it comes to. -/
theorem served_of_onRequest {g : Ground σ κ} {now : Nat} {p p' : Provider σ κ}
    {request : Rpc.Request} {response : Rpc.Response}
    (hserved : (handler g now).onRequest request p = (response, p')) :
    respond request.id (p.serve g now request.method request.params? request.headers).1 =
        response ∧
      (p.serve g now request.method request.params? request.headers).2 = p' :=
  ⟨congrArg Prod.fst hserved, congrArg Prod.snd hserved⟩

/-- A method of callers ends in an error before anything is done, or it is served over the
connection of its caller. -/
theorem callerMethod_cases (g : Ground σ κ) (now : Nat) (params : Decoder CallerRequest)
    (params? : Option Json) (headers : Fields String) (p : Provider σ κ) :
    (∃ e, p.callerMethod g now params params? headers = (.error e, p)) ∨
      ∃ who r connection, p.identify headers = .ok who ∧ readParams params params? = .ok r ∧
        p.resolve who = .ok connection ∧
        p.callerMethod g now params params? headers = p.serveCaller g now connection r := by
  unfold callerMethod
  cases hwho : p.identify headers with
  | error e => exact Or.inl ⟨e, rfl⟩
  | ok who =>
    cases hread : readParams params params? with
    | error e => exact Or.inl ⟨e, rfl⟩
    | ok r =>
      cases hresolve : p.resolve who with
      | error e => exact Or.inl ⟨e, by simp only [hresolve]⟩
      | ok connection =>
        exact Or.inr ⟨who, r, connection, rfl, rfl, hresolve, by simp only [hresolve]⟩

/-- A request ends in an error before anything is done, or it is served as its method says. -/
theorem serve_cases (g : Ground σ κ) (now : Nat) (method : String) (params? : Option Json)
    (headers : Fields String) (p : Provider σ κ) :
    (∃ e, p.serve g now method params? headers = (.error e, p)) ∨
    (∃ params r, (method, params) ∈ hostMethods ∧ params (params?.getD .null) = .ok r ∧
      p.serve g now method params? headers = p.serveHost g r) ∨
    ∃ params r connection, (method, params) ∈ callerMethods ∧
      params (params?.getD .null) = .ok r ∧
      p.serve g now method params? headers = p.serveCaller g now connection r := by
  unfold serve
  cases hname : Method.ofName? method with
  | none => exact Or.inl ⟨_, rfl⟩
  | some m =>
    have hmem := ofName?_eq_some_iff.1 hname
    cases m with
    | host params =>
      cases hread : readParams params params? with
      | error e => exact Or.inl ⟨e, by simp only [hostMethod, hread]⟩
      | ok r =>
        refine Or.inr (Or.inl ⟨params, r, ?_, readParams_eq_ok_iff.1 hread,
          by simp only [hostMethod, hread]⟩)
        simpa [methods] using hmem
    | caller params =>
      rcases callerMethod_cases g now params params? headers p with
        ⟨e, heq⟩ | ⟨who, r, connection, _, hread, _, heq⟩
      · exact Or.inl ⟨e, heq⟩
      · refine Or.inr (Or.inr ⟨params, r, connection, ?_, readParams_eq_ok_iff.1 hread, heq⟩)
        simpa [methods] using hmem

end Depot.Provider
