import Depot.Proofs.Memory.Untouched
import Depot.Proofs.Provider.Methods

/-!
# Requests that fail

A request that fails is one that ends in an error or answers one. Errors come from before the store
is called, or from the store, which then has changed nothing, or from what the store answered, when
the content is no text. For an operation that only reads this does no harm. The two that read and
change a document at once have locked or touched it by then (`Takes`), and their caller is not told
the version that the document got. `failure_changes_nothing_iff` says that there is no other way for
a request on documents or keys to fail and change anything.
-/

set_option autoImplicit false
set_option relaxedAutoImplicit false

namespace Depot

open Memory

/-- The request ended in an error, or answered one. -/
def Rpc.Response.Fails (r : Rpc.Response) : Prop :=
  r.error? ≠ none ∨ ∃ e, r.result? = some (.object [("err", e)])

/-- What an operation that reads and changes a document at once does to it. -/
def Document.Operation.taking? (cas : UInt64) : Document.Operation → Option Deed
  | .getAndLock _ o => some (.locked o.time.toNat cas)
  | .getAndTouch _ o => some (.touched o.expiry.toNat cas)
  | _ => none

namespace Provider

variable {policy : Policy} {tokens : Nat → String} {p p' : Provider Store Collection} {now : Nat}

/-- The answer is an error, or there is none. -/
def Fails : Except ProviderError Json → Prop
  | .error _ => True
  | .ok j => ∃ e, j = .object [("err", e)]

theorem fails_respond_iff {id : UInt64} {r : Except ProviderError Json} :
    (respond id r).Fails ↔ Fails r := by
  cases r with
  | error e => simp [respond, Rpc.Response.failure, Rpc.Response.Fails, Fails]
  | ok j => simp [respond, Rpc.Response.success, Rpc.Response.Fails, Fails]

theorem fails_reply_ok {ε α : Type} {ofAnswer : α → Json} {ofError : ε → Json} {a : α} :
    ¬ Fails (reply ofAnswer ofError (some (.ok a))) := by
  rintro ⟨e, he⟩
  simp [Outcome.toJson, Wire.tagged] at he

/-! ## Key-value operations -/

/-- What is made of a call leaves the store as it was, or it is no error. -/
theorem conclude_cases {ε : Type} (policy : Policy) (connection : Connection Collection)
    (now : Nat) (c : Call) (s : Store) {onAnswer : c.Answer → Except StoreError ε}
    (onFault : Fault → Except StoreError ε) (hok : ∀ a, ∃ v, onAnswer a = .ok v) :
    ((backend policy).perform connection now c s).2 = s ∨
      ∃ v, KeyValue.Operation.conclude onAnswer onFault
        ((backend policy).perform connection now c s).1 = some (.ok v) := by
  rcases Store.perform_cases policy connection now c s with
    ⟨f, hperform⟩ | ⟨k, b, b', a, _, _, _, hperform⟩
  · rw [hperform]
    exact Or.inl rfl
  · obtain ⟨v, hv⟩ := hok a
    rw [hperform]
    exact Or.inr ⟨v, congrArg some hv⟩

/-- A key-value operation leaves the store as it was, or it is no error. -/
theorem run_cases (policy : Policy) (connection : Connection Collection) (now : Nat) (s : Store)
    (op : KeyValue.Operation) :
    (op.run (backend policy) connection now s).2 = s ∨
      ∃ v, (op.run (backend policy) connection now s).1 = some (.ok v) := by
  cases op with
  | get bucket key =>
    exact conclude_cases policy connection now (.get key {}) s _ fun a ↦ ⟨_, rfl⟩
  | set bucket key value =>
    exact conclude_cases policy connection now (.upsert key value {}) s _ fun a ↦ ⟨_, rfl⟩
  | delete bucket key =>
    exact conclude_cases policy connection now (.remove key {}) s _ fun a ↦ ⟨_, rfl⟩
  | contains bucket key =>
    exact conclude_cases policy connection now (.contains key none) s _ fun a ↦ ⟨_, rfl⟩
  | listKeys bucket cursor? => exact Or.inl rfl
  | increment bucket key delta =>
    exact conclude_cases policy connection now
      (.increment key { delta, initial? := some delta }) s _ fun a ↦ ⟨_, rfl⟩

/-- A key-value operation that fails changes nothing. -/
theorem eq_of_fails_keyValue {connection : Connection Collection} {op : KeyValue.Operation}
    (hfails : Fails (p.keyValue ⟨backend policy, tokens⟩ now connection op).1) :
    (p.keyValue ⟨backend policy, tokens⟩ now connection op).2 = p := by
  change Fails (reply op.answerJson StoreError.toJson
    (op.run (backend policy) connection now p.store).1) at hfails
  change { p with store := (op.run (backend policy) connection now p.store).2 } = p
  rcases run_cases policy connection now p.store op with hsame | ⟨v, hv⟩
  · rw [hsame]
  · rw [hv] at hfails
    exact absurd hfails fails_reply_ok

/-! ## Document operations -/

theorem document_eq {connection : Connection Collection} {op : Document.Operation}
    {attempt : Attempt op.call.Answer} {s : Store}
    (h : (backend policy).perform connection now op.call p.store = (attempt, s)) :
    p.document ⟨backend policy, tokens⟩ now connection op =
      (reply op.answerJson DocumentError.toJson (op.ofAttempt attempt), { p with store := s }) := by
  unfold document Document.Operation.run
  simp only [h]

/-- Readings whose content is text are answered, and no others. -/
theorem ofReading_eq (r : Reading) : ReadResult.ofReading r =
    match Text.decode? r.content with
    | some text => .ok ⟨.raw text, r.cas, r.remaining?.map UInt64.ofNat⟩
    | none => .error .notJson := by
  unfold ReadResult.ofReading Document.ofBytes
  cases Text.decode? r.content <;> rfl

/-- An answer of the store turns into an error only for an operation that reads. -/
theorem isRead_or_taking {op : Document.Operation} {a : op.call.Answer} {e : DocumentError}
    (h : op.ofAnswer a = .error e) (cas : UInt64) :
    op.call.isRead = true ∨ ∃ d, op.taking? cas = some d := by
  cases op with
  | get => exact Or.inl rfl
  | getAllReplicas => exact Or.inl rfl
  | getAnyReplica => exact Or.inl rfl
  | getAndLock => exact Or.inr ⟨_, rfl⟩
  | getAndTouch => exact Or.inr ⟨_, rfl⟩
  | _ => cases h

/-- What an operation does that reads a document and changes it at once. -/
theorem step_of_taking {op : Document.Operation} {k : Keyspace} {b : Bucket} {e : Entry} {d : Deed}
    (htaking : op.taking? b.nextCas = some d) (he : b.live? ⟨k, op.call.id⟩ now = some e)
    (hunlocked : e.isLocked now = false) :
    ∃ a b', b.step k now op.call = .ok (a, b') ∧ b.Follows ⟨k, op.call.id⟩ now d b' ∧
      (Text.decode? e.content = none → op.ofAnswer a = .error .notJson) ∧
      ∀ text, Text.decode? e.content = some text → ∃ expiresIn?,
        reply op.answerJson DocumentError.toJson (some (op.ofAnswer a)) =
          .ok (.object [("ok", ReadResult.toJson ⟨.raw text, b.nextCas, expiresIn?⟩)]) := by
  cases op with
  | getAndLock id o =>
    cases htaking
    have hstep : b.step k now (Document.Operation.getAndLock id o).call = .ok _ :=
      Bucket.getAndLock_eq_ok_iff.2 ⟨e, ⟨he, hunlocked⟩, rfl, rfl⟩
    refine ⟨_, _, hstep, Bucket.follows_of_step hstep, fun hnone ↦ ?_, fun text htext ↦ ?_⟩
    · change ReadResult.ofReading _ = _
      rw [ofReading_eq, hnone]
    · refine ⟨none, ?_⟩
      change reply ReadResult.toJson DocumentError.toJson (some (ReadResult.ofReading _)) = _
      rw [ofReading_eq, htext]
      rfl
  | getAndTouch id o =>
    cases htaking
    have hstep : b.step k now (Document.Operation.getAndTouch id o).call = .ok _ :=
      Bucket.getAndTouch_eq_ok_iff.2 ⟨e, ⟨he, hunlocked⟩, rfl, rfl⟩
    refine ⟨_, _, hstep, Bucket.follows_of_step hstep, fun hnone ↦ ?_, fun text htext ↦ ?_⟩
    · change ReadResult.ofReading _ = _
      rw [ofReading_eq, hnone]
    · refine ⟨((deadline? now (some o.expiry.toNat)).map (· - now)).map UInt64.ofNat, ?_⟩
      change reply ReadResult.toJson DocumentError.toJson (some (ReadResult.ofReading _)) = _
      rw [ofReading_eq, htext]
      rfl
  | _ => cases htaking

/-- Whoever is answered by an operation that reads and changes a document has found it unlocked. -/
theorem live?_of_taking {op : Document.Operation} {k : Keyspace} {b b' : Bucket} {d : Deed}
    {a : op.call.Answer} (htaking : op.taking? b.nextCas = some d)
    (hstep : b.step k now op.call = .ok (a, b')) :
    ∃ e, b.live? ⟨k, op.call.id⟩ now = some e ∧ e.isLocked now = false ∧
      ∀ error, op.ofAnswer a = .error error → Text.decode? e.content = none := by
  have hread : ∀ r error, ReadResult.ofReading r = .error error →
      Text.decode? r.content = none := by
    intro r error herror
    rw [ofReading_eq] at herror
    cases hdecode : Text.decode? r.content with
    | none => rfl
    | some text =>
      rw [hdecode] at herror
      cases herror
  cases op with
  | getAndLock id o =>
    obtain ⟨e, ⟨he, hunlocked⟩, hr, _⟩ := Bucket.getAndLock_eq_ok_iff.1 hstep
    refine ⟨e, he, hunlocked, fun error herror ↦ ?_⟩
    have hnone := hread a error herror
    rwa [← hr] at hnone
  | getAndTouch id o =>
    obtain ⟨e, ⟨he, hunlocked⟩, hr, _⟩ := Bucket.getAndTouch_eq_ok_iff.1 hstep
    refine ⟨e, he, hunlocked, fun error herror ↦ ?_⟩
    have hnone := hread a error herror
    rwa [← hr] at hnone
  | _ => cases htaking

/-- A document operation that fails changes nothing, or it has taken a document that is no text. -/
theorem eq_or_taken_of_fails_document {connection : Connection Collection}
    {op : Document.Operation}
    (hfails : Fails (p.document ⟨backend policy, tokens⟩ now connection op).1) :
    (p.document ⟨backend policy, tokens⟩ now connection op).2 = p ∨
      ∃ k b e d, connection = .live k ∧ p.store.get? k.site = some b ∧
        op.taking? b.nextCas = some d ∧ b.live? ⟨k.keyspace, op.call.id⟩ now = some e ∧
        e.isLocked now = false ∧ Text.decode? e.content = none := by
  rcases Store.perform_cases policy connection now op.call p.store with
    ⟨f, hperform⟩ | ⟨k, b, b', a, hlive, hb, hstep, hperform⟩
  · rw [document_eq hperform]
    exact Or.inl rfl
  · rw [document_eq hperform] at hfails ⊢
    change Fails (reply op.answerJson DocumentError.toJson (some (op.ofAnswer a))) at hfails
    cases hanswer : op.ofAnswer a with
    | ok v =>
      rw [hanswer] at hfails
      exact absurd hfails fails_reply_ok
    | error error =>
      rcases isRead_or_taking hanswer b.nextCas with hread | ⟨d, htaking⟩
      · rw [Store.eq_of_isRead hread hperform]
        exact Or.inl rfl
      · obtain ⟨e, he, hunlocked, hnone⟩ := live?_of_taking htaking hstep
        exact Or.inr ⟨k, b, e, d, hlive, hb, htaking, he, hunlocked, hnone error hanswer⟩

/-! ## Requests -/

/-- The request reads and changes a document `e` that it finds unlocked in the bucket `b` of its
caller's collection. -/
structure Takes (p : Provider Store Collection) (now : Nat) (request : Rpc.Request) (k : Collection)
    (op : Document.Operation) (b : Bucket) (e : Entry) (d : Deed) : Prop where
  requested : ∃ params, (request.method, params) ∈ documentMethods ∧
    params (request.params?.getD .null) = .ok (.document op)
  connected : ∃ who, p.identify request.headers = .ok who ∧ p.resolve who = .ok (.live k)
  bucket : p.store.get? k.site = some b
  taking : op.taking? b.nextCas = some d
  found : b.live? ⟨k.keyspace, op.call.id⟩ now = some e
  unlocked : e.isLocked now = false

/-- A request that takes a document is answered with it and with its new version if it is text;
otherwise the answer is an error, though the document has its new version all the same. -/
theorem serve_of_takes (policy : Policy) (tokens : Nat → String) {request : Rpc.Request}
    {k : Collection} {op : Document.Operation} {b : Bucket} {e : Entry} {d : Deed}
    (h : Takes p now request k op b e d) :
    ∃ r b', p.serve ⟨backend policy, tokens⟩ now request.method request.params? request.headers =
        (r, { p with store := p.store.insert k.site b' }) ∧
      b.Follows ⟨k.keyspace, op.call.id⟩ now d b' ∧
      (Text.decode? e.content = none → r = .ok (.object [("err", .text "not-json")])) ∧
      ∀ text, Text.decode? e.content = some text → ∃ expiresIn?,
        r = .ok (.object [("ok", ReadResult.toJson ⟨.raw text, b.nextCas, expiresIn?⟩)]) := by
  obtain ⟨params, hmem, hparams⟩ := h.requested
  obtain ⟨who, hwho, hresolve⟩ := h.connected
  obtain ⟨a, b', hstep, hfollows, hnone, hsome⟩ := step_of_taking h.taking h.found h.unlocked
  have hperform : (backend policy).perform (.live k) now op.call p.store =
      (.answer a, p.store.insert k.site b') :=
    Store.perform_of_step (Store.step_of_ok h.bucket hstep)
  refine ⟨reply op.answerJson DocumentError.toJson (some (op.ofAnswer a)), b', ?_, hfollows,
    fun hcontent ↦ ?_, hsome⟩
  · rw [serve_of_ofName? (ofName?_of_document hmem), callerMethod, hwho,
      readParams_eq_ok_iff.2 hparams]
    simp only [hresolve]
    change p.document ⟨backend policy, tokens⟩ now (.live k) op = _
    exact document_eq hperform
  · rw [hnone hcontent]
    rfl

/-- A request on documents or keys that fails changes nothing, unless it takes a document that is no
text. -/
theorem eq_of_fails_serve {request : Rpc.Request}
    (hmethod : request.method ∈ (documentMethods ++ keyValueMethods).map Prod.fst)
    (hfails : Fails
      (p.serve ⟨backend policy, tokens⟩ now request.method request.params? request.headers).1)
    (htakes : ¬ ∃ k op b e d, Takes p now request k op b e d ∧ Text.decode? e.content = none) :
    (p.serve ⟨backend policy, tokens⟩ now request.method request.params?
      request.headers).2 = p := by
  obtain ⟨⟨name, params⟩, hmem, heq⟩ := List.mem_map.1 hmethod
  obtain rfl : name = request.method := heq
  have hname : Method.ofName? request.method = some (.caller params) := by
    rcases List.mem_append.1 hmem with hdocument | hkeyValue
    · exact ofName?_of_document hdocument
    · exact ofName?_of_keyValue hkeyValue
  rw [serve_of_ofName? hname] at hfails ⊢
  rcases callerMethod_cases ⟨backend policy, tokens⟩ now params request.params? request.headers p
    with ⟨e, herror⟩ | ⟨who, r, connection, hwho, hread, hresolve, hserve⟩
  · rw [herror]
  · rw [hserve] at hfails ⊢
    have hparams := readParams_eq_ok_iff.1 hread
    rcases List.mem_append.1 hmem with hdocument | hkeyValue
    · obtain ⟨op, rfl⟩ := givesDocument_of_mem _ hdocument _ _ hparams
      rcases eq_or_taken_of_fails_document hfails with
        hsame | ⟨k, b, e, d, rfl, hb, htaking, he, hunlocked, hnone⟩
      · exact hsame
      · have htaken : Takes p now request k op b e d :=
          ⟨⟨params, hdocument, hparams⟩, ⟨who, hwho, hresolve⟩, hb, htaking, he, hunlocked⟩
        exact absurd ⟨k, op, b, e, d, htaken, hnone⟩ htakes
    · obtain ⟨op, rfl⟩ := givesKeyValue_of_mem _ hkeyValue _ _ hparams
      exact eq_of_fails_keyValue hfails

theorem version?_of_taking {op : Document.Operation} {cas : UInt64} {d : Deed}
    (h : op.taking? cas = some d) : d.version? = some cas := by
  cases op with
  | getAndLock id o =>
    cases h
    rfl
  | getAndTouch id o =>
    cases h
    rfl
  | _ => cases h

theorem ne_nextCas (b : Bucket) : b.clock ≠ b.nextCas := by
  intro h
  have hnat := congrArg UInt64.toNat h
  have hlt := b.clock.toNat_lt
  rw [Bucket.nextCas, UInt64.toNat_add] at hnat
  have hone : (1 : UInt64).toNat = 1 := rfl
  omega

/-- What is seen of a request that takes a document, from outside. -/
theorem onRequest_of_takes {request : Rpc.Request} {response : Rpc.Response}
    (hserved : (handler ⟨backend policy, tokens⟩ now).onRequest request p = (response, p'))
    {k : Collection} {op : Document.Operation} {b : Bucket} {e : Entry} {d : Deed}
    (htakes : Takes p now request k op b e d) :
    (∃ b', p' = { p with store := p.store.insert k.site b' } ∧
      b.Follows ⟨k.keyspace, op.call.id⟩ now d b' ∧
      b'.documents.get? ⟨k.keyspace, op.call.id⟩ = d.apply now (some e) ∧
      b'.clock = b.nextCas) ∧
    (Text.decode? e.content = none →
      response = .success request.id (.object [("err", .text "not-json")])) ∧
    ∀ text, Text.decode? e.content = some text → ∃ expiresIn?, response = .success request.id
      (.object [("ok", ReadResult.toJson ⟨.raw text, b.nextCas, expiresIn?⟩)]) := by
  obtain ⟨hresponse, hafter⟩ := served_of_onRequest hserved
  obtain ⟨r, b', hserve, hfollows, hnone, hsome⟩ := serve_of_takes policy tokens htakes
  rw [hserve] at hresponse hafter
  refine ⟨⟨b', hafter.symm, hfollows, ?_, ?_⟩, fun hcontent ↦ ?_, fun text htext ↦ ?_⟩
  · rw [hfollows.document, (Bucket.live?_eq_some_iff.1 htakes.found).1]
  · rw [hfollows.clock, version?_of_taking htakes.taking]
    rfl
  · rw [← hresponse, hnone hcontent]
    rfl
  · obtain ⟨expiresIn?, hr⟩ := hsome text htext
    refine ⟨expiresIn?, ?_⟩
    rw [← hresponse, hr]
    rfl

/-- When a failed request changes nothing. A request on documents or keys that fails leaves the
provider and its whole store as they were, except where it takes a document that is no text; and
there it never does. A request that takes a document gives it a new version, and locks or touches
it. The answer names the version if the content is text, and otherwise it is an error, and nobody
knows the version by which a lock could be ended. -/
theorem failure_changes_nothing_iff (policy : Policy) (tokens : Nat → String)
    (p : Provider Store Collection) (now : Nat) {request : Rpc.Request}
    (hmethod : request.method ∈ (documentMethods ++ keyValueMethods).map Prod.fst)
    {response : Rpc.Response} {p' : Provider Store Collection}
    (hserved : (handler ⟨backend policy, tokens⟩ now).onRequest request p = (response, p')) :
    (response.Fails → (p' = p ↔
      ¬ ∃ k op b e d, Takes p now request k op b e d ∧ Text.decode? e.content = none)) ∧
    ∀ k op b e d, Takes p now request k op b e d →
      (∃ b', p' = { p with store := p.store.insert k.site b' } ∧
        b.Follows ⟨k.keyspace, op.call.id⟩ now d b' ∧
        b'.documents.get? ⟨k.keyspace, op.call.id⟩ = d.apply now (some e) ∧
        b'.clock = b.nextCas) ∧
      (Text.decode? e.content = none →
        response = .success request.id (.object [("err", .text "not-json")])) ∧
      ∀ text, Text.decode? e.content = some text → ∃ expiresIn?, response = .success request.id
        (.object [("ok", ReadResult.toJson ⟨.raw text, b.nextCas, expiresIn?⟩)]) := by
  constructor
  · intro hfails
    constructor
    · rintro hsame ⟨k, op, b, e, d, htakes, _⟩
      obtain ⟨⟨b', hp', _, _, hclock⟩, _, _⟩ := onRequest_of_takes hserved htakes
      -- the clock of the bucket has moved, so the store is another one
      have hb' : p'.store.get? k.site = some b' := by
        rw [hp']
        exact Table.get?_insert_self _ _ _
      rw [hsame, htakes.bucket] at hb'
      obtain rfl := Option.some.inj hb'
      exact ne_nextCas b hclock
    · intro htakes
      obtain ⟨hresponse, hafter⟩ := served_of_onRequest hserved
      rw [← hresponse, fails_respond_iff] at hfails
      rw [← hafter]
      exact eq_of_fails_serve hmethod hfails htakes
  · intro k op b e d htakes
    exact onRequest_of_takes hserved htakes

/-! ## A lock that nobody can end -/

/-- The headers of one caller. -/
def callerHeaders : Fields String := .ofList [("source-id", "s")]

/-- The caller stores bytes that are no text under a key. -/
def setRequest : Rpc.Request :=
  ⟨2, "keyvalue.store.set", some (.object [("bucket", .text ""), ("key", .text "a"),
    ("value", Wire.ofBytes [255])]), callerHeaders⟩

/-- A provider where the caller was linked and stored its bytes. -/
def bytesStored : Provider Store Collection :=
  let link : Link.Definition :=
    ⟨"s", "default", .ofList [("bucketName", "b"), ("connectionString", "mem://h"),
      ("username", "u")], .ofList [("password", .string "p")]⟩
  [⟨1, "provider.link_put", some link.toJson, .empty⟩, setRequest].foldl
    (fun p request ↦ ((handler ⟨backend {}, fun _ ↦ ""⟩ 0).onRequest request p).2)
    (create {} .empty)

/-- The caller locks the document that the bytes are. -/
def lockRequest : Rpc.Request :=
  ⟨3, "document.get_and_lock", some (.object [("id", .text "a")]), callerHeaders⟩

theorem failure_changes_nothing_iff_lockRequest :
    lockRequest.method ∈ (documentMethods ++ keyValueMethods).map Prod.fst ∧
      Rpc.Response.Fails ((handler ⟨backend {}, fun _ ↦ ""⟩ 0).onRequest lockRequest
        bytesStored).1 ∧
      ((handler ⟨backend {}, fun _ ↦ ""⟩ 0).onRequest lockRequest bytesStored).2 ≠ bytesStored := by
  have hmethod : lockRequest.method ∈ (documentMethods ++ keyValueMethods).map Prod.fst := by decide
  have hfails : Rpc.Response.Fails ((handler ⟨backend {}, fun _ ↦ ""⟩ 0).onRequest lockRequest
      bytesStored).1 := Or.inr ⟨_, rfl⟩
  refine ⟨hmethod, hfails, fun hsame ↦ ?_⟩
  obtain ⟨hiff, _⟩ := failure_changes_nothing_iff {} (fun _ ↦ "") bytesStored 0 hmethod rfl
  have htakes : Takes bytesStored 0 lockRequest ⟨⟨"h", "b"⟩, .default⟩ (.getAndLock "a" {})
      ((Bucket.create "b" 1 {}).store ⟨.default, "a"⟩ [255] none 0) ⟨[255], 2, none, none⟩
      (.locked 0 3) := by
    refine ⟨⟨_, List.mem_of_getElem? (i := 7) rfl, rfl⟩, ⟨_, rfl, rfl⟩, rfl, rfl, rfl, rfl⟩
  exact (hiff hfails).1 hsame ⟨_, _, _, _, _, htakes, rfl⟩

/-- The request to lock the document answers an error, and still the document is locked with a new
version: the caller could store under the key before, and cannot do so after. -/
theorem lockRequest_fails_and_locks :
    ((handler ⟨backend {}, fun _ ↦ ""⟩ 0).onRequest lockRequest bytesStored).1 =
        .success 3 (.object [("err", .text "not-json")]) ∧
      (bytesStored.store.get? ⟨"h", "b"⟩).bind (·.documents.get? ⟨.default, "a"⟩) =
        some ⟨[255], 2, none, none⟩ ∧
      (((handler ⟨backend {}, fun _ ↦ ""⟩ 0).onRequest lockRequest bytesStored).2.store.get?
        ⟨"h", "b"⟩).bind (·.documents.get? ⟨.default, "a"⟩) =
          some ⟨[255], 3, none, some 15000000000⟩ ∧
      ((handler ⟨backend {}, fun _ ↦ ""⟩ 0).onRequest setRequest bytesStored).1 =
        .success 2 (.object [("ok", .null)]) ∧
      ((handler ⟨backend {}, fun _ ↦ ""⟩ 0).onRequest setRequest
        ((handler ⟨backend {}, fun _ ↦ ""⟩ 0).onRequest lockRequest bytesStored).2).1 ≠
          .success 2 (.object [("ok", .null)]) := by
  refine ⟨rfl, rfl, rfl, rfl, fun hsame ↦ ?_⟩
  have herror := congrArg (fun r ↦ (r.result?.bind fun j ↦ j.members?).map (·.map Prod.fst)) hsame
  exact absurd herror (by decide)

end Provider
end Depot
