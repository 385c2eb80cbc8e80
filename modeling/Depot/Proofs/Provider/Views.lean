import Depot.Proofs.Memory.Expiry
import Depot.Proofs.Memory.Projection
import Depot.Proofs.Memory.Version
import Depot.Proofs.Provider.Failure
import Depot.Proofs.Provider.Grounded
import Depot.Proofs.Provider.Verdict
import Depot.Proofs.Text.Utf8

/-!
# Two interfaces to one map

Callers reach a collection through key-value operations and through document operations. Both are
calls on the same bucket, so what they show of a key is told by one thing: the content that is there
at the time, or that there is none (`Shows`, `shows_content`). A value is shown as its bytes, a
document as the text that has these bytes, and where no text has them reading a document fails;
what is not there reads as null on one side and as not found on the other. So the answers of one
interface tell those of the other (`Shows.agree`).

What a request writes is what both show afterwards (`shows_of_set`, `shows_of_stores`,
`shows_of_delete`), and a lock holds off the key-value operations that would write
(`refused_of_lockedAt`). The bucket that such an operation names is passed over
(`onRequest_inBucket`). `twoViews_before` says all this of every state that a service comes to.
-/

set_option autoImplicit false
set_option relaxedAutoImplicit false

namespace Depot

open Memory

/-! ## What is shown of a content -/

theorem Wire.tagged_inj {name name' : String} {content content' : Json} :
    tagged name content = tagged name' content' ↔ name = name' ∧ content = content' := by
  simp [tagged]

theorem Wire.ofBytes_inj {s t : Bytes} : ofBytes s = ofBytes t ↔ s = t := by
  refine ⟨fun h ↦ ?_, congrArg _⟩
  have hback := congrArg Wire.bytes h
  rw [bytes_ofBytes, bytes_ofBytes] at hback
  exact Except.ok.inj hback

theorem Text.encode_inj {s t : String} (h : encode s = encode t) : s = t :=
  Option.some.inj ((decode?_eq_some_iff.2 h).symm.trans (decode?_eq_some_iff.2 rfl))

/-- What reading a value shows. -/
def valueView (content? : Option Bytes) : Json :=
  Wire.tagged "ok" (Wire.ofOption Wire.ofBytes content?)

/-- What reading a document shows. -/
def documentView (cas : UInt64) : Option Bytes → Json
  | none => Wire.tagged "err" DocumentError.notFound.toJson
  | some content =>
    match Text.decode? content with
    | some text => Wire.tagged "ok" (ReadResult.toJson ⟨.raw text, cas, none⟩)
    | none => Wire.tagged "err" DocumentError.notJson.toJson

/-- What asking whether there is a value shows. -/
def presenceView (content? : Option Bytes) : Json := Wire.tagged "ok" (.bool content?.isSome)

section

variable {content? : Option Bytes} {cas : UInt64}

theorem valueView_eq_ok_iff {content : Bytes} :
    valueView content? = Wire.tagged "ok" (Wire.ofBytes content) ↔ content? = some content := by
  cases content? with
  | none => simp [valueView, Wire.tagged, Wire.ofOption, Wire.ofBytes]
  | some b =>
    rw [valueView, Wire.ofOption, Wire.tagged_inj, Wire.ofBytes_inj, Option.some.injEq]
    exact and_iff_right rfl

theorem valueView_eq_null_iff : valueView content? = Wire.tagged "ok" .null ↔ content? = none := by
  cases content? <;> simp [valueView, Wire.tagged, Wire.ofOption, Wire.ofBytes]

theorem presenceView_eq_false_iff :
    presenceView content? = Wire.tagged "ok" (.bool false) ↔ content? = none := by
  cases content? <;> simp [presenceView, Wire.tagged]

/-- A document is not there, or it is shown as its text, or it has none. -/
theorem documentView_cases (cas : UInt64) (content? : Option Bytes) :
    (content? = none ∧
        documentView cas content? = Wire.tagged "err" DocumentError.notFound.toJson) ∨
      (∃ text, content? = some (Text.encode text) ∧
        documentView cas content? = Wire.tagged "ok" (ReadResult.toJson ⟨.raw text, cas, none⟩)) ∨
      ∃ content, (∀ text, Text.encode text ≠ content) ∧ content? = some content ∧
        documentView cas content? = Wire.tagged "err" DocumentError.notJson.toJson := by
  cases content? with
  | none => exact .inl ⟨rfl, rfl⟩
  | some content =>
    cases hdecode : Text.decode? content with
    | some text =>
      refine .inr (.inl ⟨text, congrArg some (Text.decode?_eq_some_iff.1 hdecode).symm, ?_⟩)
      rw [documentView, hdecode]
    | none =>
      refine .inr (.inr ⟨content, fun text htext ↦ ?_, rfl, ?_⟩)
      · rw [Text.decode?_eq_some_iff.2 htext] at hdecode
        contradiction
      · rw [documentView, hdecode]

theorem documentView_eq_text_iff {text : String} :
    (∃ cas', documentView cas content? =
        Wire.tagged "ok" (ReadResult.toJson ⟨.raw text, cas', none⟩)) ↔
      content? = some (Text.encode text) := by
  rcases documentView_cases cas content? with
    ⟨rfl, hview⟩ | ⟨text', rfl, hview⟩ | ⟨content, hno, rfl, hview⟩
  · simp [hview, Wire.tagged]
  · rw [hview]
    constructor
    · rintro ⟨cas', h⟩
      have hback := congrArg (fun j ↦ (j.get? "document").bind (·.get? "raw"))
        (Wire.tagged_inj.1 h).2
      have htext : text' = text := by simpa [ReadResult.toJson, Document.toJson, Wire.tagged,
        Json.get?, Json.members?, Members.get?] using hback
      rw [htext]
    · intro h
      rw [Text.encode_inj (Option.some.inj h)]
      exact ⟨cas, rfl⟩
  · rw [hview]
    refine iff_of_false ?_ fun h ↦ hno text (Option.some.inj h).symm
    simp [Wire.tagged]

theorem documentView_eq_notJson_iff :
    documentView cas content? = Wire.tagged "err" DocumentError.notJson.toJson ↔
      ∃ content, (∀ text, Text.encode text ≠ content) ∧ content? = some content := by
  rcases documentView_cases cas content? with
    ⟨rfl, hview⟩ | ⟨text, rfl, hview⟩ | ⟨content, hno, rfl, hview⟩
  · simp [hview, Wire.tagged, DocumentError.toJson, DocumentError.name]
  · rw [hview]
    refine iff_of_false (by simp [Wire.tagged]) ?_
    rintro ⟨content, hno, hcontent⟩
    exact hno text (Option.some.inj hcontent)
  · exact iff_of_true hview ⟨content, hno, rfl⟩

theorem documentView_eq_notFound_iff :
    documentView cas content? = Wire.tagged "err" DocumentError.notFound.toJson ↔
      content? = none := by
  rcases documentView_cases cas content? with
    ⟨rfl, hview⟩ | ⟨text, rfl, hview⟩ | ⟨content, hno, rfl, hview⟩
  · exact iff_of_true hview rfl
  · simp [hview, Wire.tagged]
  · simp [hview, Wire.tagged, DocumentError.toJson, DocumentError.name]

end

namespace Document.Operation

/-- The document that an operation stores, where, and with which lifetime in nanoseconds. -/
def stored? : Operation → Option (String × Document × Option UInt64)
  | insert id d o => some (id, d, o.expiry?)
  | upsert id d o => some (id, d, o.expiry?)
  | replace id d o => some (id, d, o.expiry?)
  | _ => none

end Document.Operation

namespace KeyValue.Operation

/-- The operation with another bucket named. -/
def inBucket (bucket : String) : Operation → Operation
  | get _ key => get bucket key
  | set _ key value => set bucket key value
  | delete _ key => delete bucket key
  | contains _ key => contains bucket key
  | listKeys _ cursor? => listKeys bucket cursor?
  | increment _ key delta => increment bucket key delta

/-- The key that an operation would change. -/
def changes? : Operation → Option String
  | set _ key _ => some key
  | delete _ key => some key
  | increment _ key _ => some key
  | _ => none

end KeyValue.Operation

namespace Memory.Bucket

variable {b b' : Bucket} {k : Keyspace} {key : String} {now : Nat}

/-- What is there under a key. -/
def content? (b : Bucket) (k : Keyspace) (key : String) (now : Nat) : Option Bytes :=
  (b.live? ⟨k, key⟩ now).map Entry.content

/-- What was stored is there until its lifetime ends. -/
theorem content?_store (content : Bytes) (expiry? : Option Nat) {now' : Nat}
    (htime : now' = now ∨ ∀ t, deadline? now expiry? = some t → now' < t) :
    (b.store ⟨k, key⟩ content expiry? now).content? k key now' = some content := by
  have hlive : (b.store ⟨k, key⟩ content expiry? now).live? ⟨k, key⟩ now' =
      some ⟨content, b.nextCas, deadline? now expiry?, none⟩ := by
    refine live?_eq_some_iff.2 ⟨Table.get?_insert_self _ _ _, ?_⟩
    rcases htime with rfl | htime
    · exact isExpired_of_deadline? rfl
    · unfold Entry.isExpired
      cases hdeadline : deadline? now expiry? with
      | none => rfl
      | some t =>
        have hlt := htime t hdeadline
        simp only [Option.any_some, decide_eq_false_iff_not]
        omega
  rw [content?, hlive]
  rfl

theorem content?_drop (now' : Nat) :
    ((b.drop ⟨k, key⟩).advance key).content? k key now' = none := by
  have hnone : ((b.drop ⟨k, key⟩).advance key).documents.get? ⟨k, key⟩ = none := by
    simp [advance, drop, Table.get?_erase]
  rw [content?, live?, hnone]
  rfl

/-- What is not there does not come back by itself. -/
theorem content?_of_absent (h : b.live? ⟨k, key⟩ now = none) {now' : Nat} (hle : now ≤ now') :
    b.content? k key now' = none := by
  rw [live?, Option.filter_eq_none_iff] at h
  rw [content?, Option.map_eq_none_iff, live?, Option.filter_eq_none_iff]
  intro e he
  have hexpired : e.isExpired now = true := by simpa using h e he
  simp [isExpired_of_le hexpired hle]

theorem step_get_eq (b : Bucket) (k : Keyspace) (key : String) (now : Nat) :
    (b.live? ⟨k, key⟩ now = none ∧ b.step k now (.get key {}) = .error .documentNotFound) ∨
      ∃ e, b.live? ⟨k, key⟩ now = some e ∧
        b.step k now (.get key {}) = .ok (⟨e.content, e.cas, none⟩, b) := by
  cases he : b.live? ⟨k, key⟩ now with
  | none => exact .inl ⟨rfl, step_of_absent (c := .get key {}) he⟩
  | some e => exact .inr ⟨e, rfl, step_get_of_live? he rfl⟩

end Memory.Bucket

namespace Provider

open KeyValue (Operation)

section

variable {σ κ : Type}

/-- What a request of a caller reads as. -/
def ReadsAs (q : Rpc.Request) (r : CallerRequest) : Prop :=
  ∃ params, (q.method, params) ∈ callerMethods ∧ params (q.params?.getD .null) = .ok r

/-- The headers name a caller whose link leads over a connection. -/
def LeadsTo (p : Provider σ κ) (headers : Fields String) (connection : Connection κ) : Prop :=
  ∃ a, Admits p headers a ∧ a.connection = connection

/-- A request of a caller whose link leads over a connection, and what it reads as. -/
def Addresses (p : Provider σ κ) (connection : Connection κ) (q : Rpc.Request)
    (r : CallerRequest) : Prop :=
  ReadsAs q r ∧ LeadsTo p q.headers connection

/-- The request is answered with a result. -/
def Gets (g : Ground σ κ) (now : Nat) (p : Provider σ κ) (q : Rpc.Request) (j : Json) : Prop :=
  ((handler g now).onRequest q p).1 = .success q.id j

/-- The provider behind a request. -/
def afterRequest (g : Ground σ κ) (now : Nat) (p : Provider σ κ) (q : Rpc.Request) :
    Provider σ κ :=
  ((handler g now).onRequest q p).2

variable {g : Ground σ κ} {now : Nat} {p : Provider σ κ} {connection : Connection κ}
  {q : Rpc.Request} {r : CallerRequest} {j j' : Json}

theorem onRequest_of_addresses (h : Addresses p connection q r) (g : Ground σ κ) (now : Nat) :
    (handler g now).onRequest q p =
      (respond q.id (p.serveCaller g now connection r).1,
        (p.serveCaller g now connection r).2) := by
  obtain ⟨⟨params, hmethod, hparams⟩, a, hadmits, rfl⟩ := h
  have hserve := serve_of_admits hmethod hparams hadmits g now
  exact congrArg (fun s ↦ (respond q.id s.1, s.2)) hserve

theorem gets_iff_serve :
    Gets g now p q j ↔ (p.serve g now q.method q.params? q.headers).1 = .ok j := by
  change respond q.id (p.serve g now q.method q.params? q.headers).1 = _ ↔ _
  cases (p.serve g now q.method q.params? q.headers).1 with
  | ok j' => simp [respond, Rpc.Response.success]
  | error e => simp [respond, Rpc.Response.success, Rpc.Response.failure]

theorem gets_iff (h : Addresses p connection q r) :
    Gets g now p q j ↔ (p.serveCaller g now connection r).1 = .ok j := by
  obtain ⟨⟨params, hmethod, hparams⟩, a, hadmits, rfl⟩ := h
  rw [gets_iff_serve, serve_of_admits hmethod hparams hadmits]

theorem afterRequest_eq (h : Addresses p connection q r) :
    afterRequest g now p q = (p.serveCaller g now connection r).2 := by
  rw [afterRequest, onRequest_of_addresses h]

theorem Gets.unique (h : Gets g now p q j) (h' : Gets g now p q j') : j = j' := by
  have heq : Rpc.Response.success q.id j = .success q.id j' := h.symm.trans h'
  simpa [Rpc.Response.success] using heq

theorem Gets.iff_eq (h : Gets g now p q j) : Gets g now p q j' ↔ j = j' := by
  constructor
  · exact h.unique
  · rintro rfl
    exact h

/-- Which bucket a key-value operation names makes no difference. -/
theorem keyValue_inBucket (g : Ground σ κ) (now : Nat) (connection : Connection κ)
    (op : Operation) (bucket : String) (p : Provider σ κ) :
    p.keyValue g now connection (op.inBucket bucket) = p.keyValue g now connection op := by
  cases op <;> rfl

/-- So requests that name different buckets are answered alike, and do the same. -/
theorem onRequest_inBucket {q' : Rpc.Request} {op : Operation} {bucket : String}
    (hq : ReadsAs q (.keyValue op)) (hq' : ReadsAs q' (.keyValue (op.inBucket bucket)))
    (hid : q'.id = q.id) (hheaders : q'.headers = q.headers) (g : Ground σ κ) (now : Nat)
    (p : Provider σ κ) :
    (handler g now).onRequest q' p = (handler g now).onRequest q p := by
  obtain ⟨params, hmethod, hparams⟩ := hq
  obtain ⟨params', hmethod', hparams'⟩ := hq'
  have hserve : p.serve g now q'.method q'.params? q'.headers =
      p.serve g now q.method q.params? q.headers := by
    rw [serve_of_ofName? (ofName?_of_caller hmethod), serve_of_ofName? (ofName?_of_caller hmethod')]
    simp only [callerMethod, readParams_eq_ok_iff.2 hparams, readParams_eq_ok_iff.2 hparams',
      hheaders, serveCaller, keyValue_inBucket]
  refine (congrArg (fun s ↦ (respond q'.id s.1, s.2)) hserve).trans ?_
  rw [hid]
  rfl

end

variable {policy : Policy} {tokens : Nat → String} {p : Provider Store Collection}
  {k : Collection} {b b' : Bucket} {now : Nat} {key : String} {q : Rpc.Request}

/-- What both interfaces show of a key: to whoever asks for the value, for the document, or whether
there is one. -/
structure Shows (g : Ground Store Collection) (p : Provider Store Collection) (k : Collection)
    (now : Nat) (key : String) (content? : Option Bytes) : Prop where
  value : ∀ q bucket, Addresses p (.live k) q (.keyValue (.get bucket key)) →
    Gets g now p q (valueView content?)
  document : ∀ q, Addresses p (.live k) q (.document (.get key {})) →
    ∃ cas, Gets g now p q (documentView cas content?)
  presence : ∀ q bucket, Addresses p (.live k) q (.keyValue (.contains bucket key)) →
    Gets g now p q (presenceView content?)

/-! ## Reading -/

/-- Both interfaces show what is in the bucket. -/
theorem shows_content (hb : p.store.get? k.site = some b) (now : Nat) (key : String) :
    Shows ⟨backend policy, tokens⟩ p k now key (b.content? k.keyspace key now) := by
  refine ⟨fun q bucket hq ↦ ?_, fun q hq ↦ ?_, fun q bucket hq ↦ ?_⟩
  · rw [gets_iff hq]
    change reply _ _ (Operation.conclude _ _
      ((backend policy).perform (.live k) now (.get key {}) p.store).1) = _
    rcases Bucket.step_get_eq b k.keyspace key now with ⟨he, hstep⟩ | ⟨e, he, hstep⟩
    · rw [Store.perform_of_step (Store.step_of_error hb hstep), Bucket.content?, he]
      rfl
    · rw [Store.perform_of_step (Store.step_of_ok hb hstep), Bucket.content?, he]
      rfl
  · simp only [gets_iff hq]
    rcases Bucket.step_get_eq b k.keyspace key now with ⟨he, hstep⟩ | ⟨e, he, hstep⟩
    · have hperform : (backend policy).perform (.live k) now
          (Document.Operation.get key {}).call p.store = (.fault .documentNotFound, p.store) :=
        Store.perform_of_step (Store.step_of_error hb hstep)
      refine ⟨0, ?_⟩
      rw [serveCaller, document_eq hperform, Bucket.content?, he]
      rfl
    · have hperform : (backend policy).perform (.live k) now
          (Document.Operation.get key {}).call p.store =
            (.answer ⟨e.content, e.cas, none⟩, p.store.insert k.site b) :=
        Store.perform_of_step (Store.step_of_ok hb hstep)
      refine ⟨e.cas, ?_⟩
      rw [serveCaller, document_eq hperform, Bucket.content?, he]
      change reply _ _ (some (ReadResult.ofReading ⟨e.content, e.cas, none⟩)) = _
      rw [ofReading_eq, Option.map_some, documentView]
      cases Text.decode? e.content <;> rfl
  · rw [gets_iff hq]
    have hstep : b.step k.keyspace now (.contains key none) =
        .ok ((b.live? ⟨k.keyspace, key⟩ now).isSome, b) := rfl
    change reply _ _ (Operation.conclude _ _
      ((backend policy).perform (.live k) now (.contains key none) p.store).1) = _
    rw [Store.perform_of_step (Store.step_of_ok hb hstep), presenceView, Bucket.content?,
      Option.isSome_map]
    rfl

/-- What one interface answers about a key tells what the others do. -/
structure Agree (g : Ground Store Collection) (p : Provider Store Collection) (k : Collection)
    (now : Nat) (key : String) : Prop where
  answered : ∃ content?, Shows g p k now key content?
  text : ∀ q q' bucket, Addresses p (.live k) q (.keyValue (.get bucket key)) →
    Addresses p (.live k) q' (.document (.get key {})) → ∀ text,
      (Gets g now p q (Wire.tagged "ok" (Wire.ofBytes (Text.encode text))) ↔
        ∃ cas, Gets g now p q' (Wire.tagged "ok" (ReadResult.toJson ⟨.raw text, cas, none⟩)))
  binary : ∀ q q' bucket, Addresses p (.live k) q (.keyValue (.get bucket key)) →
    Addresses p (.live k) q' (.document (.get key {})) →
      ((∃ content, (∀ text, Text.encode text ≠ content) ∧
          Gets g now p q (Wire.tagged "ok" (Wire.ofBytes content))) ↔
        Gets g now p q' (Wire.tagged "err" DocumentError.notJson.toJson))
  absent : ∀ q q' bucket, Addresses p (.live k) q (.keyValue (.get bucket key)) →
    Addresses p (.live k) q' (.document (.get key {})) →
      (Gets g now p q (Wire.tagged "ok" .null) ↔
        Gets g now p q' (Wire.tagged "err" DocumentError.notFound.toJson))
  presence : ∀ q q' bucket bucket', Addresses p (.live k) q (.keyValue (.get bucket key)) →
    Addresses p (.live k) q' (.keyValue (.contains bucket' key)) →
      (Gets g now p q (Wire.tagged "ok" .null) ↔
        Gets g now p q' (Wire.tagged "ok" (.bool false)))

theorem Shows.agree {g : Ground Store Collection} {content? : Option Bytes}
    (h : Shows g p k now key content?) : Agree g p k now key := by
  refine ⟨⟨content?, h⟩, fun q q' bucket hq hq' text ↦ ?_, fun q q' bucket hq hq' ↦ ?_,
    fun q q' bucket hq hq' ↦ ?_, fun q q' bucket bucket' hq hq' ↦ ?_⟩
  · obtain ⟨cas, hdocument⟩ := h.document q' hq'
    simp only [(h.value q bucket hq).iff_eq, hdocument.iff_eq, valueView_eq_ok_iff,
      documentView_eq_text_iff]
  · obtain ⟨cas, hdocument⟩ := h.document q' hq'
    simp only [(h.value q bucket hq).iff_eq, hdocument.iff_eq, valueView_eq_ok_iff,
      documentView_eq_notJson_iff]
  · obtain ⟨cas, hdocument⟩ := h.document q' hq'
    rw [(h.value q bucket hq).iff_eq, hdocument.iff_eq, valueView_eq_null_iff,
      documentView_eq_notFound_iff]
  · rw [(h.value q bucket hq).iff_eq, (h.presence q' bucket' hq').iff_eq, valueView_eq_null_iff,
      presenceView_eq_false_iff]

/-! ## Writing -/

/-- After a request whose call is answered, both interfaces show what is in the bucket that the call
leaves. -/
theorem shows_afterRequest (policy : Policy) (tokens : Nat → String) {r : CallerRequest} {c : Call}
    {a : c.Answer} (hq : Addresses p (.live k) q r) (hb : p.store.get? k.site = some b)
    (hstep : b.step k.keyspace now c = .ok (a, b'))
    (hstore : (p.serveCaller ⟨backend policy, tokens⟩ now (.live k) r).2.store =
      ((backend policy).perform (.live k) now c p.store).2) (now' : Nat) (key : String) :
    Shows ⟨backend policy, tokens⟩ (afterRequest ⟨backend policy, tokens⟩ now p q) k now' key
      (b'.content? k.keyspace key now') := by
  refine shows_content ?_ now' key
  rw [afterRequest_eq hq, hstore, Store.perform_of_step (Store.step_of_ok hb hstep)]
  exact Table.get?_insert_self _ _ _

/-- Both interfaces show what a key-value operation has set. -/
theorem shows_of_set {bucket : String} {value : Bytes} {j : Json}
    (hq : Addresses p (.live k) q (.keyValue (.set bucket key value)))
    (hb : p.store.get? k.site = some b)
    (hgets : Gets ⟨backend policy, tokens⟩ now p q (Wire.tagged "ok" j)) (now' : Nat) :
    Shows ⟨backend policy, tokens⟩ (afterRequest ⟨backend policy, tokens⟩ now p q) k now' key
      (some value) := by
  rw [gets_iff hq] at hgets
  change reply _ _ (Operation.conclude _ _
    ((backend policy).perform (.live k) now (.upsert key value {}) p.store).1) = _ at hgets
  cases hstep : b.step k.keyspace now (.upsert key value {}) with
  | error f =>
    rw [Store.perform_of_step (Store.step_of_error hb hstep)] at hgets
    have htag := (Wire.tagged_inj.1 (Except.ok.inj hgets)).1
    contradiction
  | ok done =>
    obtain ⟨m, b'⟩ := done
    have hshows := shows_afterRequest policy tokens hq hb hstep rfl now' key
    obtain ⟨-, -, rfl⟩ := Bucket.upsert_eq_ok_iff.1 hstep
    rwa [Bucket.content?_store value none (.inr nofun)] at hshows

/-- An operation that stores a document and is answered has stored it in the bucket. -/
theorem store_of_stored? {op : Document.Operation} {d : Document} {expiry? : Option UInt64}
    {a : op.call.Answer} (hop : op.stored? = some (key, d, expiry?))
    (hstep : b.step k.keyspace now op.call = .ok (a, b')) :
    b' = b.store ⟨k.keyspace, key⟩ d.toBytes (expiry?.map UInt64.toNat) now := by
  cases op with
  | insert id d' o =>
    cases hop
    exact (Bucket.insert_eq_ok_iff.1 hstep).2.2.symm
  | upsert id d' o =>
    cases hop
    exact (Bucket.upsert_eq_ok_iff.1 hstep).2.2.symm
  | replace id d' o =>
    cases hop
    obtain ⟨e, -, -, hb'⟩ := Bucket.replace_eq_ok_iff.1 hstep
    exact hb'.symm
  | _ => cases hop

/-- A lifetime that was asked for has not ended: it is none or zero, or it ends later. -/
def Lasts (expiry? : Option UInt64) (now now' : Nat) : Prop :=
  ∀ d, expiry? = some d → d ≠ 0 → now' < now + d.toNat

theorem Lasts.lt_deadline {expiry? : Option UInt64} {now' t : Nat} (h : Lasts expiry? now now')
    (ht : deadline? now (expiry?.map UInt64.toNat) = some t) : now' < t := by
  cases expiry? with
  | none => cases ht
  | some d =>
    obtain ⟨span, hspan, rfl⟩ := Option.map_eq_some_iff.1 ht
    obtain ⟨hspan, hne⟩ := Option.filter_eq_some_iff.1 hspan
    obtain rfl := Option.some.inj hspan
    refine h d rfl ?_
    rintro rfl
    exact absurd hne (by decide)

/-- Both interfaces show the document that a document operation has stored. -/
theorem shows_of_stores {op : Document.Operation} {d : Document} {expiry? : Option UInt64}
    {j : Json} (hop : op.stored? = some (key, d, expiry?))
    (hq : Addresses p (.live k) q (.document op)) (hb : p.store.get? k.site = some b)
    (hgets : Gets ⟨backend policy, tokens⟩ now p q (Wire.tagged "ok" j)) {now' : Nat}
    (htime : now' = now ∨ Lasts expiry? now now') :
    Shows ⟨backend policy, tokens⟩ (afterRequest ⟨backend policy, tokens⟩ now p q) k now' key
      (some d.toBytes) := by
  rw [gets_iff hq, serveCaller] at hgets
  cases hstep : b.step k.keyspace now op.call with
  | error f =>
    rw [document_eq (Store.perform_of_step (Store.step_of_error hb hstep))] at hgets
    have htag := (Wire.tagged_inj.1 (Except.ok.inj hgets)).1
    contradiction
  | ok done =>
    obtain ⟨a, b'⟩ := done
    have hshows := shows_afterRequest policy tokens hq hb hstep rfl now' key
    rwa [store_of_stored? hop hstep,
      Bucket.content?_store _ _ (htime.imp_right fun hlasts _ ↦ hlasts.lt_deadline)] at hshows

/-- A key-value operation whose call fails is told of the fault, and nothing else has happened. -/
theorem keyValue_of_refused (policy : Policy) (tokens : Nat → String) {op : Operation} {c : Call}
    {f : Fault} (hop : op.changes? = some key) (hc : op.call? = some c)
    (hb : p.store.get? k.site = some b) (hstep : b.step k.keyspace now c = .error f)
    (hf : f ≠ .documentNotFound) :
    p.keyValue ⟨backend policy, tokens⟩ now (.live k) op =
      (.ok (Wire.tagged "err" (StoreError.ofFault f).toJson), p) := by
  have hperform := Store.perform_of_step (p := policy) (Store.step_of_error hb hstep)
  cases op with
  | set bucket key value =>
    cases hc
    unfold keyValue Operation.run
    simp only [hperform]
    rfl
  | delete bucket key =>
    cases hc
    unfold keyValue Operation.run
    simp only [hperform]
    cases f with
    | documentNotFound => exact absurd rfl hf
    | _ => rfl
  | increment bucket key delta =>
    cases hc
    unfold keyValue Operation.run
    simp only [hperform]
    rfl
  | _ => cases hop

/-- A key that is not there is deleted by doing nothing. -/
theorem keyValue_delete_of_absent (policy : Policy) (tokens : Nat → String) (bucket : String)
    (hb : p.store.get? k.site = some b) (hnone : b.live? ⟨k.keyspace, key⟩ now = none) :
    p.keyValue ⟨backend policy, tokens⟩ now (.live k) (.delete bucket key) =
      (.ok (Wire.tagged "ok" .null), p) := by
  have hstep : b.step k.keyspace now (.remove key {}) = .error .documentNotFound :=
    Bucket.step_of_absent (c := .remove key {}) hnone
  have hperform := Store.perform_of_step (p := policy) (Store.step_of_error hb hstep)
  unfold keyValue Operation.run
  simp only [hperform]
  rfl

/-- After a key is deleted neither interface shows it. -/
theorem shows_of_delete {bucket : String} {j : Json}
    (hq : Addresses p (.live k) q (.keyValue (.delete bucket key)))
    (hb : p.store.get? k.site = some b)
    (hgets : Gets ⟨backend policy, tokens⟩ now p q (Wire.tagged "ok" j)) {now' : Nat}
    (hle : now ≤ now') :
    Shows ⟨backend policy, tokens⟩ (afterRequest ⟨backend policy, tokens⟩ now p q) k now' key
      none := by
  cases he : b.live? ⟨k.keyspace, key⟩ now with
  | none =>
    rw [afterRequest_eq hq, serveCaller, keyValue_delete_of_absent policy tokens bucket hb he,
      ← Bucket.content?_of_absent he hle]
    exact shows_content hb now' key
  | some e =>
    cases hstep : b.step k.keyspace now (.remove key {}) with
    | error f =>
      have hrefusal := (Bucket.step_eq_error_iff (c := .remove key {}) he).1 hstep
      have hf : f ≠ .documentNotFound := by
        rintro rfl
        rw [Call.refusal?] at hrefusal
        split at hrefusal
        · contradiction
        · split at hrefusal <;> cases hrefusal
      rw [gets_iff hq, serveCaller, keyValue_of_refused policy tokens rfl rfl hb hstep hf] at hgets
      have htag := (Wire.tagged_inj.1 (Except.ok.inj hgets)).1
      contradiction
    | ok done =>
      obtain ⟨m, b'⟩ := done
      have hshows := shows_afterRequest policy tokens hq hb hstep rfl now' key
      obtain ⟨e', -, -, rfl⟩ := Bucket.remove_eq_ok_iff.1 hstep
      rwa [Bucket.content?_drop] at hshows

/-- A lock holds off the key-value operations that would change the document. -/
theorem refused_of_lockedAt {op : Operation} {e : Entry}
    (hq : Addresses p (.live k) q (.keyValue op)) (hop : op.changes? = some key)
    (hb : p.store.get? k.site = some b) (he : b.live? ⟨k.keyspace, key⟩ now = some e)
    (hlocked : e.LockedAt now) :
    Gets ⟨backend policy, tokens⟩ now p q
        (Wire.tagged "err" (StoreError.other "document-locked").toJson) ∧
      afterRequest ⟨backend policy, tokens⟩ now p q = p := by
  have hcall : ∃ c, op.call? = some c ∧ c.id = key ∧
      c.refusal? e true = some .documentLocked := by
    cases op with
    | set bucket key value =>
      cases hop
      exact ⟨_, rfl, rfl, rfl⟩
    | delete bucket key =>
      cases hop
      refine ⟨_, rfl, rfl, ?_⟩
      simp [Call.refusal?, admits]
    | increment bucket key delta =>
      cases hop
      exact ⟨_, rfl, rfl, rfl⟩
    | _ => cases hop
  obtain ⟨c, hc, rfl, hrefusal⟩ := hcall
  rw [← Entry.isLocked_iff.2 hlocked] at hrefusal
  have hstep := (Bucket.step_eq_error_iff he).2 hrefusal
  have hkeyValue := keyValue_of_refused policy tokens hop hc hb hstep (by decide)
  rw [gets_iff hq, afterRequest_eq hq, serveCaller, hkeyValue]
  exact ⟨rfl, rfl⟩

/-! ## At every time -/

/-- The caller's collection has its bucket. -/
theorem Grounded.bucket (h : p.Grounded) {headers : Fields String}
    (hleads : LeadsTo p headers (.live k)) : ∃ b, p.store.get? k.site = some b := by
  obtain ⟨a, ⟨source, -, -, hfind⟩, hlive⟩ := hleads
  generalize (headers.get? p.settings.linkHeader).filter (· ≠ "") = link? at hfind
  cases (Router.find?_eq_some_iff _ _ _ _).1 hfind with
  | named link _ ha => exact h _ a k ha hlive
  | default _ ha => exact h _ a k ha hlive
  | only link _ _ ha _ => exact h _ a k ha hlive

/-- Key-value operations and document operations on a collection are two views of one map. -/
structure TwoViews (g : Ground Store Collection) (p : Provider Store Collection) (k : Collection) :
    Prop where
  shows : ∀ now key, Shows g p k now key ((p.store.live? ⟨k, key⟩ now).map Entry.content)
  agree : ∀ now key, Agree g p k now key
  set : ∀ now key q bucket value j, Addresses p (.live k) q (.keyValue (.set bucket key value)) →
    Gets g now p q (Wire.tagged "ok" j) →
      ∀ now', Shows g (afterRequest g now p q) k now' key (some value)
  raw : ∀ now key q op text expiry? j, Addresses p (.live k) q (.document op) →
    op.stored? = some (key, .raw text, expiry?) → Gets g now p q (Wire.tagged "ok" j) →
      ∀ now', (now' = now ∨ Lasts expiry? now now') →
        Shows g (afterRequest g now p q) k now' key (some (Text.encode text))
  json : ∀ now key q op value expiry? j, Addresses p (.live k) q (.document op) →
    op.stored? = some (key, .json value, expiry?) → Gets g now p q (Wire.tagged "ok" j) →
      ∀ now', (now' = now ∨ Lasts expiry? now now') →
        Shows g (afterRequest g now p q) k now' key (some (Text.encodeChars value.write))
  delete : ∀ now key q bucket, Addresses p (.live k) q (.keyValue (.delete bucket key)) →
    (p.store.live? ⟨k, key⟩ now = none → Gets g now p q (Wire.tagged "ok" .null)) ∧
      ∀ j, Gets g now p q (Wire.tagged "ok" j) →
        ∀ now', now ≤ now' → Shows g (afterRequest g now p q) k now' key none
  locked : ∀ now key e, p.store.live? ⟨k, key⟩ now = some e → e.LockedAt now →
    ∀ q op, Addresses p (.live k) q (.keyValue op) → op.changes? = some key →
      Gets g now p q (Wire.tagged "err" (StoreError.other "document-locked").toJson) ∧
        afterRequest g now p q = p
  bucket : ∀ now q q' op bucket, ReadsAs q (.keyValue op) →
    ReadsAs q' (.keyValue (op.inBucket bucket)) → q'.id = q.id → q'.headers = q.headers →
      (handler g now).onRequest q' p = (handler g now).onRequest q p

/-- Whenever a caller's link leads to a collection that can be reached, the two interfaces to it are
two views of one map. -/
theorem twoViews_before (policy : Policy) (tokens : Nat → String) (engine : Rpc.Engine)
    (settings : Settings) (run : List Service.Event) (i : Nat) {headers : Fields String}
    {p : Provider Store Collection} {k : Collection}
    (hp : (Service.before ⟨backend policy, tokens⟩ (.idle engine (create settings .empty)) run
      i).provider = p)
    (hleads : LeadsTo p headers (.live k)) : TwoViews ⟨backend policy, tokens⟩ p k := by
  have hgrounded := grounded_before policy tokens engine settings run i
  rw [hp] at hgrounded
  obtain ⟨b, hb⟩ := hgrounded.bucket hleads
  have hlive : ∀ key now, p.store.live? ⟨k, key⟩ now = b.live? ⟨k.keyspace, key⟩ now :=
    fun _ now ↦ Store.live?_of_bucket hb now
  have hshows : ∀ now key, Shows ⟨backend policy, tokens⟩ p k now key
      ((p.store.live? ⟨k, key⟩ now).map Entry.content) := by
    intro now key
    rw [hlive]
    exact shows_content hb now key
  refine ⟨hshows, fun now key ↦ (hshows now key).agree, ?_, ?_, ?_, ?_, ?_, ?_⟩
  · intro now key q bucket value j hq hgets
    exact shows_of_set hq hb hgets
  · intro now key q op text expiry? j hq hop hgets now' htime
    exact shows_of_stores hop hq hb hgets htime
  · intro now key q op value expiry? j hq hop hgets now' htime
    exact shows_of_stores hop hq hb hgets htime
  · intro now key q bucket hq
    refine ⟨fun hnone ↦ ?_, fun j hgets now' hle ↦ shows_of_delete hq hb hgets hle⟩
    rw [hlive] at hnone
    rw [gets_iff hq, serveCaller, keyValue_delete_of_absent policy tokens bucket hb hnone]
  · intro now key e he hlocked q op hq hop
    rw [hlive] at he
    exact refused_of_lockedAt hq hop hb he hlocked
  · intro now q q' op bucket hq hq' hid hheaders
    exact onRequest_inBucket hq hq' hid hheaders _ now p

/-- The caller stores a document in place of what is there. -/
def storeRequest (method : String) (d : Document) : Rpc.Request :=
  ⟨3, method, some (.object [("document", d.toJson), ("id", .text "a")]), callerHeaders⟩

/-- The caller reads the value under its key. -/
def valueRequest : Rpc.Request :=
  ⟨4, "keyvalue.store.get", some (.object [("bucket", .text ""), ("key", .text "a")]),
    callerHeaders⟩

/-- A caller stores bytes that are no text. They are there, but no document can be read. Then it
stores a JSON document or a raw one in their place, and the value is the compact text of the one,
and the text of the other. -/
theorem twoViews_before_setRequest :
    let g : Ground Store Collection := ⟨backend {}, fun _ ↦ ""⟩
    let run : List Service.Event := [.inbound (.request linkRequest) 0, .proceed 0 0, .proceed 0 0,
      .inbound (.request setRequest) 1, .proceed 0 1]
    let p := (Service.before g (.idle {} (create {} .empty)) run 5).provider
    let k : Collection := ⟨⟨"h", "b"⟩, .default⟩
    let value : Json := .object [("a", .array [.ofUInt64 1, .null])]
    LeadsTo p callerHeaders (.live k) ∧ TwoViews g p k ∧
      Gets g 2 p (documentRequest 3 "document.get") (Wire.tagged "err" (.text "not-json")) ∧
      Gets g 3 (afterRequest g 2 p (storeRequest "document.upsert" (.json value))) valueRequest
        (Wire.tagged "ok" (Wire.ofBytes
          [123, 34, 97, 34, 58, 91, 49, 44, 110, 117, 108, 108, 93, 125])) ∧
      Gets g 3 (afterRequest g 2 p (storeRequest "document.replace" (.raw "xy"))) valueRequest
        (Wire.tagged "ok" (Wire.ofBytes [120, 121])) := by
  intro g run p k value
  have hleads : LeadsTo p callerHeaders (.live k) :=
    ⟨⟨⟨"u", "p", "b", "mem://h", none, none⟩, .live k⟩, ⟨"s", rfl, by decide, rfl⟩, rfl⟩
  have hviews : TwoViews g p k := twoViews_before {} (fun _ ↦ "") {} {} run 5 rfl hleads
  have hget : Addresses p (.live k) (documentRequest 3 "document.get") (.document (.get "a" {})) :=
    ⟨⟨_, List.mem_of_getElem? (i := 0) rfl, rfl⟩, hleads⟩
  obtain ⟨cas, hgets⟩ := (hviews.shows 2 "a").document _ hget
  have hupsert : Addresses p (.live k) (storeRequest "document.upsert" (.json value))
      (.document (.upsert "a" (.json value) {})) :=
    ⟨⟨_, List.mem_of_getElem? (i := 2) rfl, rfl⟩, hleads⟩
  have hreplace : Addresses p (.live k) (storeRequest "document.replace" (.raw "xy"))
      (.document (.replace "a" (.raw "xy") {})) :=
    ⟨⟨_, List.mem_of_getElem? (i := 3) rfl, rfl⟩, hleads⟩
  have hvalue : ReadsAs valueRequest (.keyValue (.get "" "a")) :=
    ⟨_, List.mem_of_getElem? (i := 16) rfl, rfl⟩
  refine ⟨hleads, hviews, hgets, ?_, ?_⟩
  · exact (hviews.json 2 "a" _ _ value none _ hupsert rfl rfl 3 (.inr nofun)).value _ ""
      ⟨hvalue, _, ⟨"s", rfl, by decide, rfl⟩, rfl⟩
  · exact (hviews.raw 2 "a" _ _ "xy" none _ hreplace rfl rfl 3 (.inr nofun)).value _ ""
      ⟨hvalue, _, ⟨"s", rfl, by decide, rfl⟩, rfl⟩

end Provider
end Depot
