import Depot.Rpc.Codec
import Depot.Proofs.Chaining
import Depot.Proofs.Json.RoundTrip

/-!
# Messages are read back

A message is written as JSON and read from it. Requests and notifications come back as they are;
a response comes back `settled`: behind an error no result is written, and without an error a
result is always written. The first part is one of JSON values (`ofJson_toJson`): which members are
there tells the kinds apart, and an absent member is none that is null. The second part is that the
value of a message is one whose text is read back (`Depot.Proofs.Json.RoundTrip`): its members are
in order if the values it carries are (`ordered_toJson`). A message that was read carries only such
values, and no deeper nesting than can be read again (`of_decode`).
-/

set_option autoImplicit false
set_option relaxedAutoImplicit false

namespace Depot.Rpc

/-! ## Reading members of what was written -/

theorem get?_member? (key other : String) (value? : Option Json) :
    Members.get? (member? key value?) other = if key = other then value? else none := by
  cases value? with
  | none => exact (ite_self none).symm
  | some j => rfl

theorem codeOf?_ofInt32 (n : Int32) : codeOf? (.integer (.ofInt32 n)) = some n := by
  have hbelow : decide ((Integer.ofInt32 n).value < 0x8000000000000000) = true := by
    have hlt : n.toInt < 0x80000000 := n.toInt_lt
    exact decide_eq_true (show n.toInt < 0x8000000000000000 by omega)
  rw [codeOf?, Json.integer?, Option.filter_some, if_pos hbelow, Option.map_some]
  exact congrArg some (Int32.ofInt_toInt n)

theorem headersOf_ofTexts (t : Fields String) : headersOf (some (.ofTexts t)) = t := by
  have htexts : (t.members.map fun p ↦ (p.1, Json.text p.2)).filterMap
      (fun p ↦ p.2.text?.map fun s ↦ (p.1, s)) = t.members := by
    rw [List.filterMap_map]
    exact List.filterMap_some
  obtain ⟨members, hsorted⟩ := t
  simp only at htexts
  simp only [headersOf, Json.ofTexts, htexts, Fields.ofList, Members.ofList_of_sorted hsorted]

/-- Headers are read back, and where there are none none are written. -/
theorem headersOf_headersMember (t : Fields String) :
    headersOf (Members.get? (headersMember t) "headers") = t := by
  rw [headersMember, get?_member?, if_pos rfl]
  split
  · rename_i hempty
    obtain ⟨members, hsorted⟩ := t
    cases members with
    | nil => rfl
    | cons => contradiction
  · exact headersOf_ofTexts t

theorem get?_headersMember {key : String} (hkey : "headers" ≠ key) (t : Fields String) :
    Members.get? (headersMember t) key = none := by
  rw [headersMember, get?_member?, if_neg hkey]

/-- An error is read back from its members. -/
theorem Error.ofJson?_toJson (e : Error) : Error.ofJson? e.toJson = some e := by
  obtain ⟨m, hm⟩ : ∃ m : Members Json, m = ("code", .integer (.ofInt32 e.code)) ::
      member? "data" e.data? ++ [("message", .text e.message)] := ⟨_, rfl⟩
  have hcode : Members.get? m "code" = some (.integer (.ofInt32 e.code)) := by
    rw [hm]
    rfl
  have hdata : Members.get? m "data" = e.data? := by
    simp [hm, Members.get?, Members.get?_append, get?_member?]
  have hmessage : Members.get? m "message" = some (.text e.message) := by
    simp [hm, Members.get?, Members.get?_append, get?_member?]
  rw [Error.toJson, ← hm]
  simp only [Error.ofJson?, Json.members?, hcode, hdata, hmessage, codeOf?_ofInt32, Json.text?,
    Option.bind_eq_bind, Option.bind_some]

theorem idOf_ofUInt64 (fault : DecodeFault) (n : UInt64) : idOf fault (.ofUInt64 n) = .ok n := by
  rw [idOf, Json.toUInt64?_ofUInt64]

/-! ## What comes back -/

/-- An error stands alone; without an error there is a result. -/
def Response.settled (r : Response) : Response :=
  match r.error? with
  | some _ => { r with result? := none }
  | none => { r with result? := some (r.result?.getD .null) }

namespace Payload

/-- Requests and notifications stay as they are. -/
def settled : Payload → Payload
  | .response r => .response r.settled
  | p => p

theorem ofJson_toJson_request (r : Request) :
    ofJson (toJson (.request r)) = .ok (.request r) := by
  obtain ⟨m, hm⟩ : ∃ m : Members Json, m = headersMember r.headers ++
      [("id", .ofUInt64 r.id), version, ("method", .text r.method)] ++
        member? "params" r.params? := ⟨_, rfl⟩
  have hid : Members.get? m "id" = some (.ofUInt64 r.id) := by
    simp [hm, Members.get?, Members.get?_append, get?_headersMember]
  have hmethod : Members.get? m "method" = some (.text r.method) := by
    simp [hm, Members.get?, Members.get?_append, get?_headersMember, version]
  have hparams : Members.get? m "params" = r.params? := by
    simp [hm, Members.get?, Members.get?_append, get?_headersMember, version, get?_member?]
  have hheaders : headersOf (Members.get? m "headers") = r.headers := by
    have hget : Members.get? m "headers" = Members.get? (headersMember r.headers) "headers" := by
      simp [hm, Members.get?, Members.get?_append, version, get?_member?]
    rw [hget, headersOf_headersMember]
  rw [toJson, ← hm]
  simp only [ofJson, Json.members?, ofMembers, hid, hmethod, hparams, hheaders, idOf_ofUInt64,
    methodOf, Json.text?]
  rfl

theorem ofJson_toJson_notification (n : Notification) :
    ofJson (toJson (.notification n)) = .ok (.notification n) := by
  obtain ⟨m, hm⟩ : ∃ m : Members Json,
      m = [version, ("method", .text n.method)] ++ member? "params" n.params? := ⟨_, rfl⟩
  have hid : Members.get? m "id" = none := by
    simp [hm, Members.get?, version, get?_member?]
  have hmethod : Members.get? m "method" = some (.text n.method) := by
    simp [hm, Members.get?, version]
  have hparams : Members.get? m "params" = n.params? := by
    simp [hm, Members.get?, version, get?_member?]
  rw [toJson, ← hm]
  simp only [ofJson, Json.members?, ofMembers, hid, hmethod, hparams, methodOf, Json.text?]
  rfl

theorem ofJson_toJson_response (r : Response) :
    ofJson (toJson (.response r)) = .ok (.response r.settled) := by
  obtain ⟨id, result?, error?⟩ := r
  cases error? with
  | none =>
    simp [toJson, ofJson, ofMembers, version, Json.members?, Members.get?, idOf_ofUInt64,
      Response.settled, bind, Except.bind]
  | some e =>
    simp [toJson, ofJson, ofMembers, version, Json.members?, Members.get?, idOf_ofUInt64,
      Error.ofJson?_toJson, Response.settled, bind, Except.bind]

/-- A message is read back from its JSON value. -/
theorem ofJson_toJson (p : Payload) : ofJson p.toJson = .ok p.settled := by
  cases p with
  | request r => exact ofJson_toJson_request r
  | notification n => exact ofJson_toJson_notification n
  | response r => exact ofJson_toJson_response r

/-- What comes back is written as the message itself is. -/
theorem toJson_settled (p : Payload) : p.settled.toJson = p.toJson := by
  cases p with
  | request r => rfl
  | notification n => rfl
  | response r =>
    obtain ⟨id, result?, error?⟩ := r
    cases error? <;> rfl

/-! ## The values that a message carries -/

/-- The parameters of a request or notification, the result of a response. -/
def values : Payload → List Json
  | .request r => r.params?.toList
  | .notification n => n.params?.toList
  | .response r => r.result?.toList

def error? : Payload → Option Error
  | .response r => r.error?
  | _ => none

/-- All values that the host or the provider puts into a message. -/
def carried (p : Payload) : List Json := p.values ++ (p.error?.bind Error.data?).toList

/-- Members whose keys are some of an ordered list of keys are in order. -/
theorem sorted_of_sublist {α : Type} {m : Members α} (keys : List String)
    (hsome : (m.map Prod.fst).Sublist keys) (hkeys : keys.Pairwise fun k l ↦ k < l) : m.Sorted :=
  List.pairwise_map.1 (hkeys.sublist hsome)

end Payload

theorem mem_member? {key : String} {value? : Option Json} {q : String × Json}
    (h : q ∈ member? key value?) : value? = some q.2 := by
  cases value? with
  | none => contradiction
  | some j => rw [List.mem_singleton.1 h]

theorem keys_member? (key : String) (value? : Option Json) :
    ((member? key value?).map Prod.fst).Sublist [key] := by
  cases value? with
  | none => exact List.nil_sublist _
  | some j => exact List.Sublist.refl _

/-- The members of an error. -/
theorem Error.toJson_eq (e : Error) : ∃ m : Members Json, e.toJson = .object m ∧ Members.Sorted m ∧
    ∀ q ∈ m, q.2.IsScalar ∨ e.data? = some q.2 := by
  obtain ⟨code, message, data?⟩ := e
  refine ⟨_, rfl, Payload.sorted_of_sublist ["code", "data", "message"] ?_ (by decide), ?_⟩
  · rw [List.map_append]
    exact ((keys_member? "data" data?).cons_cons "code").append (List.Sublist.refl _)
  · intro q hq
    simp only [List.cons_append, List.mem_cons, List.mem_append, List.not_mem_nil, or_false] at hq
    rcases hq with rfl | hq | rfl
    · exact .inl trivial
    · exact .inr (mem_member? hq)
    · exact .inl trivial

namespace Payload

/-- Every member of a message is a scalar, the headers, a carried value or an error. -/
theorem toJson_eq (p : Payload) : ∃ m : Members Json, p.toJson = .object m ∧ Members.Sorted m ∧
    ∀ q ∈ m, q.2.IsScalar ∨ (∃ t, q.2 = .ofTexts t) ∨ q.2 ∈ p.values ∨
      ∃ e, p.error? = some e ∧ q.2 = e.toJson := by
  cases p with
  | request r =>
    obtain ⟨id, method, params?, headers⟩ := r
    refine ⟨_, rfl, sorted_of_sublist ["headers", "id", "jsonrpc", "method", "params"] ?_
      (by decide), ?_⟩
    · rw [List.map_append, List.map_append]
      exact ((keys_member? "headers" _).append (List.Sublist.refl _)).append
        (keys_member? "params" params?)
    · intro q hq
      simp only [headersMember, List.mem_append, List.mem_cons, List.not_mem_nil, or_false] at hq
      rcases hq with (hq | rfl | rfl | rfl) | hq
      · have hq := mem_member? hq
        split at hq
        · contradiction
        · exact .inr (.inl ⟨headers, (Option.some.inj hq).symm⟩)
      · exact .inl trivial
      · exact .inl trivial
      · exact .inl trivial
      · exact .inr (.inr (.inl (Option.mem_toList.2 (mem_member? hq))))
  | notification n =>
    obtain ⟨method, params?⟩ := n
    refine ⟨_, rfl, sorted_of_sublist ["jsonrpc", "method", "params"] ?_ (by decide), ?_⟩
    · rw [List.map_append]
      exact (List.Sublist.refl _).append (keys_member? "params" params?)
    · intro q hq
      simp only [List.mem_append, List.mem_cons, List.not_mem_nil, or_false] at hq
      rcases hq with (rfl | rfl) | hq
      · exact .inl trivial
      · exact .inl trivial
      · exact .inr (.inr (.inl (Option.mem_toList.2 (mem_member? hq))))
  | response r =>
    obtain ⟨id, result?, error?⟩ := r
    cases error? with
    | none =>
      refine ⟨_, rfl, sorted_of_sublist ["id", "jsonrpc", "result"] (List.Sublist.refl _)
        (by decide), ?_⟩
      intro q hq
      simp only [List.mem_cons, List.not_mem_nil, or_false] at hq
      rcases hq with rfl | rfl | rfl
      · exact .inl trivial
      · exact .inl trivial
      · cases result? with
        | none => exact .inl trivial
        | some j => exact .inr (.inr (.inl List.mem_cons_self))
    | some e =>
      refine ⟨_, rfl, sorted_of_sublist ["error", "id", "jsonrpc"] (List.Sublist.refl _)
        (by decide), ?_⟩
      intro q hq
      simp only [List.mem_cons, List.not_mem_nil, or_false] at hq
      rcases hq with rfl | rfl | rfl
      · exact .inr (.inr (.inr ⟨e, rfl, rfl⟩))
      · exact .inl trivial
      · exact .inl trivial

theorem mem_carried_of_values {p : Payload} {j : Json} (hj : j ∈ p.values) : j ∈ p.carried :=
  List.mem_append_left _ hj

theorem mem_carried_of_data {p : Payload} {e : Error} {j : Json} (he : p.error? = some e)
    (hj : e.data? = some j) : j ∈ p.carried := by
  refine List.mem_append_right _ (Option.mem_toList.2 ?_)
  rw [he]
  exact hj

theorem ordered_ofTexts (t : Fields String) : (Json.ofTexts t).Ordered := by
  refine Json.ordered_object_iff.2 ⟨List.pairwise_map.2 t.sorted, fun q hq ↦ ?_⟩
  obtain ⟨p, -, rfl⟩ := List.mem_map.1 hq
  exact Json.ordered_of_isScalar trivial

theorem within_ofTexts (t : Fields String) (n : Nat) : (Json.ofTexts t).Within (n + 1) := by
  intro q hq
  obtain ⟨p, -, rfl⟩ := List.mem_map.1 hq
  exact Json.within_of_isScalar (by trivial) n

/-- A message that carries ordered values is written as one. -/
theorem ordered_toJson {p : Payload} (hp : ∀ j ∈ p.carried, j.Ordered) : p.toJson.Ordered := by
  obtain ⟨m, hm, hsorted, hmembers⟩ := p.toJson_eq
  rw [hm]
  refine Json.ordered_object_iff.2 ⟨hsorted, fun q hq ↦ ?_⟩
  rcases hmembers q hq with hscalar | ⟨t, ht⟩ | hvalue | ⟨e, he, hq⟩
  · exact Json.ordered_of_isScalar hscalar
  · rw [ht]
    exact ordered_ofTexts t
  · exact hp _ (mem_carried_of_values hvalue)
  · obtain ⟨m', hm', hsorted', hmembers'⟩ := e.toJson_eq
    rw [hq, hm']
    refine Json.ordered_object_iff.2 ⟨hsorted', fun q' hq' ↦ ?_⟩
    rcases hmembers' q' hq' with hscalar | hdata
    · exact Json.ordered_of_isScalar hscalar
    · exact hp _ (mem_carried_of_data he hdata)

/-- A message is nested one deeper than its values, and two deeper than the data of its error. -/
theorem within_toJson {p : Payload} {n : Nat} (hvalues : ∀ j ∈ p.values, j.Within (n + 1))
    (hdata : ∀ e, p.error? = some e → ∀ j, e.data? = some j → j.Within n) :
    p.toJson.Within (n + 2) := by
  obtain ⟨m, hm, -, hmembers⟩ := p.toJson_eq
  rw [hm]
  intro q hq
  rcases hmembers q hq with hscalar | ⟨t, ht⟩ | hvalue | ⟨e, he, hq⟩
  · exact Json.within_of_isScalar hscalar _
  · rw [ht]
    exact within_ofTexts t n
  · exact hvalues _ hvalue
  · obtain ⟨m', hm', -, hmembers'⟩ := e.toJson_eq
    rw [hq, hm']
    intro q' hq'
    rcases hmembers' q' hq' with hscalar | hj
    · exact Json.within_of_isScalar hscalar n
    · exact hdata e he _ hj

/-! ## Messages that were read -/

theorem eq_object_of_members? {j : Json} {m : Members Json} (h : j.members? = some m) :
    j = .object m := by
  cases j with
  | object members =>
    injection h with h
    rw [h]
  | _ => contradiction

/-- The data of an error that was read is a member of the object that it was read from. -/
theorem data_of_ofJson? {j d : Json} {e : Error} (h : Error.ofJson? j = some e)
    (hd : e.data? = some d) : ∃ m key, j = .object m ∧ (key, d) ∈ m := by
  obtain ⟨m, hm, h⟩ := Option.bind_eq_some_iff.1 h
  obtain ⟨code, -, h⟩ := Option.bind_eq_some_iff.1 h
  obtain ⟨message, -, h⟩ := Option.bind_eq_some_iff.1 h
  injection h with h
  rw [← h] at hd
  exact ⟨m, "data", eq_object_of_members? hm, Members.mem_of_get? hd⟩

/-- What a message that was read carries stood in the object that it was read from. -/
theorem of_ofMembers {m : Members Json} {p : Payload} (h : ofMembers m = .ok p) :
    (∀ j ∈ p.values, ∃ key, (key, j) ∈ m) ∧
      ∀ e, p.error? = some e → ∃ key j, (key, j) ∈ m ∧ Error.ofJson? j = some e := by
  unfold ofMembers at h
  split at h
  · obtain ⟨id, -, h⟩ := bind_eq_ok_iff.1 h
    obtain ⟨method, -, h⟩ := bind_eq_ok_iff.1 h
    injection h with h
    rw [← h]
    refine ⟨fun j hj ↦ ⟨"params", Members.mem_of_get? (Option.mem_toList.1 hj)⟩, ?_⟩
    intro e he
    contradiction
  · obtain ⟨method, -, h⟩ := bind_eq_ok_iff.1 h
    injection h with h
    rw [← h]
    refine ⟨fun j hj ↦ ⟨"params", Members.mem_of_get? (Option.mem_toList.1 hj)⟩, ?_⟩
    intro e he
    contradiction
  · obtain ⟨id, -, h⟩ := bind_eq_ok_iff.1 h
    injection h with h
    rw [← h]
    refine ⟨fun j hj ↦ ⟨"result", Members.mem_of_get? (Option.mem_toList.1 hj)⟩, ?_⟩
    intro e he
    obtain ⟨j, hj, he⟩ := Option.bind_eq_some_iff.1 he
    exact ⟨"error", j, Members.mem_of_get? hj, he⟩
  · contradiction

/-- A message that was read carries ordered values, and is written with no more nesting than can be
read. -/
theorem of_decode {body : Bytes} {p : Payload} (h : decode body = .ok p) :
    (∀ j ∈ p.carried, j.Ordered) ∧ p.toJson.Within Json.nestingLimit := by
  obtain ⟨m, hm, hp⟩ : ∃ m, Json.parse body = some (.object m) ∧ ofMembers m = .ok p := by
    unfold decode ofJson at h
    split at h
    · rename_i j hj
      split at h
      · rename_i m hm
        rw [eq_object_of_members? hm] at hj
        exact ⟨m, hj, h⟩
      · contradiction
    · contradiction
  obtain ⟨hordered, hwithin⟩ := Json.of_parse hm
  have hordered := (Json.ordered_object_iff.1 hordered).2
  obtain ⟨hvalues, herror⟩ := of_ofMembers hp
  constructor
  · intro j hj
    rcases List.mem_append.1 hj with hj | hj
    · obtain ⟨key, hmem⟩ := hvalues j hj
      exact hordered _ hmem
    · obtain ⟨e, he, hdata⟩ := Option.bind_eq_some_iff.1 (Option.mem_toList.1 hj)
      obtain ⟨key, k, hmem, hk⟩ := herror e he
      obtain ⟨m', key', rfl, hmem'⟩ := data_of_ofJson? hk hdata
      exact (Json.ordered_object_iff.1 (hordered _ hmem)).2 _ hmem'
  · refine within_toJson (n := 125) (fun j hj ↦ ?_) fun e he j hdata ↦ ?_
    · obtain ⟨key, hmem⟩ := hvalues j hj
      exact hwithin _ hmem
    · obtain ⟨key, k, hmem, hk⟩ := herror e he
      obtain ⟨m', key', rfl, hmem'⟩ := data_of_ofJson? hk hdata
      exact hwithin _ hmem _ hmem'

/-! ## The round trip -/

/-- A message whose text is read back: the values it carries are ordered, it is nested no deeper
than can be read, and its doubles are read back from their texts. -/
structure Readable (p : Payload) : Prop where
  ordered : ∀ j ∈ p.carried, j.Ordered
  within : p.toJson.Within Json.nestingLimit
  doubles : p.toJson.Exact

theorem decode_encode {p : Payload} (hp : p.Readable) : decode p.encode = .ok p.settled := by
  have hparse := Json.parse_write hp.within (ordered_toJson hp.ordered) hp.doubles
  rw [decode, encode, encodeChars, hparse]
  exact ofJson_toJson p

theorem encode_settled (p : Payload) : p.settled.encode = p.encode := by
  rw [encode, encode, encodeChars, encodeChars, toJson_settled]

/-- The three kinds of messages. -/
inductive Kind where
  | request
  | notification
  | response
  deriving DecidableEq, Repr

def kind : Payload → Kind
  | .request _ => .request
  | .notification _ => .notification
  | .response _ => .response

theorem kind_settled (p : Payload) : p.settled.kind = p.kind := by
  cases p <;> rfl

/-- A message comes back settled, of the same kind and with the same text: requests, notifications
and the two kinds of answers as they were. What was read from any body at all is written with a text
that is read again, and then written the same. -/
theorem decode_undoes_encode :
    (∀ p : Payload, p.Readable →
      decode p.encode = .ok p.settled ∧ p.settled.kind = p.kind ∧ p.settled.encode = p.encode) ∧
    (∀ r, (request r).Readable → decode (request r).encode = .ok (.request r)) ∧
    (∀ n, (notification n).Readable → decode (notification n).encode = .ok (.notification n)) ∧
    (∀ id j, (response (.success id j)).Readable →
      decode (response (.success id j)).encode = .ok (.response (.success id j))) ∧
    (∀ id e, (response (.failure id e)).Readable →
      decode (response (.failure id e)).encode = .ok (.response (.failure id e))) ∧
    ∀ body p, decode body = .ok p → p.toJson.Exact →
      ∃ q, decode p.encode = .ok q ∧ q.encode = p.encode := by
  refine ⟨fun p hp ↦ ⟨decode_encode hp, kind_settled p, encode_settled p⟩,
    fun r hr ↦ decode_encode hr, fun n hn ↦ decode_encode hn, fun id j hj ↦ decode_encode hj,
    fun id e he ↦ decode_encode he, fun body p hbody hdoubles ↦ ?_⟩
  obtain ⟨hordered, hwithin⟩ := of_decode hbody
  exact ⟨p.settled, decode_encode ⟨hordered, hwithin, hdoubles⟩, encode_settled p⟩

/-- The double 1.5. -/
def oneAndAHalf : Real := ⟨false, ⟨15, -1⟩, by decide +kernel⟩

theorem readsBack_oneAndAHalf : Json.ReadsBack (.real oneAndAHalf) := by
  have htext : Json.writeReal oneAndAHalf = ['1', '.', '5'] := by decide +kernel
  have hwritten : Json.written? ['1', '.', '5'] = some (⟨false, ['1'], some ['5'], none⟩, []) := by
    decide
  have hread : Real.read? false ['1'] ['5'] 0 = some oneAndAHalf := by decide +kernel
  have hvalue : Json.Written.value? ⟨false, ['1'], some ['5'], none⟩ = some (.real oneAndAHalf) :=
    congrArg (Option.map Json.real) hread
  rw [Json.ReadsBack, htext, Json.number, hwritten]
  simp only [Option.bind_eq_bind, Option.bind_some, hvalue]

/-- Parameters with a double inside two containers. -/
def listParams : Json :=
  .object [("after", .text "\"\n\u00e9"), ("scale", .array [.real oneAndAHalf, .null])]

def listRequest : Request :=
  { id := 7, method := "list", params? := some listParams,
    headers := .ofList [("caller", "\u00e9")] }

theorem readable_listRequest : (request listRequest).Readable where
  ordered j hj := by
    rw [List.mem_singleton.1 hj]
    refine Json.ordered_object_iff.2
      ⟨sorted_of_sublist ["after", "scale"] (List.Sublist.refl _) (by decide), ?_⟩
    simp only [List.forall_mem_cons, Json.ordered_array_iff]
    exact ⟨Json.ordered_of_isScalar trivial, ⟨Json.ordered_of_isScalar trivial,
      Json.ordered_of_isScalar trivial, nofun⟩, nofun⟩
  within := by
    refine within_toJson (n := 125) (fun j hj ↦ ?_) fun e he ↦ nomatch he
    rw [List.mem_singleton.1 hj]
    simp only [listParams, Json.Within, List.forall_mem_cons]
    exact ⟨trivial, ⟨trivial, trivial, nofun⟩, nofun⟩
  doubles := by
    have hjson : (request listRequest).toJson = .object [("headers", .object [("caller",
        .text "\u00e9")]), ("id", .ofUInt64 7), version, ("method", .text "list"),
        ("params", listParams)] := rfl
    have hplain {j : Json} (hj : j.IsScalar) (hback : j.ReadsBack) : j.Exact :=
      Json.exact_of_isScalar hj hback
    rw [hjson]
    simp only [Json.exact_object_iff, Json.exact_array_iff, listParams, List.forall_mem_cons]
    exact ⟨⟨hplain trivial trivial, nofun⟩, hplain trivial trivial, hplain trivial trivial,
      hplain trivial trivial, ⟨hplain trivial trivial, ⟨hplain trivial readsBack_oneAndAHalf,
        hplain trivial trivial, nofun⟩, nofun⟩, nofun⟩

theorem decode_undoes_encode_listRequest :
    (request listRequest).Readable ∧
      decode (request listRequest).encode = .ok (.request listRequest) ∧
      (request listRequest).toJson.Exact ∧
      ∃ q, decode (request listRequest).encode = .ok q ∧
        q.encode = (request listRequest).encode := by
  have hreadable := readable_listRequest
  have hback := decode_undoes_encode.2.1 listRequest hreadable
  exact ⟨hreadable, hback, hreadable.doubles,
    decode_undoes_encode.2.2.2.2.2 _ _ hback hreadable.doubles⟩

end Payload

end Depot.Rpc
