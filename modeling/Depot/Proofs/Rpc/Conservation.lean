import Depot.Rpc.Intake
import Depot.Proofs.Rpc.Stream

/-!
# Reading conserves messages

A body is a message, or it is none but tells whom to answer (`Addressed`), or neither; these exclude
one another and leave nothing out (`body_cases`), and each is handled in its own way
(`handle_of_ok`, `handle_of_addressed`, `handle_of_not_addressed`). `Conserved` says that of a list
of bodies nothing is lost, doubled or out of order. It carries the run over the frames of a stream
(`exists_readFrom_takes`); what stands behind them only says how reading ends (`Closes`), and when
nobody takes messages any more, the first message ends it.
-/

set_option autoImplicit false
set_option relaxedAutoImplicit false

namespace Depot.Rpc

/-! ## What becomes of one body -/

/-- An object with a method, and with an id that is a number of 64 bits without sign. -/
def Addressed (body : Bytes) (id : UInt64) : Prop :=
  ∃ members method number, Json.parse body = some (.object members) ∧
    Members.get? members "method" = some method ∧
    Members.get? members "id" = some (.integer number) ∧ number.value = id.toNat

/-- The answer to a malformed request: its id, the code of an invalid request, and the fault. -/
def rejection (id : UInt64) (fault : DecodeFault) : Response :=
  ⟨id, none, some ⟨-32600, fault.message, none⟩⟩

def Decodable (body : Bytes) : Prop := ∃ payload, Payload.decode body = .ok payload

variable {body : Bytes} {id : UInt64} {fault : DecodeFault} {payload : Payload}

theorem not_decodable_of_error (hdecode : Payload.decode body = .error fault) :
    ¬ Decodable body := by
  rintro ⟨payload, hok⟩
  rw [hdecode] at hok
  contradiction

theorem members?_eq_some_iff {j : Json} {m : Members Json} :
    j.members? = some m ↔ j = .object m := by
  cases j with
  | object members => simp [Json.members?]
  | _ => simp [Json.members?]

theorem toUInt64?_eq_some_iff {j : Json} {n : UInt64} :
    j.toUInt64? = some n ↔ ∃ number, j = .integer number ∧ number.value = n.toNat := by
  cases j with
  | integer number =>
    have hupper := number.upper
    simp only [Json.toUInt64?, Json.integer?, Option.bind_some, Integer.toUInt64?]
    constructor
    · intro hsome
      split at hsome
      · rename_i hpos
        injection hsome with hsome
        refine ⟨number, rfl, ?_⟩
        rw [← hsome, UInt64.toNat_ofNat']
        omega
      · contradiction
    · rintro ⟨_, hsame, hvalue⟩
      injection hsame with hsame
      subst hsame
      rw [hvalue, if_pos (Int.natCast_nonneg _), Int.toNat_natCast, UInt64.ofNat_toNat]
  | _ => simp [Json.toUInt64?, Json.integer?]

theorem addressed_iff :
    Addressed body id ↔ ∃ members method number, Json.parse body = some (.object members) ∧
      Members.get? members "method" = some method ∧
      Members.get? members "id" = some number ∧ number.toUInt64? = some id := by
  constructor
  · rintro ⟨members, method, number, hparse, hmethod, hid, hvalue⟩
    exact ⟨members, method, _, hparse, hmethod, hid, toUInt64?_eq_some_iff.2 ⟨number, rfl, hvalue⟩⟩
  · rintro ⟨members, method, _, hparse, hmethod, hid, hnumber⟩
    obtain ⟨number, rfl, hvalue⟩ := toUInt64?_eq_some_iff.1 hnumber
    exact ⟨members, method, number, hparse, hmethod, hid, hvalue⟩

/-- A body is rejected under the id that it has, and only if it has one. -/
theorem rejection?_eq_some_iff {response : Response} :
    rejection? body fault = some response ↔
      ∃ id, Addressed body id ∧ response = rejection id fault := by
  simp only [rejection?, Option.bind_eq_bind, Option.bind_eq_some_iff, addressed_iff]
  constructor
  · rintro ⟨j, hparse, m, hm, method, hmethod, id, ⟨number, hid, hnumber⟩, hresponse⟩
    rw [members?_eq_some_iff.1 hm] at hparse
    injection hresponse with hresponse
    exact ⟨id, ⟨m, method, number, hparse, hmethod, hid, hnumber⟩, hresponse.symm⟩
  · rintro ⟨id, ⟨m, method, number, hparse, hmethod, hid, hnumber⟩, rfl⟩
    exact ⟨_, hparse, m, rfl, method, hmethod, id, ⟨number, hid, hnumber⟩, rfl⟩

theorem handle_of_ok (hdecode : Payload.decode body = .ok payload) :
    handle body = .deliver payload := by
  rw [handle, hdecode]

theorem handle_of_addressed (hdecode : Payload.decode body = .error fault)
    (haddressed : Addressed body id) : handle body = .reject (rejection id fault) := by
  have hrejection := rejection?_eq_some_iff.2 ⟨id, haddressed, (rfl : _ = rejection id fault)⟩
  simp only [handle, hdecode, hrejection]

theorem handle_of_not_addressed (hdecode : Payload.decode body = .error fault)
    (hnone : ∀ id, ¬ Addressed body id) : handle body = .discard := by
  have hrejection : rejection? body fault = none :=
    Option.eq_none_iff_forall_ne_some.2 fun response hsome ↦ by
      obtain ⟨id, haddressed, -⟩ := rejection?_eq_some_iff.1 hsome
      exact hnone id haddressed
  simp only [handle, hdecode, hrejection]

theorem body_cases (body : Bytes) :
    (∃ payload, Payload.decode body = .ok payload) ∨
    (∃ fault id, Payload.decode body = .error fault ∧ Addressed body id) ∨
    ∃ fault, Payload.decode body = .error fault ∧ ∀ id, ¬ Addressed body id := by
  cases hdecode : Payload.decode body with
  | ok payload => exact .inl ⟨payload, rfl⟩
  | error fault =>
    by_cases haddressed : ∃ id, Addressed body id
    · obtain ⟨id, haddressed⟩ := haddressed
      exact .inr (.inl ⟨fault, id, rfl, haddressed⟩)
    · exact .inr (.inr ⟨fault, rfl, fun id h ↦ haddressed ⟨id, h⟩⟩)

/-- A message with a method and an id is a request under that id. -/
theorem exists_request_of_addressed (hdecode : Payload.decode body = .ok payload)
    (haddressed : Addressed body id) : ∃ request, payload = .request request ∧ request.id = id := by
  obtain ⟨members, method, number, hparse, hmethod, hid, hnumber⟩ := addressed_iff.1 haddressed
  simp only [Payload.decode, hparse, Payload.ofJson, Json.members?, Payload.ofMembers, hid,
    hmethod, idOf, hnumber, methodOf] at hdecode
  cases htext : method.text? with
  | none =>
    rw [htext] at hdecode
    contradiction
  | some name =>
    rw [htext] at hdecode
    injection hdecode with hdecode
    exact ⟨_, hdecode.symm, rfl⟩

/-! ## What becomes of many -/

/-- What the bodies come to, in their order: every message is delivered, every other body that
tells whom to answer is rejected, and the rest comes to nothing. -/
inductive Conserved : List Bytes → List Payload → List Response → Prop where
  | nil : Conserved [] [] []
  | delivered {body : Bytes} {payload : Payload} {bodies : List Bytes} {payloads : List Payload}
      {replies : List Response} : Payload.decode body = .ok payload →
      Conserved bodies payloads replies → Conserved (body :: bodies) (payload :: payloads) replies
  | rejected {body : Bytes} {fault : DecodeFault} {id : UInt64} {bodies : List Bytes}
      {payloads : List Payload} {replies : List Response} :
      Payload.decode body = .error fault → Addressed body id →
      Conserved bodies payloads replies →
      Conserved (body :: bodies) payloads (rejection id fault :: replies)
  | passed {body : Bytes} {fault : DecodeFault} {bodies : List Bytes} {payloads : List Payload}
      {replies : List Response} : Payload.decode body = .error fault →
      (∀ id, ¬ Addressed body id) → Conserved bodies payloads replies →
      Conserved (body :: bodies) payloads replies

variable {bodies : List Bytes} {payloads : List Payload} {replies : List Response}

theorem Conserved.payloads_eq_nil (hconserved : Conserved bodies payloads replies)
    (hnone : ∀ b ∈ bodies, ¬ Decodable b) : payloads = [] := by
  induction hconserved with
  | nil => rfl
  | delivered hdecode => exact absurd ⟨_, hdecode⟩ (hnone _ List.mem_cons_self)
  | rejected _ _ _ ih => exact ih fun b hb ↦ hnone b (List.mem_cons_of_mem _ hb)
  | passed _ _ _ ih => exact ih fun b hb ↦ hnone b (List.mem_cons_of_mem _ hb)

/-- No body with a method and an id is dropped. -/
theorem Conserved.delivered_or_rejected (hconserved : Conserved bodies payloads replies)
    (hbody : body ∈ bodies) (haddressed : Addressed body id) :
    (∃ request, Payload.decode body = .ok (.request request) ∧ request.id = id ∧
      .request request ∈ payloads) ∨
    ∃ fault, Payload.decode body = .error fault ∧ rejection id fault ∈ replies := by
  induction hconserved with
  | nil => contradiction
  | delivered hdecode _ ih =>
    rcases List.mem_cons.1 hbody with rfl | hbody
    · obtain ⟨request, rfl, hid⟩ := exists_request_of_addressed hdecode haddressed
      exact .inl ⟨request, hdecode, hid, List.mem_cons_self⟩
    · refine (ih hbody).imp_left ?_
      rintro ⟨request, hrequest, hid, hmem⟩
      exact ⟨request, hrequest, hid, List.mem_cons_of_mem _ hmem⟩
  | @rejected b fault id' _ _ _ hdecode haddressed' _ ih =>
    rcases List.mem_cons.1 hbody with rfl | hbody
    · have hhandle := handle_of_addressed hdecode haddressed
      rw [handle_of_addressed hdecode haddressed'] at hhandle
      injection hhandle with hsame
      exact .inr ⟨fault, hdecode, hsame ▸ List.mem_cons_self⟩
    · refine (ih hbody).imp_right ?_
      rintro ⟨fault, hfault, hmem⟩
      exact ⟨fault, hfault, List.mem_cons_of_mem _ hmem⟩
  | passed _ hnone _ ih =>
    rcases List.mem_cons.1 hbody with rfl | hbody
    · exact absurd haddressed (hnone id)
    · exact ih hbody

end Depot.Rpc

namespace Depot.Rpc.Intake

open Rpc.Frame (Frames IsFrame Takes Ending)

/-! ## Reading a stream -/

variable {body tail s : Bytes} {bodies : List Bytes} {ending : Ending} {fuel : Nat}
  {accepting : Bool}

/-- What stands behind the last frame ends the stream: there is nothing more, or no frame. -/
inductive Closes : Bytes → Ending → Prop where
  | ended {tail : Bytes} : Frame.next true tail = .ended → Closes tail .ended
  | broken {tail : Bytes} {fault : FrameFault} :
      Frame.next true tail = .fault fault → Closes tail (.fault fault)

theorem readFrom_of_closes (hcloses : Closes tail ending) (hfuel : 0 < fuel) :
    readFrom accepting fuel tail = { ending } := by
  obtain ⟨fuel, rfl⟩ := Nat.exists_eq_succ_of_ne_zero (Nat.ne_of_gt hfuel)
  cases hcloses with
  | ended hnext => rw [readFrom, hnext]
  | broken hnext => rw [readFrom, hnext]

/-- The first message that nobody takes ends the stream. -/
theorem readFrom_of_decodable {rest : Bytes} (hnext : Frame.next true s = .frame body rest)
    (hbody : Decodable body) (hfuel : 0 < fuel) : readFrom false fuel s = {} := by
  obtain ⟨fuel, rfl⟩ := Nat.exists_eq_succ_of_ne_zero (Nat.ne_of_gt hfuel)
  obtain ⟨payload, hdecode⟩ := hbody
  simp only [readFrom, hnext, handle_of_ok hdecode, Bool.false_eq_true, if_false]

/-- What comes of some frames is put in front of what comes of the rest. -/
def prepend (payloads : List Payload) (replies : List Response) (i : Intake) : Intake :=
  { i with payloads := payloads ++ i.payloads, replies := replies ++ i.replies }

/-- The frames of a stream are handled one after another, and then what is left. -/
theorem exists_readFrom_takes (htakes : Takes s bodies tail) (hfuel : s.length < fuel)
    (haccepts : accepting = true ∨ ∀ b ∈ bodies, ¬ Decodable b) :
    ∃ payloads replies left, Conserved bodies payloads replies ∧ tail.length < left ∧
      readFrom accepting fuel s = prepend payloads replies (readFrom accepting left tail) := by
  induction htakes generalizing fuel with
  | nil => exact ⟨[], [], fuel, .nil, hfuel, rfl⟩
  | @cons s body rest tail bodies hnext _ ih =>
    have hlength := Frame.length_of_frame hnext
    obtain ⟨fuel, rfl⟩ := Nat.exists_eq_succ_of_ne_zero (Nat.ne_of_gt (Nat.zero_lt_of_lt hfuel))
    have hrest : rest.length < fuel := by omega
    have haccepts' := haccepts.imp_right fun h b hb ↦ h b (List.mem_cons_of_mem _ hb)
    obtain ⟨payloads, replies, left, hconserved, hleft, hread⟩ := ih hrest haccepts'
    rcases body_cases body with ⟨payload, hok⟩ | ⟨fault, id, hfault, haddressed⟩ |
      ⟨fault, hfault, hnone⟩
    · have haccepting : accepting = true :=
        haccepts.resolve_right fun h ↦ h body List.mem_cons_self ⟨payload, hok⟩
      refine ⟨payload :: payloads, replies, left, .delivered hok hconserved, hleft, ?_⟩
      simp only [readFrom, hnext, handle_of_ok hok, haccepting, if_true]
      rw [← haccepting, hread]
      rfl
    · refine ⟨payloads, rejection id fault :: replies, left,
        .rejected hfault haddressed hconserved, hleft, ?_⟩
      simp only [readFrom, hnext, handle_of_addressed hfault haddressed, hread]
      rfl
    · refine ⟨payloads, replies, left, .passed hfault hnone hconserved, hleft, ?_⟩
      simp only [readFrom, hnext, handle_of_not_addressed hfault hnone, hread]

/-- Where a stream of frames comes to one of its bodies. -/
theorem exists_frames_before {front after : List Bytes}
    (hframes : Frames s (front ++ body :: after) tail) :
    ∃ frame rest, Frames s front (frame ++ rest) ∧ IsFrame frame body := by
  induction front generalizing s with
  | nil =>
    cases hframes with
    | cons hframe _ => exact ⟨_, _, .nil, hframe⟩
  | cons b front ih =>
    cases hframes with
    | cons hframe hrest =>
      obtain ⟨frame, rest, hfront, hbody⟩ := ih hrest
      exact ⟨frame, rest, .cons hframe hfront, hbody⟩

theorem read_to_end (accepting : Bool) (hframes : Frames s bodies tail)
    (hcloses : Closes tail ending) (htakes : accepting = true ∨ ∀ b ∈ bodies, ¬ Decodable b) :
    (read accepting s).ending = ending ∧
      Conserved bodies (read accepting s).payloads (read accepting s).replies := by
  obtain ⟨payloads, replies, left, hconserved, hleft, hread⟩ :=
    exists_readFrom_takes (Frame.takes_of_frames hframes) (Nat.lt_succ_self s.length) htakes
  rw [readFrom_of_closes hcloses (Nat.zero_lt_of_lt hleft)] at hread
  rw [read, hread]
  simp only [prepend, List.append_nil]
  exact ⟨trivial, hconserved⟩

theorem read_to_first_message {front after : List Bytes}
    (hframes : Frames s (front ++ body :: after) tail) (hfront : ∀ b ∈ front, ¬ Decodable b)
    (hbody : Decodable body) :
    (read false s).ending = .ended ∧ (read false s).payloads = [] ∧
      Conserved front [] (read false s).replies := by
  obtain ⟨frame, rest, hframes, hframe⟩ := exists_frames_before hframes
  obtain ⟨payloads, replies, left, hconserved, hleft, hread⟩ :=
    exists_readFrom_takes (Frame.takes_of_frames hframes) (Nat.lt_succ_self s.length) (.inr hfront)
  have hnil := hconserved.payloads_eq_nil hfront
  subst hnil
  have hnext := Frame.next_of_isFrame hframe true rest
  rw [readFrom_of_decodable hnext hbody (Nat.zero_lt_of_lt hleft)] at hread
  rw [read, hread]
  simp only [prepend, List.append_nil]
  exact ⟨trivial, trivial, hconserved⟩

/-- Reading a stream of well-formed frames loses, doubles and reorders nothing. As long as messages
are taken, all bodies are handled before the stream ends, whether it just ends or fails, and a body
with a method and an id is delivered as a request or rejected under that id. If nobody takes
messages, reading ends without a fault at the first one, behind the rejections before it. -/
theorem read_conserves (hframes : Frames s bodies tail) :
    (∀ ending, Closes tail ending →
      (read true s).ending = ending ∧
      Conserved bodies (read true s).payloads (read true s).replies ∧
      ∀ body ∈ bodies, ∀ id, Addressed body id →
        (∃ request, Payload.decode body = .ok (.request request) ∧ request.id = id ∧
          .request request ∈ (read true s).payloads) ∨
        ∃ fault, Payload.decode body = .error fault ∧
          rejection id fault ∈ (read true s).replies) ∧
    (∀ front body after, bodies = front ++ body :: after → (∀ b ∈ front, ¬ Decodable b) →
      Decodable body →
      (read false s).ending = .ended ∧ (read false s).payloads = [] ∧
        Conserved front [] (read false s).replies) ∧
    (∀ ending, Closes tail ending → (∀ b ∈ bodies, ¬ Decodable b) →
      (read false s).ending = ending ∧ (read false s).payloads = [] ∧
        Conserved bodies [] (read false s).replies) := by
  refine ⟨fun ending hcloses ↦ ?_, ?_, fun ending hcloses hnone ↦ ?_⟩
  · obtain ⟨hending, hconserved⟩ := read_to_end true hframes hcloses (.inl rfl)
    exact ⟨hending, hconserved, fun body hbody id haddressed ↦
      hconserved.delivered_or_rejected hbody haddressed⟩
  · rintro front body after rfl hfront hbody
    exact read_to_first_message hframes hfront hbody
  · obtain ⟨hending, hconserved⟩ := read_to_end false hframes hcloses (.inr hnone)
    have hnil := hconserved.payloads_eq_nil hnone
    rw [hnil] at hconserved
    exact ⟨hending, hnil, hconserved⟩

/-- A request whose method is no text. -/
def namelessBody : Bytes := Text.encode "\x7b\"id\":2,\"method\":3\x7d"

def requestBody : Bytes := Text.encode "\x7b\"id\":1,\"method\":\"m\"\x7d"

def arrayBody : Bytes := Text.encode "[]"

/-- Behind the frames stands a line without a colon. Of the three bodies the first is rejected and
the second delivered; without it, the stream is read to its end even if nobody takes messages. -/
theorem read_conserves_mixed :
    let bodies := [namelessBody, requestBody, arrayBody]
    let tail := Text.encode "x\n"
    let s := Frame.writeAll bodies ++ tail
    let t := Frame.writeAll [namelessBody, arrayBody] ++ tail
    Frames s bodies tail ∧ Closes tail (.fault (.noColon "x")) ∧
      (read true s).ending = .fault (.noColon "x") ∧
      Conserved bodies (read true s).payloads (read true s).replies ∧
      (read false s).ending = .ended ∧ Conserved [namelessBody] [] (read false s).replies ∧
      (read false t).ending = .fault (.noColon "x") ∧
      Conserved [namelessBody, arrayBody] [] (read false t).replies := by
  intro bodies tail s t
  have hfit : ∀ b ∈ bodies, b.length < Frame.oversizeFrom := by decide
  have hfit' : ∀ b ∈ [namelessBody, arrayBody], b.length < Frame.oversizeFrom := by decide
  have hnameless : ¬ Decodable namelessBody :=
    not_decodable_of_error (show Payload.decode namelessBody = .error .method from rfl)
  have harray : ¬ Decodable arrayBody :=
    not_decodable_of_error (show Payload.decode arrayBody = .error .notObject from rfl)
  have hrequest : Decodable requestBody := ⟨.request ⟨1, "m", none, .empty⟩, rfl⟩
  have hframes : Frames s bodies tail := Frame.frames_writeAll hfit tail
  have hcloses : Closes tail (.fault (.noColon "x")) := .broken rfl
  obtain ⟨hread, hfirst, -⟩ := read_conserves hframes
  obtain ⟨-, -, hnone⟩ := read_conserves
    (Frame.frames_writeAll hfit' tail)
  obtain ⟨hending, hconserved, -⟩ := hread _ hcloses
  obtain ⟨hended, -, hreplies⟩ := hfirst [namelessBody] requestBody [arrayBody] rfl
    (List.forall_mem_singleton.2 hnameless) hrequest
  obtain ⟨hbroken, -, hreplies'⟩ := hnone _ hcloses
    (List.forall_mem_cons.2 ⟨hnameless, List.forall_mem_singleton.2 harray⟩)
  exact ⟨hframes, hcloses, hending, hconserved, hended, hreplies, hbroken, hreplies'⟩

end Depot.Rpc.Intake
