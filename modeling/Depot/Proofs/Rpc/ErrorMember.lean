import Depot.Proofs.Rpc.Conservation
import Depot.Proofs.Rpc.Matching

/-!
# The error in a response

A body `Reports` an error under an id if it is an object without a method, with that id, and with an
`error` member that is not null. `States` is what such a member says if it has the shape of an
error: a whole number for a code, a text for a message, and its `data` member. A response `Tells`
the error if it carries that code, that message and that data.

`Error.ofJson?_eq_some_iff` is what the reader makes of the member. It takes the code for a signed
number of 64 bits and keeps the last 32 of them (`codeOf?_eq_some_iff`), so the code is right just
where it fits (`toInt_ofInt_eq_iff`). Reading the body never depends on that (`Reports.decode`):
where the member is not taken for an error the response comes without one, and
`reported_error_told_iff` says for every shape of the member which of the three happens, and that
whoever waits gets just that response.
-/

set_option autoImplicit false
set_option relaxedAutoImplicit false

namespace Depot.Rpc

variable {body : Bytes} {members : Members Json} {id : UInt64} {error : Json} {code : Int}
  {message : String} {data? : Option Json}

/-! ## The error member -/

/-- The body is an object without a method, it has this id, and this is its error. -/
structure Reports (body : Bytes) (members : Members Json) (id : UInt64) (error : Json) : Prop where
  parsed : Json.parse body = some (.object members)
  unasked : Members.get? members "method" = none
  numbered : ∃ number, Members.get? members "id" = some (.integer number) ∧
    number.value = id.toNat
  found : Members.get? members "error" = some error
  notNull : error ≠ .null

/-- The member is an object with this whole number for a code, this text for a message, and this
member for data, or none. -/
def States (error : Json) (code : Int) (message : String) (data? : Option Json) : Prop :=
  ∃ members number, error = .object members ∧
    Members.get? members "code" = some (.integer number) ∧ number.value = code ∧
    Members.get? members "message" = some (.text message) ∧
    Members.get? members "data" = data?

/-- The response carries an error with the code, the message and the data that the member states. -/
def Response.Tells (r : Response) (error : Json) : Prop :=
  ∃ e, r.error? = some e ∧ States error e.code.toInt e.message e.data?

/-- The number fits 32 bits with a sign. -/
def Fits (code : Int) : Prop := -0x80000000 ≤ code ∧ code < 0x80000000

instance (code : Int) : Decidable (Fits code) := inferInstanceAs (Decidable (_ ∧ _))

/-- A member states one error at most. -/
theorem States.unique {code' : Int} {message' : String} {data?' : Option Json}
    (h : States error code message data?) (h' : States error code' message' data?') :
    code = code' ∧ message = message' ∧ data? = data?' := by
  obtain ⟨members, number, rfl, hcode, rfl, hmessage, rfl⟩ := h
  obtain ⟨members', number', hsame, hcode', rfl, hmessage', rfl⟩ := h'
  obtain rfl := Json.object.inj hsame
  have hnumber := Json.integer.inj (Option.some.inj (hcode.symm.trans hcode'))
  have htext := Json.text.inj (Option.some.inj (hmessage.symm.trans hmessage'))
  exact ⟨congrArg Integer.value hnumber, htext, rfl⟩

theorem text?_eq_some_iff {j : Json} {s : String} : j.text? = some s ↔ j = .text s := by
  cases j with
  | text value => simp [Json.text?]
  | _ => simp [Json.text?]

/-! ## The code -/

/-- The code is read from a whole number below 2 ^ 63, as its residue. -/
theorem codeOf?_eq_some_iff {j : Json} {code32 : Int32} :
    codeOf? j = some code32 ↔ ∃ number, j = .integer number ∧
      number.value < 0x8000000000000000 ∧ Int32.ofInt number.value = code32 := by
  cases j with
  | integer number => simp [codeOf?, Json.integer?, Option.filter_some]
  | _ => simp [codeOf?, Json.integer?]

/-- What is kept of a number is congruent to it. -/
theorem emod_toInt_ofInt (code : Int) :
    (Int32.ofInt code).toInt % 0x100000000 = code % 0x100000000 := by
  rw [Int32.toInt_ofInt]
  exact Int.bmod_emod

/-- The number that is kept is the number that was read if and only if it fits. -/
theorem toInt_ofInt_eq_iff : (Int32.ofInt code).toInt = code ↔ Fits code := by
  have hlower := (Int32.ofInt code).le_toInt
  have hupper := (Int32.ofInt code).toInt_lt
  have hresidue := emod_toInt_ofInt code
  rw [Fits]
  constructor
  · intro hsame
    omega
  · rintro ⟨hcode, hcode'⟩
    omega

/-! ## What the reader makes of it -/

/-- An error is read from what states one, if the code is below 2 ^ 63. -/
theorem Error.ofJson?_eq_some_iff {e : Error} : Error.ofJson? error = some e ↔
    ∃ code, States error code e.message e.data? ∧ code < 0x8000000000000000 ∧
      e.code = Int32.ofInt code := by
  simp only [Error.ofJson?, Option.bind_eq_bind, Option.bind_eq_some_iff, members?_eq_some_iff,
    codeOf?_eq_some_iff, text?_eq_some_iff]
  constructor
  · rintro ⟨m, rfl, code32, ⟨_, hcode, number, rfl, hbelow, rfl⟩, s, ⟨_, hmessage, rfl⟩, hread⟩
    obtain rfl := Option.some.inj hread
    exact ⟨number.value, ⟨m, number, rfl, hcode, rfl, hmessage, rfl⟩, hbelow, rfl⟩
  · rintro ⟨code, ⟨m, number, rfl, hcode, rfl, hmessage, hdata⟩, hbelow, hkept⟩
    refine ⟨m, rfl, _, ⟨_, hcode, number, rfl, hbelow, rfl⟩, _, ⟨_, hmessage, rfl⟩, ?_⟩
    rw [hdata, ← hkept]

/-- No shape of the error member makes the body unreadable: it is a response under its id. -/
theorem Reports.decode (hreports : Reports body members id error) :
    Payload.decode body =
      .ok (.response ⟨id, Members.get? members "result", Error.ofJson? error⟩) := by
  obtain ⟨number, hnumber, hvalue⟩ := hreports.numbered
  have hid := toUInt64?_eq_some_iff.2 ⟨number, rfl, hvalue⟩
  simp only [Payload.decode, hreports.parsed, Payload.ofJson, Json.members?, Payload.ofMembers,
    hnumber, hreports.unasked, hreports.found, Option.bind_some, idOf, hid]
  rfl

/-- The error is told if it states a code that fits. -/
theorem tells_iff {r : Response} (hread : r.error? = Error.ofJson? error) :
    r.Tells error ↔ ∃ code message data?, States error code message data? ∧ Fits code := by
  constructor
  · rintro ⟨e, he, hstates⟩
    obtain ⟨code, hcode, -, hkept⟩ := Error.ofJson?_eq_some_iff.1 (hread.symm.trans he)
    obtain ⟨hsame, -, -⟩ := hcode.unique hstates
    rw [hkept] at hsame
    exact ⟨code, _, _, hcode, toInt_ofInt_eq_iff.1 hsame.symm⟩
  · rintro ⟨code, message, data?, hstates, hfits⟩
    have hbelow : code < 0x8000000000000000 := by
      rw [Fits] at hfits
      omega
    have he := Error.ofJson?_eq_some_iff (e := ⟨Int32.ofInt code, message, data?⟩).2
      ⟨code, hstates, hbelow, rfl⟩
    refine ⟨_, hread.trans he, ?_⟩
    rw [toInt_ofInt_eq_iff.2 hfits]
    exact hstates

/-- No error is told where the member states none, or a code beyond the signed numbers. -/
theorem ofJson?_eq_none_iff : Error.ofJson? error = none ↔
    ¬ ∃ code message data?, States error code message data? ∧ code < 0x8000000000000000 := by
  rw [← Option.not_isSome_iff_eq_none, Option.isSome_iff_exists]
  refine not_congr ⟨?_, ?_⟩
  · rintro ⟨e, he⟩
    obtain ⟨code, hstates, hbelow, -⟩ := Error.ofJson?_eq_some_iff.1 he
    exact ⟨code, _, _, hstates, hbelow⟩
  · rintro ⟨code, message, data?, hstates, hbelow⟩
    exact ⟨⟨Int32.ofInt code, message, data?⟩,
      Error.ofJson?_eq_some_iff.2 ⟨code, hstates, hbelow, rfl⟩⟩

/-! ## What the waiter gets -/

/-- A response ends the request that waits for it. -/
theorem Engine.ending?_step_response {e : Engine} {r : Response} (hrunning : e.running = true)
    (hpending : r.id ∈ e.pending) : (e.step (.response r)).ending? r.id = some (.ok r) := by
  rw [step, if_pos hrunning, respond, ending?_finish, if_pos ⟨hpending, rfl⟩]

/-- A body that reports an error is never refused: it is read as a response under its id with the
result that stands beside the error, and the request that waits under that id ends with it. The
response tells the error if and only if the member states a code that fits 32 bits. Of a code that
does not, but has 64 bits with a sign, only the residue arrives, with the message and the data; in
all other cases the response carries no error at all. -/
theorem reported_error_told_iff (hreports : Reports body members id error) :
    ∃ r, Payload.decode body = .ok (.response r) ∧ r.id = id ∧
      r.result? = Members.get? members "result" ∧
      (∀ engine : Engine, engine.running = true → id ∈ engine.pending →
        (engine.step (.response r)).ending? id = some (.ok r)) ∧
      (r.Tells error ↔ ∃ code message data?, States error code message data? ∧ Fits code) ∧
      (∀ code message data?, States error code message data? → ¬ Fits code →
        code < 0x8000000000000000 → ∃ e, r.error? = some e ∧ e.message = message ∧
          e.data? = data? ∧ e.code.toInt ≠ code ∧
          e.code.toInt % 0x100000000 = code % 0x100000000) ∧
      (r.error? = none ↔ ¬ ∃ code message data?,
        States error code message data? ∧ code < 0x8000000000000000) := by
  refine ⟨_, hreports.decode, rfl, rfl, fun engine hrunning hpending ↦ ?_, tells_iff rfl,
    fun code message data? hstates hfits hbelow ↦ ?_, ofJson?_eq_none_iff⟩
  · exact Engine.ending?_step_response hrunning hpending
  · refine ⟨⟨Int32.ofInt code, message, data?⟩,
      Error.ofJson?_eq_some_iff.2 ⟨code, hstates, hbelow, rfl⟩, rfl, rfl, ?_, emod_toInt_ofInt code⟩
    exact mt toInt_ofInt_eq_iff.1 hfits

/-- The error of a response with a code that is one beyond 32 bits. -/
def wideError : Json := .object [("code", .ofUInt64 2147483648), ("message", .text "m")]

def wideBody : Bytes :=
  Text.encode "\x7b\"id\":1,\"error\":\x7b\"code\":2147483648,\"message\":\"m\"\x7d\x7d"

/-- The request that waits gets the code -2147483648. -/
theorem reported_error_told_iff_wide :
    Reports wideBody [("error", wideError), ("id", .ofUInt64 1)] 1 wideError ∧
      ∃ r, Payload.decode wideBody = .ok (.response r) ∧
        (Engine.step { pending := [1] } (.response r)).ending? 1 = some (.ok r) ∧
        ¬ r.Tells wideError ∧ ∃ e, r.error? = some e ∧ e.message = "m" ∧ e.code = -2147483648 := by
  have hreports : Reports wideBody [("error", wideError), ("id", .ofUInt64 1)] 1 wideError :=
    ⟨rfl, rfl, ⟨.ofUInt64 1, rfl, rfl⟩, rfl, nofun⟩
  have hstates : States wideError 2147483648 "m" none := ⟨_, _, rfl, rfl, rfl, rfl, rfl⟩
  obtain ⟨r, hdecode, -, -, hwaiter, htells, hresidue, -⟩ := reported_error_told_iff hreports
  obtain ⟨e, he, hmessage, -, -, hcode⟩ := hresidue _ _ _ hstates (by decide) (by decide)
  refine ⟨hreports, r, hdecode, hwaiter _ rfl List.mem_cons_self, fun htold ↦ ?_, e, he, hmessage,
    ?_⟩
  · obtain ⟨code, _, _, hstated, hfits⟩ := htells.1 htold
    obtain ⟨rfl, -, -⟩ := hstated.unique hstates
    exact absurd hfits (by decide)
  · have hlower := e.code.le_toInt
    have hupper := e.code.toInt_lt
    exact Int32.toInt_inj.1 (show e.code.toInt = -2147483648 by omega)

/-- An error with a code and without a message. -/
def silentError : Json := .object [("code", .ofUInt64 7)]

def silentBody : Bytes :=
  Text.encode "\x7b\"id\":5,\"error\":\x7b\"code\":7\x7d,\"result\":3\x7d"

/-- The error is lost, and the request that waits gets the result beside it as a success. -/
theorem silentBody_succeeds :
    Reports silentBody [("error", silentError), ("id", .ofUInt64 5), ("result", .ofUInt64 3)] 5
        silentError ∧
      Payload.decode silentBody = .ok (.response (.success 5 (.ofUInt64 3))) ∧
      ¬ (Response.success 5 (.ofUInt64 3)).Tells silentError ∧
      (Engine.step { pending := [5] } (.response (.success 5 (.ofUInt64 3)))).ending? 5 =
        some (.ok (.success 5 (.ofUInt64 3))) := by
  refine ⟨⟨rfl, rfl, ⟨.ofUInt64 5, rfl, rfl⟩, rfl, nofun⟩, rfl, ?_,
    Engine.ending?_step_response rfl List.mem_cons_self⟩
  rintro ⟨e, he, -⟩
  cases he

end Depot.Rpc
