import Depot.Proofs.Run
import Depot.Rpc.Engine

/-!
# Requests and the responses to them

Everything that can happen to an engine is an `Event`, and any list of events is a run. Four kinds
of event end a request, each on a path of its own: its response, its timeout, a channel that takes
nothing, and the end of the loop (`Ends`). As long as numbers do not come round again, a new request
has a number that no earlier one had (`issued_unique`), so that a request which is over waits no
more (`Sound`), and what has ended it is the one event that did (`ending?_before_iff`).
-/

set_option autoImplicit false
set_option relaxedAutoImplicit false

namespace Depot.Rpc.Engine

/-- Something happens to an engine. Its loop ends once, and takes nothing in from then on. -/
inductive Event where
  | request (method : String) (params? : Option Json) (headers : Fields String)
  | response (r : Response)
  | timeout (id millis : UInt64)
  | closeOutbound
  | stop

def Event.isRequest : Event → Bool
  | request .. => true
  | _ => false

def step (e : Engine) : Event → Engine
  | .request method params? headers => (e.request method params? headers).2
  | .response r => if e.running then e.respond r else e
  | .timeout id millis => e.expire id millis
  | .closeOutbound => e.closeOutbound
  | .stop => e.stop

/-- The engine that step `i` of a run finds. -/
abbrev before (run : List Event) (i : Nat) : Engine := stateAt step {} run i

/-- A request was made in step `k` of the run, under this id. -/
def Issued (run : List Event) (k : Nat) (id : UInt64) : Prop :=
  ∃ method params? headers, run[k]? = some (.request method params? headers) ∧
    ((before run k).request method params? headers).1.id = id

/-- The event ends the request of this id, in this way. -/
inductive Ends (e : Engine) : Event → UInt64 → RequestEnd → Prop
  | answered (r : Response) (hrunning : e.running = true) (hpending : r.id ∈ e.pending) :
      Ends e (.response r) r.id (.ok r)
  | timedOut (id millis : UInt64) (hpending : id ∈ e.pending) :
      Ends e (.timeout id millis) id (.error (.timeout millis))
  | refused (method : String) (params? : Option Json) (headers : Fields String)
      (hclosed : e.sending = false) :
      Ends e (.request method params? headers) e.nextId (.error .send)
  | stopped (id : UInt64) (hrunning : e.running = true) (hpending : id ∈ e.pending) :
      Ends e .stop id (.error .stopped)

variable {e : Engine} {event : Event} {id other : UInt64} {ending : RequestEnd}

/-! ## What each event changes -/

theorem mem_pending_finish :
    other ∈ (e.finish id ending).pending ↔ other ∈ e.pending ∧ other ≠ id := by
  unfold finish
  split
  · simp
  · rename_i hid
    refine ⟨fun h ↦ ⟨h, ?_⟩, And.left⟩
    rintro rfl
    exact hid h

theorem ending?_finish : (e.finish id ending).ending? other =
    if id ∈ e.pending ∧ id = other then some ending else e.ending? other := by
  by_cases hid : id ∈ e.pending
  · rw [finish, if_pos hid]
    by_cases hother : id = other
    · subst hother
      simp [ending?, hid]
    · simp [ending?, hother]
  · rw [finish, if_neg hid, if_neg fun h ↦ hid h.1]

theorem finish_of_not_mem (h : id ∉ e.pending) : e.finish id ending = e := if_neg h

theorem mem_pending_stop (hrunning : e.running = true) : other ∉ e.stop.pending := by
  rw [stop, if_pos hrunning]
  exact List.not_mem_nil

theorem ending?_stop (hrunning : e.running = true) : e.stop.ending? other =
    if other ∈ e.pending then some (.error .stopped) else e.ending? other := by
  rw [stop, if_pos hrunning]
  simp only [ending?, List.find?_append, List.find?_map, Function.comp_def]
  by_cases hother : other ∈ e.pending
  · have hfind : e.pending.find? (fun id ↦ decide (id = other)) = some other := by
      cases hfind : e.pending.find? (fun id ↦ decide (id = other)) with
      | none => exact absurd (decide_eq_true rfl) (List.find?_eq_none.1 hfind other hother)
      | some found =>
        have hsame := List.find?_some hfind
        rw [of_decide_eq_true hsame]
    simp [hfind, hother]
  · have hfind : e.pending.find? (fun id ↦ decide (id = other)) = none := by
      refine List.find?_eq_none.2 fun id hid ↦ ?_
      rw [decide_eq_true_eq]
      rintro rfl
      exact hother hid
    simp [hfind, hother]

/-! ## One event -/

/-- No request waits that is over, or waits twice. -/
structure Sound (e : Engine) : Prop where
  distinct : e.pending.Nodup
  waits : ∀ id ∈ e.pending, e.ending? id = none

/-- Nothing is known of the number that comes next. -/
def Fresh (e : Engine) : Prop := e.nextId ∉ e.pending ∧ e.ending? e.nextId = none

/-- The number belongs to a request that waits or is over. -/
def Knows (e : Engine) (id : UInt64) : Prop := id ∈ e.pending ∨ e.ending? id ≠ none

theorem sound_create : ({} : Engine).Sound where
  distinct := List.nodup_nil
  waits _ h := absurd h List.not_mem_nil

theorem Sound.finish (he : e.Sound) : (e.finish id ending).Sound where
  distinct := by
    unfold Engine.finish
    split
    · exact he.distinct.filter _
    · exact he.distinct
  waits other hother := by
    obtain ⟨hpending, hne⟩ := mem_pending_finish.1 hother
    rw [ending?_finish, if_neg fun h ↦ hne h.2.symm]
    exact he.waits other hpending

/-- A request that could be sent waits under the next number. -/
theorem Sound.push (he : e.Sound) (hfresh : e.Fresh) :
    ({ e with nextId := e.nextId + 1, pending := e.nextId :: e.pending } : Engine).Sound where
  distinct := List.nodup_cons.2 ⟨hfresh.1, he.distinct⟩
  waits id hid := by
    rcases List.mem_cons.1 hid with rfl | hid
    · exact hfresh.2
    · exact he.waits id hid

theorem Sound.step (he : e.Sound) (hfresh : event.isRequest = true → e.Fresh) :
    (e.step event).Sound := by
  cases event with
  | request method params? headers =>
    have hpush := he.push (hfresh rfl)
    simp only [Engine.step, request]
    split
    · exact hpush
    · exact hpush.finish
  | response r =>
    rw [Engine.step]
    split
    · exact he.finish
    · exact he
  | timeout id millis => exact he.finish
  | closeOutbound => exact ⟨he.distinct, he.waits⟩
  | stop =>
    cases hrunning : e.running with
    | false => rwa [Engine.step, stop, if_neg (by simp [hrunning])]
    | true =>
      refine ⟨?_, fun id hid ↦ absurd hid (mem_pending_stop hrunning)⟩
      rw [Engine.step, stop, if_pos hrunning]
      exact List.nodup_nil

/-- A number becomes known by being given to a request, and known it stays. -/
theorem knows_step : (e.step event).Knows id ↔
    e.Knows id ∨ event.isRequest = true ∧ e.nextId = id := by
  have hfinish : ∀ (e : Engine) (done : UInt64) (ending : RequestEnd),
      (e.finish done ending).Knows id ↔ e.Knows id := by
    intro e done ending
    simp only [Knows, mem_pending_finish, ending?_finish]
    by_cases hdone : done ∈ e.pending ∧ done = id
    · obtain ⟨hpending, rfl⟩ := hdone
      simp [hpending]
    · rw [if_neg hdone]
      refine or_congr_left ⟨And.left, fun h ↦ ⟨h, ?_⟩⟩
      rintro rfl
      exact hdone ⟨h, rfl⟩
  cases event with
  | request method params? headers =>
    have hpush : ({ e with nextId := e.nextId + 1, pending := e.nextId :: e.pending } :
        Engine).Knows id ↔ e.Knows id ∨ e.nextId = id := by
      simp only [Knows, List.mem_cons, eq_comm (a := id)]
      rw [or_assoc, or_comm]
      rfl
    simp only [step, request, Event.isRequest, true_and]
    split
    · exact hpush
    · exact (hfinish _ _ _).trans hpush
  | response r =>
    simp only [step, Event.isRequest, Bool.false_eq_true, false_and, or_false]
    split
    · exact hfinish e r.id (.ok r)
    · exact Iff.rfl
  | timeout done millis =>
    simp only [Event.isRequest, Bool.false_eq_true, false_and, or_false]
    exact hfinish e done _
  | closeOutbound =>
    simp only [Event.isRequest, Bool.false_eq_true, false_and, or_false]
    exact Iff.rfl
  | stop =>
    simp only [Event.isRequest, Bool.false_eq_true, false_and, or_false]
    cases hrunning : e.running with
    | false => rw [step, stop, if_neg (by simp [hrunning])]
    | true =>
      simp only [Knows, step, mem_pending_stop hrunning, ending?_stop hrunning, false_or]
      by_cases hid : id ∈ e.pending <;> simp [hid]

/-- How a request has ended is how it had, or how this event ends it. -/
theorem ending?_step (he : e.Sound) (hfresh : event.isRequest = true → e.Fresh) :
    (e.step event).ending? id = some ending ↔
      e.ending? id = some ending ∨ Ends e event id ending := by
  have hfinish : ∀ (e : Engine) (done : UInt64) (x : RequestEnd), e.Sound →
      ((e.finish done x).ending? id = some ending ↔
        e.ending? id = some ending ∨ done ∈ e.pending ∧ done = id ∧ x = ending) := by
    intro e done x he
    rw [ending?_finish]
    by_cases hdone : done ∈ e.pending ∧ done = id
    · obtain ⟨hpending, rfl⟩ := hdone
      simp [hpending, he.waits done hpending]
    · rw [if_neg hdone]
      exact ⟨Or.inl, fun h ↦ h.resolve_right fun h ↦ hdone ⟨h.1, h.2.1⟩⟩
  cases event with
  | request method params? headers =>
    have hpush := he.push (hfresh rfl)
    simp only [step, request]
    split
    · rename_i hsending
      refine ⟨Or.inl, fun h ↦ h.resolve_right fun hends ↦ ?_⟩
      cases hends with
      | refused _ _ _ hclosed => exact absurd hsending (by simp [hclosed])
    · rename_i hsending
      have hclosed : e.sending = false := Bool.eq_false_iff.2 hsending
      rw [hfinish _ _ _ hpush]
      refine or_congr_right ⟨?_, fun h ↦ ?_⟩
      · rintro ⟨-, rfl, rfl⟩
        exact .refused method params? headers hclosed
      · cases h with
        | refused => exact ⟨List.mem_cons_self, rfl, rfl⟩
  | response r =>
    simp only [step]
    split
    · rename_i hrunning
      refine (hfinish e r.id (.ok r) he).trans (or_congr_right ⟨?_, fun h ↦ ?_⟩)
      · rintro ⟨hpending, rfl, rfl⟩
        exact .answered r hrunning hpending
      · cases h with
        | answered _ _ hpending => exact ⟨hpending, rfl, rfl⟩
    · rename_i hrunning
      refine ⟨Or.inl, fun h ↦ h.resolve_right fun hends ↦ ?_⟩
      cases hends with
      | answered _ hran => exact hrunning hran
  | timeout done millis =>
    refine (hfinish e done _ he).trans (or_congr_right ⟨?_, fun h ↦ ?_⟩)
    · rintro ⟨hpending, rfl, rfl⟩
      exact .timedOut done millis hpending
    · cases h with
      | timedOut _ _ hpending => exact ⟨hpending, rfl, rfl⟩
  | closeOutbound => exact ⟨Or.inl, fun h ↦ h.resolve_right nofun⟩
  | stop =>
    cases hrunning : e.running with
    | false =>
      rw [step, stop, if_neg (by simp [hrunning])]
      refine ⟨Or.inl, fun h ↦ h.resolve_right fun hends ↦ ?_⟩
      cases hends with
      | stopped _ hran => exact absurd (hrunning.symm.trans hran) (by decide)
    | true =>
      rw [step, ending?_stop hrunning]
      by_cases hid : id ∈ e.pending
      · rw [if_pos hid, he.waits id hid]
        refine ⟨fun h ↦ ?_, fun h ↦ ?_⟩
        · cases h
          exact Or.inr (.stopped id hrunning hid)
        · cases h.resolve_left nofun
          rfl
      · rw [if_neg hid]
        refine ⟨Or.inl, fun h ↦ h.resolve_right fun hends ↦ ?_⟩
        cases hends with
        | stopped _ _ hpending => exact hid hpending

/-! ## Runs -/

variable {run : List Event} {i k k' : Nat}

theorem nextId_step : (e.step event).nextId =
    if event.isRequest then e.nextId + 1 else e.nextId := by
  have hfinish : ∀ (e : Engine) (id : UInt64) (ending : RequestEnd),
      (e.finish id ending).nextId = e.nextId := by
    intro e id ending
    unfold finish
    split <;> rfl
  cases event with
  | request method params? headers =>
    simp only [step, request, Event.isRequest, if_true]
    split
    · rfl
    · exact hfinish _ _ _
  | response r =>
    rw [step]
    split
    · exact hfinish _ _ _
    · rfl
  | timeout id millis => exact hfinish _ _ _
  | closeOutbound => rfl
  | stop =>
    rw [step, stop]
    split <;> rfl

/-- The next number counts the requests that were made. -/
theorem nextId_before (run : List Event) (i : Nat) :
    (before run i).nextId = UInt64.ofNat ((run.take i).countP Event.isRequest + 1) := by
  induction i with
  | zero => rfl
  | succ i ih =>
    cases hevent : run[i]? with
    | none =>
      rw [before, stateAt_succ_of_none step _ hevent, ih, List.take_of_length_le,
        List.take_of_length_le] <;>
      · rw [List.getElem?_eq_none_iff] at hevent
        omega
    | some event =>
      obtain ⟨hi, rfl⟩ := List.getElem?_eq_some_iff.1 hevent
      rw [before, stateAt_succ step _ hevent, nextId_step, ih, List.take_succ_eq_append_getElem hi,
        List.countP_append, List.countP_singleton]
      split
      · rw [← UInt64.ofNat_one, ← UInt64.ofNat_add]
      · rw [Nat.add_zero]

theorem isRequest_of_issued (h : Issued run k id) :
    ∃ event, run[k]? = some event ∧ event.isRequest = true ∧ (before run k).nextId = id := by
  obtain ⟨method, params?, headers, hevent, hid⟩ := h
  exact ⟨_, hevent, rfl, hid⟩

theorem issued_of_isRequest (hevent : run[k]? = some event) (hrequest : event.isRequest = true) :
    Issued run k (before run k).nextId := by
  cases event with
  | request method params? headers => exact ⟨method, params?, headers, hevent, rfl⟩
  | _ => cases hrequest

theorem countP_take_lt {event : Event} (hevent : run[k]? = some event)
    (hrequest : event.isRequest = true) (hk : k < i) :
    (run.take k).countP Event.isRequest < (run.take i).countP Event.isRequest := by
  obtain ⟨hlt, rfl⟩ := List.getElem?_eq_some_iff.1 hevent
  have hnext : (run.take (k + 1)).countP Event.isRequest =
      (run.take k).countP Event.isRequest + 1 := by
    rw [List.take_succ_eq_append_getElem hlt, List.countP_append, List.countP_singleton,
      if_pos hrequest]
  have hle := (List.take_sublist_take_left (l := run) (show k + 1 ≤ i from hk)).countP_le
    (p := Event.isRequest)
  omega

/-- As long as numbers do not come round again, no two requests have the same. -/
theorem issued_unique (hfew : run.countP Event.isRequest < UInt64.size) (h : Issued run k id)
    (h' : Issued run k' id) : k = k' := by
  have hlt : ∀ {m n : Nat}, m < n → Issued run m id → ¬ Issued run n id := by
    intro m n hmn hm hn
    obtain ⟨event, hevent, hrequest, hid⟩ := isRequest_of_issued hm
    obtain ⟨event', hevent', hrequest', hid'⟩ := isRequest_of_issued hn
    have hcount := countP_take_lt hevent hrequest hmn
    have hlen : n < run.length := (List.getElem?_eq_some_iff.1 hevent').1
    have htotal := countP_take_lt hevent' hrequest' hlen
    rw [List.take_length] at htotal
    rw [UInt64.size] at hfew
    have heq := congrArg UInt64.toNat (hid.trans hid'.symm)
    rw [nextId_before, nextId_before, UInt64.toNat_ofNat', UInt64.toNat_ofNat',
      Nat.mod_eq_of_lt (by omega), Nat.mod_eq_of_lt (by omega)] at heq
    omega
  rcases Nat.lt_trichotomy k k' with hk | hk | hk
  · exact absurd h' (hlt hk h)
  · exact hk
  · exact absurd h (hlt hk h')

/-- What an engine knows are the numbers of the requests that were made. -/
theorem knows_before_iff (run : List Event) (i : Nat) (id : UInt64) :
    (before run i).Knows id ↔ ∃ k, k < i ∧ Issued run k id := by
  refine (stateAt_iff_exists (Q := fun e : Engine ↦ e.Knows id)
    (R := fun n (event : Event) ↦ event.isRequest = true ∧ (before run n).nextId = id)
    (fun _ _ _ ↦ knows_step) i).trans ⟨fun h ↦ ?_, ?_⟩
  · obtain ⟨k, event, hk, hevent, hrequest, rfl⟩ := h.resolve_left (by simp [Knows, ending?])
    exact ⟨k, hk, issued_of_isRequest hevent hrequest⟩
  · rintro ⟨k, hk, hissued⟩
    obtain ⟨event, hevent, hrequest, hid⟩ := isRequest_of_issued hissued
    exact Or.inr ⟨k, event, hk, hevent, hrequest, hid⟩

theorem fresh_before (hfew : run.countP Event.isRequest < UInt64.size)
    (hevent : run[i]? = some event) (hrequest : event.isRequest = true) : (before run i).Fresh := by
  have hunknown : ¬ (before run i).Knows (before run i).nextId := by
    rw [knows_before_iff]
    rintro ⟨k, hk, hissued⟩
    exact absurd (issued_unique hfew hissued (issued_of_isRequest hevent hrequest))
      (Nat.ne_of_lt hk)
  exact ⟨fun h ↦ hunknown (Or.inl h), Classical.not_not.1 fun h ↦ hunknown (Or.inr h)⟩

theorem sound_before (hfew : run.countP Event.isRequest < UInt64.size) (i : Nat) :
    (before run i).Sound :=
  stateAt_induction (P := fun _ (e : Engine) ↦ e.Sound) (i := 0) sound_create
    (fun _ _ _ hevent he ↦ he.step fun hrequest ↦ fresh_before hfew hevent hrequest)
    (fun _ _ _ he ↦ he) (Nat.zero_le i)

/-- A request has ended in the way in which some event has ended it. -/
theorem ending?_before_iff (hfew : run.countP Event.isRequest < UInt64.size) (i : Nat) :
    (before run i).ending? id = some ending ↔
      ∃ n event, n < i ∧ run[n]? = some event ∧ Ends (before run n) event id ending := by
  refine (stateAt_iff_exists (Q := fun e : Engine ↦ e.ending? id = some ending)
    (R := fun n (event : Event) ↦ Ends (before run n) event id ending)
    (fun n event hevent ↦ ending?_step (sound_before hfew n)
      fun hrequest ↦ fresh_before hfew hevent hrequest) i).trans ?_
  exact ⟨fun h ↦ h.resolve_left nofun, Or.inr⟩

/-- What an event ends has not ended before. -/
theorem Ends.ending?_eq_none (h : Ends e event id ending) (he : e.Sound)
    (hfresh : event.isRequest = true → e.Fresh) : e.ending? id = none := by
  cases h with
  | answered _ _ hpending => exact he.waits _ hpending
  | timedOut _ _ hpending => exact he.waits _ hpending
  | refused => exact (hfresh rfl).2
  | stopped _ _ hpending => exact he.waits _ hpending

theorem Ends.unique {ending' : RequestEnd} (h : Ends e event id ending)
    (h' : Ends e event id ending') : ending = ending' := by
  cases h <;> cases h' <;> rfl

/-- No request is ended twice. -/
theorem ends_once (hfew : run.countP Event.isRequest < UInt64.size) {event' : Event}
    {ending' : RequestEnd} (hevent : run[k]? = some event) (hevent' : run[k']? = some event')
    (h : Ends (before run k) event id ending) (h' : Ends (before run k') event' id ending') :
    k = k' ∧ ending = ending' := by
  have hlt : ∀ {m n : Nat} {event event' : Event} {x x' : RequestEnd}, m < n →
      run[m]? = some event → Ends (before run m) event id x → run[n]? = some event' →
      ¬ Ends (before run n) event' id x' := by
    intro m n event event' x x' hmn hm hends hn hends'
    have hnone := hends'.ending?_eq_none (sound_before hfew n)
      fun hrequest ↦ fresh_before hfew hn hrequest
    have hsome := (ending?_before_iff hfew n).2 ⟨m, event, hmn, hm, hends⟩
    rw [hnone] at hsome
    cases hsome
  rcases Nat.lt_trichotomy k k' with hk | rfl | hk
  · exact absurd h' (hlt hk hevent h hevent')
  · obtain rfl := Option.some.inj (hevent.symm.trans hevent')
    exact ⟨rfl, h.unique h'⟩
  · exact absurd h (hlt hk hevent' h' hevent)

/-- A response ends the request whose number it carries, if that one waits, and no other. -/
theorem Ends.of_response {r : Response} (h : Ends e (.response r) id ending) :
    id = r.id ∧ ending = .ok r ∧ id ∈ e.pending := by
  cases h with
  | answered _ _ hpending => exact ⟨rfl, rfl, hpending⟩

theorem Ends.eq_response {r : Response} (h : Ends e event id (.ok r)) :
    event = .response r ∧ id = r.id ∧ id ∈ e.pending := by
  cases h with
  | answered _ _ hpending => exact ⟨rfl, rfl, hpending⟩

theorem step_response_of_not_mem {r : Response} (h : r.id ∉ e.pending) :
    e.step (.response r) = e := by
  rw [step, respond, finish_of_not_mem h]
  exact ite_self e

/-- Requests that go out and responses that come in are matched one to one, in every run with fewer
requests than there are numbers. No two requests have the same number. What waits is just what was
asked and is not over. A request is over because of one event and in one way, and nothing is over
that was not asked; it is over with a response only if this came under its number while it waited.
A response ends one request at most, and one that nobody waits for changes nothing. When the loop
stops, all that wait are told so, and nobody waits any more. -/
theorem matched_one_to_one (hfew : run.countP Event.isRequest < UInt64.size) :
    (∀ k k' id, Issued run k id → Issued run k' id → k = k') ∧
    (∀ i, (before run i).pending.Nodup ∧ ∀ id, id ∈ (before run i).pending ↔
      (∃ k, k < i ∧ Issued run k id) ∧ (before run i).ending? id = none) ∧
    (∀ i id ending, (before run i).ending? id = some ending ↔
      ∃ n event, n < i ∧ run[n]? = some event ∧ Ends (before run n) event id ending) ∧
    (∀ i id ending, (before run i).ending? id = some ending → ∃ k, k < i ∧ Issued run k id) ∧
    (∀ n n' event event' id ending ending', run[n]? = some event → run[n']? = some event' →
      Ends (before run n) event id ending → Ends (before run n') event' id ending' →
      n = n' ∧ ending = ending') ∧
    (∀ i id r, (before run i).ending? id = some (.ok r) → r.id = id ∧
      ∃ n, n < i ∧ run[n]? = some (.response r) ∧ id ∈ (before run n).pending) ∧
    (∀ n r, run[n]? = some (.response r) →
      (∀ id ending, Ends (before run n) (.response r) id ending → id = r.id ∧ ending = .ok r) ∧
      (r.id ∉ (before run n).pending → before run (n + 1) = before run n)) ∧
    ∀ n, run[n]? = some .stop → (before run n).running = true →
      (∀ id ∈ (before run n).pending,
        (before run (n + 1)).ending? id = some (.error .stopped)) ∧
      (before run (n + 1)).pending = [] := by
  refine ⟨fun k k' id h h' ↦ issued_unique hfew h h', fun i ↦ ⟨(sound_before hfew i).distinct,
    fun id ↦ ?_⟩, fun i id ending ↦ ending?_before_iff hfew i, fun i id ending h ↦ ?_,
    fun n n' event event' id ending ending' hn hn' h h' ↦ ends_once hfew hn hn' h h',
    fun i id r h ↦ ?_, fun n r hn ↦ ⟨fun id ending h ↦ ?_, fun h ↦ ?_⟩,
    fun n hn hrunning ↦ ?_⟩
  · rw [← knows_before_iff]
    refine ⟨fun h ↦ ⟨Or.inl h, (sound_before hfew i).waits id h⟩, ?_⟩
    rintro ⟨hknows, hnone⟩
    exact hknows.resolve_right fun hsome ↦ hsome hnone
  · rw [← knows_before_iff]
    exact Or.inr (by simp [h])
  · obtain ⟨n, event, hn, hevent, hends⟩ := (ending?_before_iff hfew i).1 h
    obtain ⟨rfl, hid, hpending⟩ := hends.eq_response
    exact ⟨hid.symm, n, hn, hevent, hpending⟩
  · obtain ⟨hid, hending, -⟩ := h.of_response
    exact ⟨hid, hending⟩
  · rw [before, stateAt_succ step _ hn, step_response_of_not_mem h]
  · have hnext : before run (n + 1) = (before run n).stop := stateAt_succ step _ hn
    rw [hnext]
    refine ⟨fun id hid ↦ ?_, List.eq_nil_iff_forall_not_mem.2 fun id ↦ mem_pending_stop hrunning⟩
    exact (ending?_stop hrunning).trans (if_pos hid)

/-- Of four requests one is answered, though a stranger is answered before and it is answered twice,
one is too late for its answer, one cannot leave, and one still waits when the loop stops. -/
theorem matched_one_to_one_fourWays :
    let run : List Event := [.request "a" none .empty, .request "b" none .empty,
      .request "c" none .empty, .response ⟨9, none, none⟩, .response ⟨2, some .null, none⟩,
      .response ⟨2, none, none⟩, .timeout 1 20, .response ⟨1, none, none⟩, .closeOutbound,
      .request "d" none .empty, .stop]
    run.countP Event.isRequest < UInt64.size ∧
      (before run 11).ending? 1 = some (.error (.timeout 20)) ∧
      (before run 11).ending? 2 = some (.ok ⟨2, some .null, none⟩) ∧
      (before run 11).ending? 3 = some (.error .stopped) ∧
      (before run 11).ending? 4 = some (.error .send) := by
  intro run
  have hfew : run.countP Event.isRequest < UInt64.size := by decide
  obtain ⟨-, -, hends, -, -, -, -, hstop⟩ := matched_one_to_one hfew
  refine ⟨hfew, (hends 11 1 _).2 ⟨6, _, by decide, rfl, .timedOut 1 20 ?_⟩,
    (hends 11 2 _).2 ⟨4, _, by decide, rfl, .answered ⟨2, some .null, none⟩ rfl ?_⟩,
    (hstop 10 rfl rfl).1 3 ?_, (hends 11 4 _).2 ⟨9, _, by decide, rfl, .refused _ _ _ rfl⟩⟩
  · decide
  · decide
  · decide

end Depot.Rpc.Engine
