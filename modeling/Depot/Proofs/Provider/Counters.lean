import Depot.Proofs.Memory.Counter
import Depot.Proofs.Provider.Calls

/-!
# Counters lose no increment

An increment over a live connection adds to what its key counts, unless a lock holds it off or the
key holds no counter (`adds_increment`). As long as all that happens to the key is that it is
incremented, read, locked and unlocked (`Tame`), one event after another leaves it standing at what
it held at the start and the deltas of the increments that were answered (`stands_step`). So each
increment in a run of a service is answered with the sum of all of them so far
(`increments_add_up`), whoever asked for them and whatever else was going on.
-/

set_option autoImplicit false
set_option relaxedAutoImplicit false

namespace Depot

open Memory

/-- The request was answered with a result, and the result is no error. -/
def Rpc.Response.succeeds (r : Rpc.Response) : Bool := (r.result?.bind (·.get? "ok")).isSome

namespace Provider

variable {policy : Policy} {tokens : Nat → String} {p : Provider Store Collection}
  {e : Event Store Collection} {place : Place} {q : Rpc.Request} {now : Nat} {bucket : String}
  {delta : UInt64}

/-- What an event adds to a key: the delta, if it is an increment of this key that is answered. -/
def Event.adds? (g : Ground Store Collection) (place : Place) (p : Provider Store Collection) :
    Event Store Collection → Option UInt64
  | .request q now =>
    match p.addressed? q with
    | some (.live k, .keyValue (.increment _ key delta)) =>
      if (⟨k, key⟩ : Place) = place ∧ ((handler g now).onRequest q p).1.succeeds then some delta
      else none
    | _ => none
  | _ => none

/-- Whatever the event does to the key, it increments, reads, locks or unlocks it. -/
def Event.Tame (policy : Policy) (tokens : Nat → String) (place : Place)
    (p : Provider Store Collection) (e : Event Store Collection) : Prop :=
  (e.adds? ⟨backend policy, tokens⟩ place p).isSome = true ∨
    ∀ done, e.done? policy p = some done → done.place = place → done.deed.spares = true

/-- What an increment of a key comes to that counts `n?`. -/
structure Adds (g : Ground Store Collection) (now : Nat) (p : Provider Store Collection)
    (place : Place) (q : Rpc.Request) (delta : UInt64) (n? : Option UInt64) : Prop where
  locked : ∀ e, p.store.live? place now = some e → e.LockedAt now →
    Gets g now p q (Wire.tagged "err" (StoreError.other "document-locked").toJson) ∧
      afterRequest g now p q = p
  counted : (∀ e, p.store.live? place now = some e → ¬ e.LockedAt now) →
    ∀ n, n? = some n → Gets g now p q (Wire.tagged "ok" (.ofUInt64 (n + delta))) ∧
      ∃ cas, (afterRequest g now p q).store.document? place =
        some ⟨Text.digitBytes (n + delta).toNat, cas, none, none⟩
  refused : (∀ e, p.store.live? place now = some e → ¬ e.LockedAt now) → n? = none →
    Gets g now p q (Wire.tagged "err" (StoreError.other "invalid-argument").toJson) ∧
      afterRequest g now p q = p

theorem adds_increment (policy : Policy) (tokens : Nat → String) (hgrounded : p.Grounded)
    (hq : Addresses p (.live place.collection) q (.keyValue (.increment bucket place.id delta)))
    (now : Nat) : Adds ⟨backend policy, tokens⟩ now p place q delta
      (count? now (p.store.document? place)) := by
  obtain ⟨b, hb⟩ := hgrounded.bucket hq.2
  have hdocument : p.store.document? place = b.documents.get? place.location := by
    rw [Store.document?, Place.site, hb]
    rfl
  rw [hdocument]
  refine ⟨fun e he hlocked ↦ ?_, fun hunlocked n hn ↦ ?_, fun hunlocked hn ↦ ?_⟩
  · rw [Store.live?_of_bucket hb] at he
    exact refused_of_lockedAt hq rfl hb he hlocked
  · simp only [Store.live?_of_bucket hb] at hunlocked
    have hperform := Store.perform_of_step (p := policy) (Store.step_of_ok hb
      (Bucket.step_increment_of_some delta hunlocked hn))
    rw [gets_iff hq, afterRequest_eq hq, serveCaller]
    unfold keyValue KeyValue.Operation.run
    simp only [hperform]
    refine ⟨rfl, b.nextCas, ?_⟩
    change Store.document? (p.store.insert place.site _) place = _
    rw [Store.document?_insert, if_pos rfl]
    exact Table.get?_insert_self _ _ _
  · simp only [Store.live?_of_bucket hb] at hunlocked
    have hstep := Bucket.step_increment_of_none delta hunlocked hn
    rw [gets_iff hq, afterRequest_eq hq, serveCaller,
      keyValue_of_refused policy tokens rfl rfl hb hstep (by decide)]
    exact ⟨rfl, rfl⟩

/-! ## One event after another -/

theorem Gets.not_succeeds {g : Ground Store Collection} {j : Json}
    (h : Gets g now p q (Wire.tagged "err" j)) :
    ((handler g now).onRequest q p).1.succeeds = false := by
  rw [h]
  rfl

theorem exists_of_adds? {g : Ground Store Collection} (h : e.adds? g place p = some delta) :
    ∃ q now bucket, e = .request q now ∧
      Addresses p (.live place.collection) q (.keyValue (.increment bucket place.id delta)) ∧
      ((handler g now).onRequest q p).1.succeeds = true := by
  cases e with
  | request q now =>
    rw [Event.adds?] at h
    split at h
    · rename_i k bucket key delta' haddressed
      split at h
      · rename_i hif
        obtain ⟨rfl, hsucceeds⟩ := hif
        obtain rfl := Option.some.inj h
        exact ⟨q, now, bucket, rfl, addressed?_eq_some_iff.1 haddressed, hsucceeds⟩
      · contradiction
    · contradiction
  | _ => contradiction

variable {times : Nat → Prop} {start? : Option UInt64} {gains : List UInt64}

/-- An increment that is answered has found a counter, and leaves what it answers. -/
theorem stands_of_adds (hgrounded : p.Grounded)
    (hq : Addresses p (.live place.collection) q (.keyValue (.increment bucket place.id delta)))
    (hsucceeds :
      ((handler ⟨backend policy, tokens⟩ now).onRequest q p).1.succeeds = true)
    (hnow : gains = [] → times now) (h : Stands (p.store.document? place) times start? gains) :
    Stands ((afterRequest ⟨backend policy, tokens⟩ now p q).store.document? place) times start?
      (gains ++ [delta]) := by
  have hadds := adds_increment policy tokens hgrounded hq now
  rw [h.count now hnow] at hadds
  by_cases hlocked : ∃ e, p.store.live? place now = some e ∧ e.LockedAt now
  · obtain ⟨e, he, hlocked⟩ := hlocked
    rw [(hadds.locked e he hlocked).1.not_succeeds] at hsucceeds
    contradiction
  · have hunlocked : ∀ e, p.store.live? place now = some e → ¬ e.LockedAt now :=
      fun e he hyes ↦ hlocked ⟨e, he, hyes⟩
    cases start? with
    | none =>
      rw [(hadds.refused hunlocked rfl).1.not_succeeds] at hsucceeds
      contradiction
    | some n =>
      obtain ⟨-, cas, hdocument⟩ := hadds.counted hunlocked _ rfl
      rw [hdocument]
      exact Stands.apply_wrote delta cas now none

/-- Whatever happens that is tame, the key stands at what it held and all that was added. -/
theorem stands_step (hgrounded : p.Grounded) (hown : ∀ s, e = .store s → s = p.store)
    (htimes : ∀ q now, e = .request q now → gains = [] → times now)
    (htame : e.Tame policy tokens place p)
    (h : Stands (p.store.document? place) times start? gains) :
    Stands ((p.step ⟨backend policy, tokens⟩ e).store.document? place) times start?
      (gains ++ (e.adds? ⟨backend policy, tokens⟩ place p).toList) := by
  cases hadds : e.adds? ⟨backend policy, tokens⟩ place p with
  | some delta =>
    obtain ⟨q, now, bucket, rfl, hq, hsucceeds⟩ := exists_of_adds? hadds
    exact stands_of_adds hgrounded hq hsucceeds (htimes q now rfl) h
  | none =>
    have hspares : ∀ done, e.done? policy p = some done → done.place = place →
        done.deed.spares = true := by
      rcases htame with hsome | hspares
      · rw [hadds] at hsome
        contradiction
      · exact hspares
    rw [document?_step policy tokens hown, Option.toList_none, List.append_nil]
    cases hdone : e.done? policy p with
    | none => exact h
    | some done =>
      change Stands (Memory.Event.apply place (p.store.document? place) done) times start? gains
      unfold Memory.Event.apply
      split
      · rename_i hat
        exact h.apply_of_spares (hspares done hdone hat)
      · exact h

/-- A request to count up a key. -/
def incrementRequest (id delta : UInt64) : Rpc.Request :=
  ⟨id, "keyvalue.atomics.increment", some (.object [("bucket", .text "b"),
    ("delta", .ofUInt64 delta), ("key", .text "a")]), callerHeaders⟩

end Provider

/-! ## Runs -/

namespace Service

open Provider (Addresses Adds create)

def Event.now : Event → Nat
  | inbound _ now => now
  | proceed _ now => now
  | work _ now => now
  | sweep _ now => now

variable {σ κ : Type}

theorem now_of_seen {s : Service σ κ} {event : Event} {q : Rpc.Request} {now : Nat}
    (h : s.seen event = .request q now) : event.now = now := by
  cases event with
  | proceed n now' =>
    rw [seen] at h
    split at h
    · exact (Provider.Event.request.inj h).2
    · contradiction
  | _ => contradiction

/-- What is added to a key in so many steps of a run from step `i` on, in order. -/
def gained (g : Ground Store Collection) (place : Place) (s : Service Store Collection)
    (run : List Event) (i : Nat) : Nat → List UInt64
  | 0 => []
  | m + 1 =>
    let found := before g s run (i + m)
    gained g place s run i m ++
      (run[i + m]?.bind fun event ↦ (found.seen event).adds? g place found.provider).toList

/-- The times of what happens in a run from step `i` on, as long as nothing was added to a key. -/
def TimesUncounted (g : Ground Store Collection) (place : Place) (s : Service Store Collection)
    (run : List Event) (i : Nat) (t : Nat) : Prop :=
  ∃ (m : Nat) (event : Event), run[i + m]? = some event ∧ gained g place s run i m = [] ∧
    event.now = t

/-- In a run all that happens to a key from step `i` on is tame. -/
def TameFrom (policy : Policy) (tokens : Nat → String) (place : Place)
    (s : Service Store Collection) (run : List Event) (i : Nat) : Prop :=
  ∀ (j : Nat) (event : Event), i ≤ j → run[j]? = some event →
    let found := before ⟨backend policy, tokens⟩ s run j
    (found.seen event).Tame policy tokens place found.provider

theorem stands_before (policy : Policy) (tokens : Nat → String) {s : Service Store Collection}
    {run : List Event} {i : Nat} {place : Place} {start? : Option UInt64}
    (hgrounded : ∀ j, (before ⟨backend policy, tokens⟩ s run j).provider.Grounded)
    (hstart : Holds ((before ⟨backend policy, tokens⟩ s run i).provider.store.document? place)
      (TimesUncounted ⟨backend policy, tokens⟩ place s run i) start?)
    (htame : TameFrom policy tokens place s run i) (m : Nat) :
    Stands ((before ⟨backend policy, tokens⟩ s run (i + m)).provider.store.document? place)
      (TimesUncounted ⟨backend policy, tokens⟩ place s run i) start?
      (gained ⟨backend policy, tokens⟩ place s run i m) := by
  induction m with
  | zero => exact hstart.stands
  | succ m ih =>
    rw [gained, before, ← Nat.add_assoc]
    cases hevent : run[i + m]? with
    | none =>
      rw [stateAt_succ_of_none _ _ hevent, Option.bind_none, Option.toList_none, List.append_nil]
      exact ih
    | some event =>
      rw [stateAt_succ _ _ hevent, provider_step, Option.bind_some]
      refine Provider.stands_step (hgrounded (i + m)) (fun _ ↦ store_of_seen) ?_
        (htame (i + m) event (Nat.le_add_right i m) hevent) ih
      intro q now hseen hnil
      exact ⟨m, event, hevent, hnil, now_of_seen hseen⟩

/-- Counters lose no increment. Take any run of a service on a new store, and a key in it to which
from some step on nothing else happens than that it is incremented, read, locked and unlocked, by
whomever; what it held does not expire before it is counted up. If it held nothing, or a numeral in
blanks, then each increment of it that is not held off by a lock is answered with the sum of the
number that it held, or zero, and of the deltas of all increments that were answered so far, modulo
two to the 64; and then the key holds the decimal digits of this sum. If it held anything else, each
increment fails and changes nothing, and so does each that is held off by a lock. -/
theorem increments_add_up (policy : Policy) (tokens : Nat → String) (engine : Rpc.Engine)
    (settings : Settings) (run : List Event) (i : Nat) (place : Place) {start? : Option UInt64} :
    let g : Ground Store Collection := ⟨backend policy, tokens⟩
    let s := idle engine (create settings .empty)
    Holds ((before g s run i).provider.store.document? place) (TimesUncounted g place s run i)
        start? →
      TameFrom policy tokens place s run i →
      (∀ m, Stands ((before g s run (i + m)).provider.store.document? place)
        (TimesUncounted g place s run i) start? (gained g place s run i m)) ∧
      ∀ m n now q bucket delta, run[i + m]? = some (.proceed n now) →
        (before g s run (i + m)).errands[n]? = some ⟨q, none⟩ →
        Addresses (before g s run (i + m)).provider (.live place.collection) q
          (.keyValue (.increment bucket place.id delta)) →
        Adds g now (before g s run (i + m)).provider place q delta
          (start?.map (total · (gained g place s run i m))) := by
  intro g s hstart htame
  have hgrounded : ∀ j, (before g s run j).provider.Grounded :=
    Provider.grounded_before policy tokens engine settings run
  have hstands := stands_before policy tokens hgrounded hstart htame
  refine ⟨hstands, fun m n now q bucket delta hevent _ hq ↦ ?_⟩
  have hnow : gained g place s run i m = [] → TimesUncounted g place s run i now :=
    fun hnil ↦ ⟨m, _, hevent, hnil, rfl⟩
  rw [← (hstands m).count now hnow]
  exact Provider.adds_increment policy tokens (hgrounded (i + m)) hq now

/-- A caller is linked and counts up a key that it has not used: by nine, and then by as much as
goes around to eight. -/
def countRun : List Event :=
  [.inbound (.request Provider.linkRequest) 0, .proceed 0 0, .proceed 0 0,
    .inbound (.request (Provider.incrementRequest 2 9)) 1,
    .inbound (.request (Provider.incrementRequest 3 18446744073709551615)) 1,
    .proceed 0 1, .proceed 1 2]

theorem increments_add_up_countRun :
    let g : Ground Store Collection := ⟨backend {}, fun _ ↦ ""⟩
    let s := idle {} (create {} .empty)
    let place : Place := ⟨⟨⟨"h", "b"⟩, .default⟩, "a"⟩
    Holds ((before g s countRun 3).provider.store.document? place)
        (TimesUncounted g place s countRun 3) (some 0) ∧
      TameFrom {} (fun _ ↦ "") place s countRun 3 ∧
      gained g place s countRun 3 4 = [9, 18446744073709551615] ∧
      Provider.Gets g 2 (before g s countRun 6).provider
        (Provider.incrementRequest 3 18446744073709551615) (Wire.tagged "ok" (.ofUInt64 8)) ∧
      ((before g s countRun 7).provider.store.document? place).map Entry.content = some [56] := by
  intro g s place
  have hstart : Holds ((before g s countRun 3).provider.store.document? place)
      (TimesUncounted g place s countRun 3) (some 0) := .absent nofun
  have htame : TameFrom {} (fun _ ↦ "") place s countRun 3 := by
    intro j event hj hevent
    obtain ⟨hlength, rfl⟩ := List.getElem?_eq_some_iff.1 hevent
    have hsteps : j = 3 ∨ j = 4 ∨ j = 5 ∨ j = 6 := by
      change j < 7 at hlength
      omega
    rcases hsteps with rfl | rfl | rfl | rfl
    · exact .inr nofun
    · exact .inr nofun
    · exact .inl rfl
    · exact .inl rfl
  have hq : Addresses (before g s countRun 6).provider (.live place.collection)
      (Provider.incrementRequest 3 18446744073709551615)
      (.keyValue (.increment "b" place.id 18446744073709551615)) :=
    Provider.addressed?_eq_some_iff.1 rfl
  obtain ⟨hstands, hadds⟩ := increments_add_up {} (fun _ ↦ "") {} {} countRun 3 place hstart htame
  have hunlocked : ∀ e, (before g s countRun 6).provider.store.live? place 2 = some e →
      ¬ e.LockedAt 2 := by
    rintro e ⟨⟩
    exact Entry.isLocked_eq_false_iff.1 rfl
  have hcounted := (hadds 3 1 2 _ _ _ rfl rfl hq).counted hunlocked 9 rfl
  have hgained : gained g place s countRun 3 4 = [9, 18446744073709551615] := rfl
  have hcontent := (hstands 4).content (List.cons_ne_nil _ _) 0 rfl
  have hdigits : Text.digitBytes (total 0 [9, 18446744073709551615]).toNat = [56] := rfl
  rw [hgained, hdigits] at hcontent
  exact ⟨hstart, htame, hgained, hcounted.1, hcontent⟩

end Service
end Depot
