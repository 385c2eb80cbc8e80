import Depot.Deferred
import Depot.Proofs.Run
import Depot.Uuid

/-!
# Results, workers and those who fetch

An `Office` is a registry of results with everybody who has to do with it. Every handle that was
issued has a `Worker`, which moves in steps of its own: it puts the value down, notes the time and
publishes, or ends without a value. Whoever fetches may look first and take later, and others come
in between. An `Event` is one step of somebody, and any list of events is a run. An office that
began with nothing is `Sound` after every step (`Sound.step`): what a registry shows of a task is
what its worker has done so far, and nobody takes a task whose worker still needs it.
-/

set_option autoImplicit false
set_option relaxedAutoImplicit false

namespace Depot.Deferred

variable {α : Type}

/-- Where a worker stands: its work goes on, its value is put down, the time is noted as well, or
all is over, with a value that was published or without one. -/
inductive Worker (α : Type) where
  | working
  | deposited (value : α)
  | stamped (value : α)
  | ended (value? : Option α)

namespace Worker

/-- Where a worker stands after its next step; the work comes back with a value, or does not. -/
def next (value? : Option α) : Worker α → Worker α
  | working =>
    match value? with
    | some value => deposited value
    | none => ended none
  | deposited value => stamped value
  | stamped value => ended (some value)
  | ended value? => ended value?

/-- What a worker does to the registry in its next step. -/
def act (handle : String) (value? : Option α) (now : Nat) : Worker α → Deferred α → Deferred α
  | working, d =>
    match value? with
    | some value => d.update handle (.deposit value)
    | none => d.abandon handle
  | deposited _, d => d.update handle (.stamp now)
  | stamped _, d => d.update handle .publish
  | ended _, d => d

/-- What can be seen of a task whose worker stands here. -/
inductive Shows : Worker α → Task α → Prop
  | working : Shows working {}
  | deposited (value : α) : Shows (deposited value) ⟨some value, none, false⟩
  | stamped (value : α) (since : Nat) : Shows (stamped value) ⟨some value, some since, false⟩
  | ended (value : α) (since : Nat) : Shows (ended (some value)) ⟨some value, some since, true⟩

variable {w : Worker α} {t : Task α} {d : Deferred α} {handle other : String}

/-- A result is ready only when its worker is over. -/
theorem Shows.ready_eq_false (h : w.Shows t) (hover : ∀ value?, w ≠ .ended value?) :
    t.ready = false := by
  cases h with
  | ended value since => exact absurd rfl (hover (some value))
  | _ => rfl

/-- A step of a worker shows in its own task, which is gone if the work ended without a value. -/
theorem Shows.act (h : w.Shows t) (htask : d.tasks.get? handle = some t) (value? : Option α)
    (now : Nat) :
    (∃ t', (w.act handle value? now d).tasks.get? handle = some t' ∧ (w.next value?).Shows t') ∨
      w.next value? = .ended none ∧ (w.act handle value? now d).tasks.get? handle = none := by
  cases h with
  | working =>
    cases value? with
    | none => exact Or.inr ⟨rfl, by simp [Worker.act, get?_abandon]⟩
    | some value =>
      refine Or.inl ⟨_, ?_, .deposited value⟩
      simp [Worker.act, get?_update, htask, Task.deposit]
  | deposited value =>
    refine Or.inl ⟨_, ?_, .stamped value now⟩
    simp [Worker.act, get?_update, htask, Task.stamp]
  | stamped value since =>
    refine Or.inl ⟨_, ?_, .ended value since⟩
    simp [Worker.act, get?_update, htask, Task.publish]
  | ended value since => exact Or.inl ⟨_, htask, .ended value since⟩

theorem get?_act_of_ne (hne : handle ≠ other) (value? : Option α) (now : Nat) :
    (w.act handle value? now d).tasks.get? other = d.tasks.get? other := by
  cases w with
  | working =>
    cases value? with
    | none => exact (get?_abandon d handle other).trans (if_neg hne)
    | some value => exact (get?_update d handle other _).trans (if_neg hne)
  | deposited value => exact (get?_update d handle other _).trans (if_neg hne)
  | stamped value => exact (get?_update d handle other _).trans (if_neg hne)
  | ended value? => rfl

end Worker

/-- A registry of results with all who have to do with it. -/
structure Office (α : Type) where
  results : Deferred α
  /-- The worker of every handle that was issued. -/
  workers : Table String (Worker α)
  /-- The handles in the order in which they were issued. -/
  issued : List String
  /-- The handles under which somebody has seen a result, and has not taken it yet. -/
  reaching : List String

/-- A step of somebody. -/
inductive Event (α : Type) where
  | submit (label token : String)
  /-- The worker of a handle moves on; the value counts when its work comes back, the time when it
  notes it. -/
  | work (handle : String) (value? : Option α) (now : Nat)
  | isReady (handle : String)
  | fetch (handle : String)
  /-- The first half of a fetch, which asks whether there is a result. -/
  | look (handle : String)
  /-- The second half of a fetch whose first half has seen a result. -/
  | take (handle : String)
  | evict (ttl now : Nat)

/-- The handle that an event is about; a sweep is about all of them. -/
def Event.handle? : Event α → Option String
  | submit label token => some (Deferred.handle label token)
  | work handle _ _ => some handle
  | isReady handle => some handle
  | fetch handle => some handle
  | look handle => some handle
  | take handle => some handle
  | evict _ _ => none

/-- The token that was drawn for a handle. -/
def Event.token? : Event α → Option String
  | submit _ token => some token
  | _ => none

namespace Office

def empty : Office α := ⟨.empty, .empty, [], []⟩

def step (o : Office α) : Event α → Office α
  | .submit label token =>
    let handle := Deferred.handle label token
    { o with
      results := o.results.submit handle
      workers := o.workers.insert handle .working
      issued := o.issued ++ [handle] }
  | .work handle value? now =>
    match o.workers.get? handle with
    | none => o
    | some w => { o with
        results := w.act handle value? now o.results
        workers := o.workers.insert handle (w.next value?) }
  | .isReady _ => o
  | .fetch handle => { o with results := (o.results.fetch handle).2 }
  | .look handle =>
    match o.results.isReady handle with
    | .ok true => { o with reaching := handle :: o.reaching }
    | _ => o
  | .take handle =>
    if handle ∈ o.reaching then
      { o with results := (o.results.take handle).2, reaching := o.reaching.erase handle }
    else o
  | .evict ttl now => { o with results := o.results.evict ttl now }

/-- The office that step `i` of a run finds. -/
abbrev before (run : List (Event α)) (i : Nat) : Office α := stateAt step empty run i

/-- What can be seen of every task is what its worker has done, and a task whose worker still needs
it is there. -/
structure Sound (o : Office α) : Prop where
  distinct : o.issued.Nodup
  worker : ∀ handle, handle ∈ o.issued ↔ ∃ w, o.workers.get? handle = some w
  shown : ∀ handle t, o.results.tasks.get? handle = some t →
    ∃ w, o.workers.get? handle = some w ∧ w.Shows t
  kept : ∀ handle w, o.workers.get? handle = some w → (∀ value?, w ≠ .ended value?) →
    ∃ t, o.results.tasks.get? handle = some t
  reached : ∀ handle ∈ o.reaching, ∃ value, o.workers.get? handle = some (.ended (some value))

variable {o : Office α} {handle other : String}

theorem sound_empty : (empty : Office α).Sound where
  distinct := List.nodup_nil
  worker _ := ⟨nofun, nofun⟩
  shown _ _ h := nomatch h
  kept _ _ h := nomatch h
  reached _ h := nomatch h

/-! ## Where a handle stands -/

/-- What becomes of a handle: first nobody has it, then its work runs, then its result waits, and in
the end there is nothing behind it. -/
inductive Phase where
  | unknown
  | running
  | finished
  | gone
  deriving DecidableEq, Repr

/-- Where a handle stands: its work runs until its worker is over, and then there is a result until
somebody takes it away. -/
def phase (o : Office α) (handle : String) : Phase :=
  match o.workers.get? handle with
  | none => .unknown
  | some (.ended _) => if o.results.tasks.contains handle then .finished else .gone
  | some _ => .running

/-- What the registry has of a handle that stands here. -/
inductive View (o : Office α) (handle : String) : Phase → Prop
  | unknown (hworker : o.workers.get? handle = none)
      (htask : o.results.tasks.get? handle = none) : View o handle .unknown
  | running (w : Worker α) (t : Task α) (hworker : o.workers.get? handle = some w)
      (htask : o.results.tasks.get? handle = some t) (hshows : w.Shows t)
      (hready : t.ready = false) (hover : ∀ value?, w ≠ .ended value?) : View o handle .running
  | finished (value : α) (since : Nat) (hworker : o.workers.get? handle = some (.ended (some value)))
      (htask : o.results.tasks.get? handle = some ⟨some value, some since, true⟩) :
      View o handle .finished
  | gone (value? : Option α) (hworker : o.workers.get? handle = some (.ended value?))
      (htask : o.results.tasks.get? handle = none) : View o handle .gone

theorem phase_of_not_ended {w : Worker α} (hworker : o.workers.get? handle = some w)
    (hover : ∀ value?, w ≠ .ended value?) : o.phase handle = .running := by
  rw [phase, hworker]
  cases w with
  | ended value? => exact absurd rfl (hover value?)
  | _ => rfl

theorem phase_of_ended {value? : Option α}
    (hworker : o.workers.get? handle = some (.ended value?)) :
    o.phase handle = if o.results.tasks.contains handle then .finished else .gone := by
  rw [phase, hworker]

theorem Sound.view (ho : o.Sound) (handle : String) : o.View handle (o.phase handle) := by
  cases hworker : o.workers.get? handle with
  | none =>
    rw [phase, hworker]
    refine .unknown hworker ?_
    cases htask : o.results.tasks.get? handle with
    | none => rfl
    | some t =>
      obtain ⟨w, hw, _⟩ := ho.shown handle t htask
      rw [hworker] at hw
      cases hw
  | some w =>
    by_cases hover : ∃ value?, w = .ended value?
    · obtain ⟨value?, rfl⟩ := hover
      rw [phase_of_ended hworker, Table.contains]
      cases htask : o.results.tasks.get? handle with
      | none => exact .gone value? hworker htask
      | some t =>
        obtain ⟨w, hw, hshows⟩ := ho.shown handle t htask
        obtain rfl := Option.some.inj (hworker.symm.trans hw)
        cases hshows with
        | ended value since => exact .finished value since hworker htask
    · have hnot : ∀ value?, w ≠ .ended value? := fun value? h ↦ hover ⟨value?, h⟩
      obtain ⟨t, htask⟩ := ho.kept handle w hworker hnot
      obtain ⟨w', hw', hshows⟩ := ho.shown handle t htask
      obtain rfl := Option.some.inj (hworker.symm.trans hw')
      rw [phase_of_not_ended hworker hnot]
      exact .running w t hworker htask hshows (hshows.ready_eq_false hnot) hnot

/-- There is nothing under a handle that was never issued. -/
theorem Sound.get?_of_not_mem (ho : o.Sound) (h : handle ∉ o.issued) :
    o.workers.get? handle = none ∧ o.results.tasks.get? handle = none := by
  obtain ⟨_, hview⟩ : ∃ phase, o.View handle phase := ⟨_, ho.view handle⟩
  cases hview with
  | unknown hworker htask => exact ⟨hworker, htask⟩
  | running _ _ hworker => exact absurd ((ho.worker _).2 ⟨_, hworker⟩) h
  | finished _ _ hworker => exact absurd ((ho.worker _).2 ⟨_, hworker⟩) h
  | gone _ hworker => exact absurd ((ho.worker _).2 ⟨_, hworker⟩) h

/-! ## Steps -/

/-- The registry lost nothing that a worker still needs. -/
theorem Sound.of_kept (ho : o.Sound) {d : Deferred α} {keep : String → Task α → Prop}
    (hget : ∀ handle t, d.tasks.get? handle = some t ↔
      o.results.tasks.get? handle = some t ∧ keep handle t)
    (hkeep : ∀ handle t, o.results.tasks.get? handle = some t → t.ready = false → keep handle t) :
    ({ o with results := d } : Office α).Sound where
  distinct := ho.distinct
  worker := ho.worker
  shown handle t h := ho.shown handle t ((hget handle t).1 h).1
  kept handle w hworker hover := by
    obtain ⟨t, ht⟩ := ho.kept handle w hworker hover
    obtain ⟨w', hw', hshows⟩ := ho.shown handle t ht
    obtain rfl := Option.some.inj (hworker.symm.trans hw')
    exact ⟨t, (hget handle t).2 ⟨ht, hkeep handle t ht (hshows.ready_eq_false hover)⟩⟩
  reached := ho.reached

/-- One worker moved, and its task with it; nothing else changed. -/
theorem Sound.of_worker (ho : o.Sound) {o' : Office α} {w : Worker α}
    (hdistinct : o'.issued.Nodup)
    (hissued : ∀ other, other ∈ o'.issued ↔ other = handle ∨ other ∈ o.issued)
    (hworkers : o'.workers = o.workers.insert handle w)
    (htasks : ∀ other, handle ≠ other →
      o'.results.tasks.get? other = o.results.tasks.get? other)
    (htask : (∃ t, o'.results.tasks.get? handle = some t ∧ w.Shows t) ∨
      w = .ended none ∧ o'.results.tasks.get? handle = none)
    (hreaching : o'.reaching = o.reaching)
    (hover : ∀ value, o.workers.get? handle ≠ some (.ended (some value))) : o'.Sound := by
  have hself : o'.workers.get? handle = some w := by
    rw [hworkers]
    exact Table.get?_insert_self _ _ _
  have hother : ∀ {other}, handle ≠ other → o'.workers.get? other = o.workers.get? other := by
    intro other hne
    rw [hworkers]
    exact Table.get?_insert_of_ne _ hne _
  constructor
  · exact hdistinct
  · intro other
    rw [hissued]
    by_cases hne : handle = other
    · subst hne
      exact ⟨fun _ ↦ ⟨w, hself⟩, fun _ ↦ Or.inl rfl⟩
    · rw [hother hne, ← ho.worker]
      exact ⟨fun h ↦ h.resolve_left (Ne.symm hne), Or.inr⟩
  · intro other t ht
    by_cases hne : handle = other
    · subst hne
      rcases htask with ⟨t', ht', hshows⟩ | ⟨_, hnone⟩
      · obtain rfl := Option.some.inj (ht'.symm.trans ht)
        exact ⟨w, hself, hshows⟩
      · rw [hnone] at ht
        cases ht
    · rw [hother hne]
      exact ho.shown other t ((htasks other hne).symm.trans ht)
  · intro other w' hw' hnot
    by_cases hne : handle = other
    · subst hne
      obtain rfl := Option.some.inj (hself.symm.trans hw')
      rcases htask with ⟨t, ht, _⟩ | ⟨hnone, _⟩
      · exact ⟨t, ht⟩
      · exact absurd hnone (hnot none)
    · rw [htasks other hne]
      exact ho.kept other w' ((hother hne).symm.trans hw') hnot
  · intro other hmem
    rw [hreaching] at hmem
    obtain ⟨value, hw'⟩ := ho.reached other hmem
    have hne : handle ≠ other := by
      rintro rfl
      exact hover value hw'
    exact ⟨value, (hother hne).trans hw'⟩

/-- Whoever is new has a worker that begins. -/
theorem Sound.submit (ho : o.Sound) {label token : String}
    (hfresh : Deferred.handle label token ∉ o.issued) :
    (o.step (.submit label token)).Sound := by
  have hdistinct : (o.issued ++ [Deferred.handle label token]).Nodup := by
    refine List.nodup_append.2 ⟨ho.distinct, by simp, fun a ha b hb heq ↦ hfresh ?_⟩
    rwa [← List.mem_singleton.1 hb, ← heq]
  refine ho.of_worker (w := .working) hdistinct (fun other ↦ ?_) rfl (fun other hne ↦ ?_)
    (Or.inl ⟨{}, ?_, .working⟩) rfl fun value hworker ↦ ?_
  · change other ∈ o.issued ++ [_] ↔ _
    rw [List.mem_append, List.mem_singleton, or_comm]
  · exact (get?_submit _ _ _).trans (if_neg hne)
  · exact (get?_submit _ _ _).trans (if_pos rfl)
  · exact hfresh ((ho.worker _).2 ⟨_, hworker⟩)

theorem step_work_of_ended {result? : Option α}
    (hworker : o.workers.get? handle = some (.ended result?)) (value? : Option α) (now : Nat) :
    o.step (.work handle value? now) = o := by
  simp only [step, hworker, Worker.next, Worker.act, Table.insert_of_get? hworker]

theorem step_work {w : Worker α} (hworker : o.workers.get? handle = some w) (value? : Option α)
    (now : Nat) : o.step (.work handle value? now) = { o with
      results := w.act handle value? now o.results
      workers := o.workers.insert handle (w.next value?) } := by
  simp only [step, hworker]

theorem Sound.work (ho : o.Sound) (handle : String) (value? : Option α) (now : Nat) :
    (o.step (.work handle value? now)).Sound := by
  obtain ⟨_, hview⟩ : ∃ phase, o.View handle phase := ⟨_, ho.view handle⟩
  cases hview with
  | unknown hworker =>
    simp only [Office.step, hworker]
    exact ho
  | finished value since hworker =>
    rw [step_work_of_ended hworker]
    exact ho
  | gone result? hworker =>
    rw [step_work_of_ended hworker]
    exact ho
  | running w t hworker htask hshows hready hover =>
    rw [step_work hworker]
    have hissued : handle ∈ o.issued := (ho.worker handle).2 ⟨w, hworker⟩
    refine ho.of_worker ho.distinct (fun other ↦ ?_) rfl
      (fun other hne ↦ Worker.get?_act_of_ne hne value? now) (hshows.act htask value? now) rfl
      fun value hw ↦ hover _ (Option.some.inj (hworker.symm.trans hw))
    exact ⟨Or.inr, fun h ↦ h.elim (fun heq ↦ heq ▸ hissued) id⟩

/-- Whoever is told that there is a result knows that the worker is over. -/
theorem Sound.worker_of_isReady (ho : o.Sound) (h : o.results.isReady handle = .ok true) :
    ∃ value, o.workers.get? handle = some (.ended (some value)) := by
  obtain ⟨_, hview⟩ : ∃ phase, o.View handle phase := ⟨_, ho.view handle⟩
  cases hview with
  | finished value since hworker => exact ⟨value, hworker⟩
  | running w t _ htask _ hnot =>
    rw [isReady_of_some htask, hnot] at h
    cases h
  | unknown _ htask =>
    rw [isReady_of_none htask] at h
    cases h
  | gone _ _ htask =>
    rw [isReady_of_none htask] at h
    cases h

theorem Sound.look (ho : o.Sound) (handle : String) : (o.step (.look handle)).Sound := by
  rw [Office.step]
  split
  · rename_i hready
    refine { ho with reached := fun other hother ↦ ?_ }
    rcases List.mem_cons.1 hother with rfl | hother
    · exact ho.worker_of_isReady hready
    · exact ho.reached other hother
  · exact ho

theorem Sound.take (ho : o.Sound) (handle : String) : (o.step (.take handle)).Sound := by
  rw [Office.step]
  split
  · rename_i hreaching
    obtain ⟨value, hworker⟩ := ho.reached handle hreaching
    have htaken : ({ o with results := (o.results.take handle).2 } : Office α).Sound := by
      refine ho.of_kept (fun _ _ ↦ get?_take_eq_some_iff) fun other t ht hready ↦ ?_
      -- nobody takes under this handle but what is ready
      rintro rfl
      obtain ⟨w, hw, hshows⟩ := ho.shown other t ht
      obtain rfl := Option.some.inj (hworker.symm.trans hw)
      cases hshows
      cases hready
    exact { htaken with
      reached := fun other hother ↦ ho.reached other (List.mem_of_mem_erase hother) }
  · exact ho

theorem Sound.step (ho : o.Sound) {e : Event α}
    (hfresh : ∀ label token, e = .submit label token → Deferred.handle label token ∉ o.issued) :
    (o.step e).Sound := by
  cases e with
  | submit label token => exact ho.submit (hfresh label token rfl)
  | work handle value? now => exact ho.work handle value? now
  | isReady handle => exact ho
  | fetch handle =>
    exact ho.of_kept (fun _ _ ↦ get?_fetch_eq_some_iff) fun _ _ _ hready _ ↦ hready
  | look handle => exact ho.look handle
  | take handle => exact ho.take handle
  | evict ttl now =>
    exact ho.of_kept (fun _ _ ↦ get?_evict_eq_some_iff) fun _ _ _ hready ↦
      outlives_of_not_ready hready

end Office
end Depot.Deferred
