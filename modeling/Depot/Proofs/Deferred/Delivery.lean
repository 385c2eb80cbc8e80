import Depot.Proofs.Deferred.Moves

/-!
# Every result is delivered once

A run whose tokens are all different (`Fresh`) finds a sound office at every step, since a handle
ends in its token and no label can make two of them equal. So whatever one event keeps is kept by
the run: handles only move forward, a worker that has a value has the one that its work came back
with (`Fresh.cameBack`), and the results delivered, failed and swept so far account for every handle
that is no longer registered. `delivered_once` says what that means for those who ask and fetch,
however their steps and those of the workers are mixed.
-/

set_option autoImplicit false
set_option relaxedAutoImplicit false

namespace Depot.Deferred

variable {α : Type}

namespace Office

variable {o : Office α} {e : Event α} {handle : String}

/-- The tokens of a run are texts of identifiers, and all of them are different. -/
structure Fresh (run : List (Event α)) : Prop where
  isText : ∀ label token, .submit label token ∈ run → Uuid.IsText token
  distinct : (run.filterMap Event.token?).Nodup

variable {run : List (Event α)} {i : Nat}

/-- A handle is issued by the event that submits its work, and by no other. -/
theorem mem_issued_step : handle ∈ (o.step e).issued ↔
    handle ∈ o.issued ∨
      ∃ label token, e = .submit label token ∧ Deferred.handle label token = handle := by
  have hsame : (o.step e).issued = o.issued → (∀ label token, e ≠ .submit label token) →
      (handle ∈ (o.step e).issued ↔ handle ∈ o.issued ∨
        ∃ label token, e = .submit label token ∧ Deferred.handle label token = handle) := by
    intro hissued hnot
    rw [hissued]
    refine ⟨Or.inl, fun h ↦ h.resolve_right ?_⟩
    rintro ⟨label, token, rfl, _⟩
    exact hnot label token rfl
  cases e with
  | submit label token =>
    change handle ∈ o.issued ++ [_] ↔ _
    rw [List.mem_append, List.mem_singleton]
    refine or_congr_right ⟨fun h ↦ ⟨label, token, rfl, h.symm⟩, ?_⟩
    rintro ⟨_, _, heq, h⟩
    cases heq
    exact h.symm
  | work handle value? now => exact hsame (issued_work value? now) (by simp)
  | look handle => exact hsame (by rw [step]; split <;> rfl) (by simp)
  | take handle => exact hsame (by rw [step]; split <;> rfl) (by simp)
  | _ => exact hsame rfl (by simp)

theorem mem_issued_before (run : List (Event α)) (i : Nat) :
    handle ∈ (before run i).issued ↔ ∃ n label token, n < i ∧
      run[n]? = some (.submit label token) ∧ Deferred.handle label token = handle := by
  refine (stateAt_iff_exists (Q := fun o : Office α ↦ handle ∈ o.issued)
    (R := fun _ (e : Event α) ↦ ∃ label token, e = .submit label token ∧
      Deferred.handle label token = handle)
    (fun _ _ _ ↦ mem_issued_step) i).trans ⟨fun h ↦ ?_, ?_⟩
  · obtain ⟨n, _, hn, hat, label, token, rfl, h⟩ := h.resolve_left nofun
    exact ⟨n, label, token, hn, hat, h⟩
  · rintro ⟨n, label, token, hn, hat, h⟩
    exact Or.inr ⟨n, _, hn, hat, label, token, rfl, h⟩

/-- Tokens that are drawn at different times are different, and so are the handles that they make,
whatever the labels are. -/
theorem Fresh.not_mem_issued (hfresh : Fresh run) {label token : String}
    (he : run[i]? = some (.submit label token)) :
    Deferred.handle label token ∉ (before run i).issued := by
  rw [mem_issued_before]
  rintro ⟨n, label', token', hn, hsubmit, heq⟩
  obtain ⟨hi, hat⟩ := List.getElem?_eq_some_iff.1 he
  obtain ⟨hm, hat'⟩ := List.getElem?_eq_some_iff.1 hsubmit
  have htext := hfresh.isText label token (hat ▸ List.getElem_mem hi)
  have htext' := hfresh.isText label' token' (hat' ▸ List.getElem_mem hm)
  have hsame := token_eq_of_handle_eq (htext'.length_eq.trans htext.length_eq.symm) heq
  have hpairwise := List.pairwise_iff_getElem.1
    (List.pairwise_filterMap.1 hfresh.distinct) n i hm hi hn
  rw [hat, hat'] at hpairwise
  exact hpairwise token' rfl token rfl hsame

theorem Fresh.sound (hfresh : Fresh run) (i : Nat) : (before run i).Sound := by
  refine stateAt_induction (P := fun _ (o : Office α) ↦ o.Sound) (i := 0) sound_empty ?_
    (fun _ _ _ ho ↦ ho) (Nat.zero_le i)
  rintro m e _ he ho
  refine ho.step ?_
  rintro label token rfl
  exact hfresh.not_mem_issued he

/-- A handle has come at least as far at every later step. -/
theorem Fresh.rank_le (hfresh : Fresh run) {i j : Nat} (hij : i ≤ j) (handle : String) :
    ((before run i).phase handle).rank ≤ ((before run j).phase handle).rank := by
  refine stateAt_induction (P := fun _ (o : Office α) ↦
    ((before run i).phase handle).rank ≤ (o.phase handle).rank) (Nat.le_refl _) ?_
    (fun _ _ _ ho ↦ ho) hij
  intro m e _ he ih
  refine Nat.le_trans ih ((hfresh.sound m).moves ?_ handle).rank_le
  rintro label token rfl
  exact hfresh.not_mem_issued he

/-- What is gone stays gone. -/
theorem Fresh.phase_eq_gone (hfresh : Fresh run) {i j : Nat} (hij : i ≤ j)
    (hgone : (before run i).phase handle = .gone) : (before run j).phase handle = .gone := by
  have hle := hfresh.rank_le hij handle
  rw [hgone] at hle
  cases hphase : (before run j).phase handle with
  | gone => rfl
  | _ =>
    rw [hphase] at hle
    exact absurd hle (by decide)

/-- Where the worker of a handle stands after an event. -/
theorem get?_workers_step (o : Office α) (e : Event α) (handle : String) :
    (o.step e).workers.get? handle =
      match e with
      | .submit label token =>
        if Deferred.handle label token = handle then some .working else o.workers.get? handle
      | .work other value? _ =>
        if other = handle then (o.workers.get? handle).map (Worker.next value?)
        else o.workers.get? handle
      | _ => o.workers.get? handle := by
  cases e with
  | submit label token => exact Table.get?_insert _ _ _ _
  | work other value? now =>
    cases hworker : o.workers.get? other with
    | none =>
      simp only [step, hworker]
      split
      · rename_i heq
        rw [← heq, hworker, Option.map_none]
      · rfl
    | some w =>
      rw [step_work hworker]
      change (o.workers.insert other (w.next value?)).get? handle = if other = handle then _ else _
      rw [Table.get?_insert]
      split
      · rename_i heq
        rw [← heq, hworker, Option.map_some]
      · rfl
  | look other =>
    rw [step]
    split <;> rfl
  | take other =>
    rw [step]
    split <;> rfl
  | _ => rfl

/-- The value that the work under a handle came back with. -/
def value? (o : Office α) (handle : String) : Option α :=
  (o.workers.get? handle).bind Worker.value?

theorem Sound.value?_step (ho : o.Sound)
    (hfresh : ∀ label token, e = .submit label token → Deferred.handle label token ∉ o.issued)
    {value : α} : (o.step e).value? handle = some value ↔ o.value? handle = some value ∨
      ∃ now, e = .work handle (some value) now ∧ o.workers.get? handle = some .working := by
  have hsame : (o.step e).workers.get? handle = o.workers.get? handle →
      (∀ now, e ≠ .work handle (some value) now) →
      ((o.step e).value? handle = some value ↔ o.value? handle = some value ∨
        ∃ now, e = .work handle (some value) now ∧ o.workers.get? handle = some .working) := by
    intro hworker hnot
    rw [value?, hworker]
    exact ⟨Or.inl, fun h ↦ h.resolve_right fun hcame ↦ hcame.elim fun now h ↦ hnot now h.1⟩
  have hworkers := get?_workers_step o e handle
  cases e with
  | submit label token =>
    by_cases heq : Deferred.handle label token = handle
    · subst heq
      obtain ⟨hnone, _⟩ := ho.get?_of_not_mem (hfresh label token rfl)
      rw [value?, hworkers, value?, hnone]
      simp [Worker.value?]
    · exact hsame (hworkers.trans (if_neg heq)) (by simp)
  | work other value? now =>
    by_cases heq : other = handle
    · subst heq
      rw [Office.value?, hworkers, Office.value?]
      cases o.workers.get? other with
      | none => simp
      | some w => simp [Worker.value?_next, and_comm]
    · exact hsame (hworkers.trans (if_neg heq)) fun now' h ↦ heq (by cases h; rfl)
  | _ => exact hsame hworkers (by simp)

/-- The work that was submitted under a handle came back with a value before step `i` of a run. -/
def CameBack (run : List (Event α)) (i : Nat) (handle : String) (value : α) : Prop :=
  ∃ n m label token now, n < m ∧ m < i ∧ run[n]? = some (.submit label token) ∧
    Deferred.handle label token = handle ∧ run[m]? = some (.work handle (some value) now) ∧
    (before run m).workers.get? handle = some .working

/-- The value of a handle is the one that its own work came back with. -/
theorem Fresh.cameBack_iff (hfresh : Fresh run) {value : α} :
    CameBack run i handle value ↔ (before run i).value? handle = some value := by
  have hback : (before run i).value? handle = some value ↔
      (empty : Office α).value? handle = some value ∨ ∃ m e, m < i ∧ run[m]? = some e ∧
        ∃ now, e = .work handle (some value) now ∧
          (before run m).workers.get? handle = some .working :=
    stateAt_iff_exists (Q := fun o : Office α ↦ o.value? handle = some value)
      (fun m e he ↦ (hfresh.sound m).value?_step fun label token h ↦
        hfresh.not_mem_issued (h ▸ he)) i
  refine Iff.trans ⟨?_, fun h ↦ ?_⟩ hback.symm
  · rintro ⟨n, m, label, token, now, _, hm, _, _, hat, hworking⟩
    exact Or.inr ⟨m, _, hm, hat, now, rfl, hworking⟩
  · obtain ⟨m, _, hm, hat, now, rfl, hworking⟩ := h.resolve_left nofun
    have hissued := ((hfresh.sound m).worker handle).2 ⟨_, hworking⟩
    obtain ⟨n, label, token, hn, hsubmit, hhandle⟩ := (mem_issued_before run m).1 hissued
    exact ⟨n, m, label, token, now, hn, hm, hsubmit, hhandle, hat, hworking⟩

theorem CameBack.mono {i j : Nat} {value : α} (h : CameBack run i handle value) (hij : i ≤ j) :
    CameBack run j handle value := by
  obtain ⟨n, m, label, token, now, hn, hm, h⟩ := h
  exact ⟨n, m, label, token, now, hn, Nat.lt_of_lt_of_le hm hij, h⟩

/-- No work comes back twice. -/
theorem Fresh.cameBack_unique (hfresh : Fresh run) {i j : Nat} {value value' : α}
    (h : CameBack run i handle value) (h' : CameBack run j handle value') : value = value' := by
  have hvalue := hfresh.cameBack_iff.1 (h.mono (Nat.le_max_left i j))
  have hvalue' := hfresh.cameBack_iff.1 (h'.mono (Nat.le_max_right i j))
  exact Option.some.inj (hvalue.symm.trans hvalue')

/-- What the events before step `i` of a run come to, each counted where it finds the office. -/
def total (count : Office α → Event α → Nat) (run : List (Event α)) : Nat → Nat
  | 0 => 0
  | i + 1 => total count run i + (run[i]?.map (count (before run i))).getD 0

/-- Every handle that was issued is registered, or accounted for. -/
theorem Fresh.size_before (hfresh : Fresh run) (i : Nat) :
    (before run i).results.size + total delivered run i + total failed run i + total swept run i =
      (before run i).issued.length := by
  induction i with
  | zero => rfl
  | succ i ih =>
    cases he : run[i]? with
    | none =>
      have hnext : before run (i + 1) = before run i := stateAt_succ_of_none step empty he
      rw [hnext]
      simp only [total, he, Option.map_none, Option.getD_none]
      exact ih
    | some e =>
      have hsize := (hfresh.sound i).size_step (e := e) fun label token h ↦
        hfresh.not_mem_issued (h ▸ he)
      have hnext : before run (i + 1) = (before run i).step e := stateAt_succ step empty he
      rw [hnext]
      simp only [total, he, Option.map_some, Option.getD_some]
      omega

/-- What one event of a run does to a handle. -/
theorem Fresh.moves (hfresh : Fresh run) {e : Event α} (he : run[i]? = some e) (handle : String) :
    Moves (before run i) handle e ((before run i).phase handle)
      ((before run (i + 1)).phase handle) := by
  have hnext : before run (i + 1) = (before run i).step e := stateAt_succ step empty he
  rw [hnext]
  exact (hfresh.sound i).moves (fun label token h ↦ hfresh.not_mem_issued (h ▸ he)) handle

/-- What has been delivered is the value of its work, and nobody gets anything under its handle
again. -/
theorem Fresh.of_delivery? (hfresh : Fresh run) {e : Event α} {value : α}
    (he : run[i]? = some e) (hdelivered : (before run i).delivery? e = some (handle, value)) :
    CameBack run i handle value ∧ ∀ j, i < j →
      (before run j).results.isReady handle = .error (.notFound handle) ∧
      (before run j).results.fetch handle =
        (.error (.notFound handle), (before run j).results) ∧
      ∀ e' value', run[j]? = some e' → (before run j).delivery? e' ≠ some (handle, value') := by
  have ho := hfresh.sound i
  have hnext : before run (i + 1) = (before run i).step e := stateAt_succ step empty he
  have hgone : (before run (i + 1)).phase handle = .gone := by
    rw [hnext]
    exact ho.phase_of_delivery? hdelivered
  refine ⟨hfresh.cameBack_iff.2 ?_, fun j hj ↦ ?_⟩
  · rw [value?, (ho.of_delivery? hdelivered).2.1]
    rfl
  have hlater := hfresh.phase_eq_gone hj hgone
  refine ⟨?_, ?_, fun e' value' _ hagain ↦ ?_⟩
  · rw [(hfresh.sound j).isReady_eq, hlater]
    rfl
  · rcases (hfresh.sound j).fetch_cases handle with ⟨_, hphase, _⟩ | ⟨hphase, _⟩ | ⟨_, hfetch⟩
    · rw [hlater] at hphase
      cases hphase
    · rw [hlater] at hphase
      cases hphase
    · exact hfetch
  · have hphase := ((hfresh.sound j).of_delivery? hagain).1
    rw [hlater] at hphase
    cases hphase

/-- Every result is delivered once, to whoever has its handle. At every step of a run no handle has
been issued twice; a handle has come as far as its own worker has, and each event moves it forward
if at all; whoever asks is told where it stands; a fetch gives the one value that its work came back
with, exactly when the answer is that there is one, and from then on there is nothing; a fetch that
comes too early changes nothing; events about other handles are not noticed; and the registry has
the handles that were issued and neither fetched, nor lost with their work, nor swept. -/
theorem delivered_once (hfresh : Fresh run) (i : Nat) (handle : String) :
    (before run i).issued.Nodup ∧
    (((before run i).phase handle = .unknown ↔ handle ∉ (before run i).issued) ∧
      ((before run i).phase handle = .running ↔
        ∃ w, (before run i).workers.get? handle = some w ∧ ∀ value?, w ≠ .ended value?) ∧
      (∀ e, run[i]? = some e → Moves (before run i) handle e ((before run i).phase handle)
        ((before run (i + 1)).phase handle)) ∧
      ∀ j, i ≤ j → ((before run i).phase handle).rank ≤ ((before run j).phase handle).rank) ∧
    (before run i).results.isReady handle = ((before run i).phase handle).isReady handle ∧
    ((∃ value, ((before run i).results.fetch handle).1 = .ok value) ↔
      (before run i).results.isReady handle = .ok true) ∧
    (∀ value, ((before run i).results.fetch handle).1 = .ok value →
      CameBack run i handle value ∧
        ∀ j value', CameBack run j handle value' → value' = value) ∧
    (handle ∈ (before run i).reaching →
      (before run i).results.take handle = (before run i).results.fetch handle) ∧
    (∀ e value, run[i]? = some e → (before run i).delivery? e = some (handle, value) →
      CameBack run i handle value ∧ ∀ j, i < j →
        (before run j).results.isReady handle = .error (.notFound handle) ∧
        (before run j).results.fetch handle =
          (.error (.notFound handle), (before run j).results) ∧
        ∀ e' value', run[j]? = some e' → (before run j).delivery? e' ≠ some (handle, value')) ∧
    (((before run i).results.fetch handle).1 = .error (.notReady handle) ↔
      (before run i).results.isReady handle = .ok false) ∧
    (∀ f, ((before run i).results.fetch handle).1 = .error f →
      ((before run i).results.fetch handle).2 = (before run i).results) ∧
    (∀ e other, run[i]? = some e → e.handle? = some other → other ≠ handle →
      (before run (i + 1)).results.isReady handle = (before run i).results.isReady handle ∧
      ((before run (i + 1)).results.fetch handle).1 =
        ((before run i).results.fetch handle).1) ∧
    (before run i).results.size + total delivered run i + total failed run i + total swept run i =
      (before run i).issued.length := by
  have ho := hfresh.sound i
  refine ⟨ho.distinct, ⟨ho.phase_eq_unknown_iff handle, ho.phase_eq_running_iff handle,
    fun e he ↦ hfresh.moves he handle, fun j hij ↦ hfresh.rank_le hij handle⟩,
    ho.isReady_eq handle, ho.fetch_eq_ok_iff handle, fun value hvalue ↦ ?_,
    ho.take_eq_fetch, fun e value he hdelivered ↦ hfresh.of_delivery? he hdelivered,
    ho.fetch_eq_notReady_iff handle, fun f ↦ ho.fetch_error, fun e other he hother hne ↦ ?_,
    hfresh.size_before i⟩
  · have hback : CameBack run i handle value := by
      rw [hfresh.cameBack_iff, value?, ho.worker_of_fetch hvalue]
      rfl
    exact ⟨hback, fun j value' h ↦ hfresh.cameBack_unique h hback⟩
  · have hnext : before run (i + 1) = (before run i).step e := stateAt_succ step empty he
    obtain ⟨_, htask⟩ := step_other (o := before run i) hother hne
    rw [hnext]
    exact ⟨isReady_congr htask, fetch_congr htask⟩

/-- A result is fetched after its worker has published it, and not a second time. -/
theorem delivered_once_fetched :
    let handle := Deferred.handle "get" (Uuid.text 0 0)
    let run : List (Event Nat) := [.submit "get" (Uuid.text 0 0), .submit "get" (Uuid.text 0 1),
      .work handle (some 7) 3, .work handle none 4, .work handle none 5, .fetch handle]
    Fresh run ∧ (before run 5).delivery? (.fetch handle) = some (handle, 7) ∧
      CameBack run 5 handle 7 ∧
      ∀ j, 5 < j → (before run j).results.isReady handle = .error (.notFound handle) := by
  intro handle run
  have hfresh : Fresh run := by
    constructor
    · intro label token hmem
      simp only [run, List.mem_cons, Event.submit.injEq, reduceCtorEq, List.not_mem_nil,
        or_false] at hmem
      rcases hmem with ⟨_, rfl⟩ | ⟨_, rfl⟩
      · exact ⟨0, 0, rfl⟩
      · exact ⟨0, 1, rfl⟩
    · decide +kernel
  have hdelivered : (before run 5).delivery? (.fetch handle) = some (handle, 7) := by
    decide +kernel
  have hall := delivered_once hfresh 5 handle
  obtain ⟨hback, hafter⟩ := hall.2.2.2.2.2.2.1 (.fetch handle) 7 rfl hdelivered
  exact ⟨hfresh, hdelivered, hback, fun j hj ↦ (hafter j hj).1⟩

end Office
end Depot.Deferred
