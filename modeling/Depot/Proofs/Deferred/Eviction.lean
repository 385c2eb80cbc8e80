import Depot.Proofs.Deferred.Delivery

/-!
# Sweeps take what has waited its time

The age of a result counts from the moment its worker notes the time, which is after it has put the
value down and before it publishes it. `Finishes` ties the two steps together: the worker of a
handle publishes a value, having noted this time. A result `Waits` from then on (`Finishes.waits`),
with that time, and leaves in two ways only (`Takes`): somebody gets it, or a sweep comes when it
has waited as long as it may. `Sound.waits_step` and `Sound.gone_of_takes` are the two sides of one
step, `Finishes.waits_or_gone` is the run. Work that runs stops in a step of its own worker and in
no other (`Fresh.running_or_ends`), so no sweep touches it, and a result that waits was published in
some step (`Fresh.exists_finishes`). What a sweep returns counts the handles whose results it takes
(`Sound.evicted_eq`).
-/

set_option autoImplicit false
set_option relaxedAutoImplicit false

namespace Depot.Deferred

variable {α : Type}

/-- The time that is read in an event. -/
def Event.now? : Event α → Option Nat
  | work _ _ now => some now
  | evict _ now => some now
  | _ => none

namespace Office

variable {o : Office α} {e : Event α} {handle other : String} {value : α} {since ttl now : Nat}

/-! ## One step -/

/-- The worker of the handle has published this value, having noted this time, and the result is
still there. -/
structure Waits (o : Office α) (handle : String) (value : α) (since : Nat) : Prop where
  worker : o.workers.get? handle = some (.ended (some value))
  task : o.results.tasks.get? handle = some ⟨some value, some since, true⟩

/-- The event takes away the result of the handle, whose worker has noted this time: somebody gets
it, or it has waited as long as it may. -/
def Takes (o : Office α) (e : Event α) (handle : String) (since : Nat) : Prop :=
  (∃ value, o.delivery? e = some (handle, value)) ∨
    ∃ ttl now, e = .evict ttl now ∧ ttl ≤ now - since

theorem Waits.phase (h : o.Waits handle value since) : o.phase handle = .finished :=
  phase_eq_finished h.worker h.task

theorem Sound.exists_waits (ho : o.Sound) (hphase : o.phase handle = .finished) :
    ∃ value since, o.Waits handle value since := by
  have hview := ho.view handle
  rw [hphase] at hview
  cases hview with
  | finished value since hworker htask => exact ⟨value, since, hworker, htask⟩

theorem Waits.fetch (h : o.Waits handle value since) :
    o.results.isReady handle = .ok true ∧ (o.results.fetch handle).1 = .ok value := by
  refine ⟨isReady_of_some h.task, ?_⟩
  rw [fetch_of_ready h.task rfl, take_of_some h.task]

theorem Sound.fetch_of_gone (ho : o.Sound) (h : o.phase handle = .gone) :
    o.results.isReady handle = .error (.notFound handle) ∧
      o.results.fetch handle = (.error (.notFound handle), o.results) := by
  have hview := ho.view handle
  rw [h] at hview
  cases hview with
  | gone _ _ htask => exact ⟨isReady_of_none htask, fetch_of_none htask⟩

/-- Nobody writes to a task but its own worker. -/
theorem get?_step_of_some {t : Task α}
    (hsubmit : ∀ label token, e = .submit label token → Deferred.handle label token ≠ handle)
    (hwork : ∀ value? now, e ≠ .work handle value? now)
    (ht : (o.step e).results.tasks.get? handle = some t) :
    o.results.tasks.get? handle = some t := by
  by_cases hother : ∃ other, e.handle? = some other ∧ other ≠ handle
  · obtain ⟨other, he, hne⟩ := hother
    rwa [(step_other (o := o) he hne).2] at ht
  have hself : ∀ other, e.handle? = some other → other = handle :=
    fun other he ↦ Decidable.byContradiction fun hne ↦ hother ⟨other, he, hne⟩
  cases e with
  | submit label token => exact absurd (hself _ rfl) (hsubmit label token rfl)
  | work _ value? now =>
    obtain rfl := hself _ rfl
    exact absurd rfl (hwork value? now)
  | isReady _ => exact ht
  | fetch _ => exact (get?_fetch_eq_some_iff.1 ht).1
  | look _ =>
    rw [Office.step] at ht
    split at ht <;> exact ht
  | take _ =>
    rw [Office.step] at ht
    split at ht
    · exact (get?_take_eq_some_iff.1 ht).1
    · exact ht
  | evict ttl now => exact (get?_evict_eq_some_iff.1 ht).1

/-- A result goes on waiting unless the event takes it. -/
theorem Sound.waits_step (ho : o.Sound)
    (hfresh : ∀ label token, e = .submit label token → Deferred.handle label token ∉ o.issued)
    (h : o.Waits handle value since) (htakes : ¬ o.Takes e handle since) :
    (o.step e).Waits handle value since := by
  have hissued : handle ∈ o.issued := (ho.worker handle).2 ⟨_, h.worker⟩
  have hsubmit : ∀ label token, e = .submit label token → Deferred.handle label token ≠ handle := by
    rintro label token he rfl
    exact hfresh label token he hissued
  by_cases hwork : ∃ value? now, e = .work handle value? now
  · obtain ⟨value?, now, rfl⟩ := hwork
    rwa [step_work_of_ended h.worker]
  have hnot : ∀ value? now, e ≠ .work handle value? now :=
    fun value? now he ↦ hwork ⟨value?, now, he⟩
  have hstays : (o.step e).phase handle = .finished := by
    have hmoves := ho.moves hfresh handle
    rw [h.phase] at hmoves
    generalize (o.step e).phase handle = phase at hmoves
    cases hmoves with
    | stay => rfl
    | fetch =>
      refine absurd (Or.inl ⟨value, ?_⟩) htakes
      simp only [delivery?, h.fetch.2, Except.toOption, Option.map_some]
    | take hreaching =>
      refine absurd (Or.inl ⟨value, ?_⟩) htakes
      simp only [delivery?, if_pos hreaching, ho.take_eq_fetch hreaching, h.fetch.2,
        Except.toOption, Option.map_some]
    | evict _ since' ttl now htask hwaited =>
      obtain ⟨-, hsince, -⟩ := Task.mk.inj (Option.some.inj (htask.symm.trans h.task))
      obtain rfl := Option.some.inj hsince
      exact absurd (Or.inr ⟨ttl, now, rfl, hwaited⟩) htakes
  obtain ⟨value', since', h'⟩ := (ho.step hfresh).exists_waits hstays
  have htask := get?_step_of_some hsubmit hnot h'.task
  obtain ⟨hvalue, hsince, -⟩ := Task.mk.inj (Option.some.inj (htask.symm.trans h.task))
  obtain rfl := Option.some.inj hvalue
  obtain rfl := Option.some.inj hsince
  exact h'

/-- What an event takes is gone. -/
theorem Sound.gone_of_takes (ho : o.Sound) (h : o.Waits handle value since)
    (htakes : o.Takes e handle since) : (o.step e).phase handle = .gone := by
  obtain ⟨value', hdelivered⟩ | ⟨ttl, now, rfl, hwaited⟩ := htakes
  · exact ho.phase_of_delivery? hdelivered
  · refine phase_eq_gone h.worker (Option.eq_none_iff_forall_ne_some.2 fun t ht ↦ ?_)
    obtain ⟨hold, hlives⟩ := get?_evict_eq_some_iff.1 ht
    obtain rfl := Option.some.inj (h.task.symm.trans hold)
    have hyoung : now - since < ttl := by simpa [outlives] using hlives
    omega

/-! ## One sweep -/

/-- A sweep leaves a handle where it is, or takes its result because it has waited. -/
theorem Sound.phase_evict (ho : o.Sound) (ttl now : Nat) (handle : String) :
    (o.step (.evict ttl now)).phase handle = o.phase handle ∧
        (o.step (.evict ttl now)).results.tasks.get? handle = o.results.tasks.get? handle ∨
      (o.step (.evict ttl now)).phase handle = .gone ∧
        ∃ value since, o.Waits handle value since ∧ ttl ≤ now - since := by
  by_cases hwaited : ∃ value since, o.Waits handle value since ∧ ttl ≤ now - since
  · obtain ⟨value, since, h, hwaited⟩ := hwaited
    exact Or.inr ⟨ho.gone_of_takes h (Or.inr ⟨ttl, now, rfl, hwaited⟩), value, since, h, hwaited⟩
  · refine Or.inl ?_
    have htask : (o.step (.evict ttl now)).results.tasks.get? handle =
        o.results.tasks.get? handle := by
      refine Option.ext fun t ↦ get?_evict_eq_some_iff.trans ⟨And.left, fun ht ↦ ⟨ht, ?_⟩⟩
      have hview := ho.view handle
      generalize o.phase handle = phase at hview
      cases hview with
      | running w t' _ ht' _ hready =>
        obtain rfl := Option.some.inj (ht'.symm.trans ht)
        exact outlives_of_not_ready hready
      | finished value since hworker ht' =>
        obtain rfl := Option.some.inj (ht'.symm.trans ht)
        have hyoung : now - since < ttl :=
          Nat.lt_of_not_le fun hle ↦ hwaited ⟨value, since, ⟨hworker, ht'⟩, hle⟩
        simpa [outlives] using hyoung
      | unknown _ hnone => cases hnone.symm.trans ht
      | gone _ _ hnone => cases hnone.symm.trans ht
    exact ⟨phase_congr rfl htask, htask⟩

/-- Something is registered under the handles whose work runs or whose result waits. -/
theorem Sound.contains_iff (ho : o.Sound) (handle : String) :
    o.results.tasks.contains handle = true ↔
      o.phase handle = .running ∨ o.phase handle = .finished := by
  have hview := ho.view handle
  generalize o.phase handle = phase at hview
  rw [Table.contains]
  cases hview with
  | unknown _ htask => simp [htask]
  | running _ _ _ htask => simp [htask]
  | finished _ _ _ htask => simp [htask]
  | gone _ _ htask => simp [htask]

/-- A sweep returns the number of handles whose results it takes. -/
theorem Sound.evicted_eq (ho : o.Sound) (ttl now : Nat) :
    o.results.evicted ttl now = (o.issued.filter fun handle ↦ decide (o.phase handle = .finished ∧
      (o.step (.evict ttl now)).phase handle = .gone)).length := by
  have hswept : (o.step (.evict ttl now)).Sound := ho.step nofun
  have hregistered : ∀ {d : Deferred α}, (∀ handle t, d.tasks.get? handle = some t →
      o.results.tasks.get? handle = some t) → d.size = o.issued.countP d.tasks.contains := by
    intro d hd
    refine Table.size_eq_countP ho.distinct fun handle t ht ↦ ?_
    obtain ⟨w, hworker, -⟩ := ho.shown handle t (hd handle t ht)
    exact (ho.worker handle).2 ⟨w, hworker⟩
  have hleft : (o.results.evict ttl now).size =
      o.issued.countP (o.results.evict ttl now).tasks.contains :=
    hregistered fun _ _ ht ↦ (get?_evict_eq_some_iff.1 ht).1
  -- of the registered handles some are left, and the others are the ones that the sweep takes
  have hsplit := List.countP_eq_countP_filter_add o.issued o.results.tasks.contains
    (o.results.evict ttl now).tasks.contains
  rw [← hregistered fun _ _ ht ↦ ht, List.countP_filter, List.countP_filter] at hsplit
  have hkept : o.issued.countP (fun handle ↦ o.results.tasks.contains handle &&
      (o.results.evict ttl now).tasks.contains handle) =
      o.issued.countP (o.results.evict ttl now).tasks.contains := by
    refine List.countP_congr fun handle _ ↦ ?_
    rw [Bool.and_eq_true]
    refine ⟨And.right, fun hin ↦ ⟨?_, hin⟩⟩
    obtain ⟨t, ht⟩ := Option.isSome_iff_exists.1 hin
    exact Option.isSome_iff_exists.2 ⟨t, (get?_evict_eq_some_iff.1 ht).1⟩
  have htaken : o.issued.countP (fun handle ↦ o.results.tasks.contains handle &&
      !(o.results.evict ttl now).tasks.contains handle) =
      o.issued.countP fun handle ↦ decide (o.phase handle = .finished ∧
        (o.step (.evict ttl now)).phase handle = .gone) := by
    refine List.countP_congr fun handle _ ↦ ?_
    have hbefore := ho.contains_iff handle
    have hafter : (o.results.evict ttl now).tasks.contains handle = true ↔ _ :=
      hswept.contains_iff handle
    rw [Bool.and_eq_true, Bool.not_eq_true', ← Bool.not_eq_true, hbefore, hafter, decide_eq_true_eq]
    rcases ho.phase_evict ttl now handle with ⟨hsame, -⟩ | ⟨hgone, value, since, h, -⟩
    · rw [hsame]
      constructor
      · rintro ⟨hin, hout⟩
        exact absurd hin hout
      · rintro ⟨hfinished, hgone⟩
        rw [hfinished] at hgone
        cases hgone
    · simp [hgone, h.phase]
  rw [evicted, hleft, ← List.countP_eq_length_filter, ← htaken]
  rw [hkept] at hsplit
  omega

/-! ## Runs -/

variable {run : List (Event α)} {i j k m : Nat}

/-- The clock does not go back. -/
def Timely (run : List (Event α)) : Prop := (run.filterMap Event.now?).Pairwise (· ≤ ·)

/-- In step `m` of a run the worker of the handle publishes this value; before, it has put it down
and noted this time. -/
def Finishes (run : List (Event α)) (m : Nat) (handle : String) (value : α) (since : Nat) : Prop :=
  (∃ value? now, run[m]? = some (.work handle value? now)) ∧
    (before run m).workers.get? handle = some (.stamped value) ∧
    ∃ n value?, n < m ∧ run[n]? = some (.work handle value? since) ∧
      (before run n).workers.get? handle = some (.deposited value)

theorem Timely.le (htimely : Timely run) {e e' : Event α} {now now' : Nat} (hlt : k < m)
    (he : run[k]? = some e) (he' : run[m]? = some e') (hnow : e.now? = some now)
    (hnow' : e'.now? = some now') : now ≤ now' := by
  obtain ⟨hk, rfl⟩ := List.getElem?_eq_some_iff.1 he
  obtain ⟨hm, rfl⟩ := List.getElem?_eq_some_iff.1 he'
  exact List.pairwise_iff_getElem.1 (List.pairwise_filterMap.1 htimely) k m hk hm hlt _ hnow _ hnow'

theorem Fresh.not_mem (hfresh : Fresh run) (he : run[i]? = some e) :
    ∀ label token, e = .submit label token →
      Deferred.handle label token ∉ (before run i).issued := by
  rintro label token rfl
  exact hfresh.not_mem_issued he

/-- Whose worker stands somewhere is not submitted again. -/
theorem Fresh.handle_ne (hfresh : Fresh run) (he : run[i]? = some e) {w : Worker α}
    (hworker : (before run i).workers.get? handle = some w) :
    ∀ label token, e = .submit label token → Deferred.handle label token ≠ handle := by
  rintro label token hsubmit rfl
  exact hfresh.not_mem he label token hsubmit (((hfresh.sound i).worker _).2 ⟨w, hworker⟩)

/-- The worker of a handle stands where it stood, unless the event is its own. -/
theorem Fresh.get?_workers (hfresh : Fresh run) (he : run[i]? = some e) {w : Worker α}
    (hworker : (before run i).workers.get? handle = some w) :
    ((before run i).step e).workers.get? handle = some w ∨
      ∃ value? now, e = .work handle value? now ∧
        ((before run i).step e).workers.get? handle = some (w.next value?) := by
  have hworkers := get?_workers_step (before run i) e handle
  rw [hworker] at hworkers
  have hne := hfresh.handle_ne he hworker
  cases e with
  | submit label token => exact Or.inl (hworkers.trans (if_neg (hne label token rfl)))
  | work other value? now =>
    by_cases heq : other = handle
    · subst heq
      exact Or.inr ⟨value?, now, rfl, hworkers.trans (if_pos rfl)⟩
    · exact Or.inl (hworkers.trans (if_neg heq))
  | _ => exact Or.inl hworkers

/-- From the step in which its time is noted until it is published, a value stays under its
handle with that time. -/
theorem Fresh.noted (hfresh : Fresh run) {n : Nat} {value? : Option α}
    (he : run[n]? = some (.work handle value? since))
    (hworker : (before run n).workers.get? handle = some (.deposited value)) (hlt : n < m) :
    (before run m).workers.get? handle = some (.ended (some value)) ∨
      (before run m).workers.get? handle = some (.stamped value) ∧
        (before run m).results.tasks.get? handle = some ⟨some value, some since, false⟩ := by
  refine stateAt_induction (P := fun _ (o : Office α) ↦
    o.workers.get? handle = some (.ended (some value)) ∨
      o.workers.get? handle = some (.stamped value) ∧
        o.results.tasks.get? handle = some ⟨some value, some since, false⟩) ?_ ?_
    (fun _ _ _ h ↦ h) (Nat.succ_le_of_lt hlt)
  · have hview := (hfresh.sound n).shown handle
    obtain ⟨t, ht⟩ := (hfresh.sound n).kept handle _ hworker (by simp)
    obtain ⟨w, hw, hshows⟩ := hview t ht
    obtain rfl := Option.some.inj (hworker.symm.trans hw)
    cases hshows
    rw [stateAt_succ step empty he, step_work hworker]
    refine Or.inr ⟨Table.get?_insert_self _ _ _, ?_⟩
    simp [Worker.act, get?_update, ht, Task.stamp]
  · rintro l e - he (hended | ⟨hstamped, htask⟩)
    · refine Or.inl ?_
      rcases hfresh.get?_workers he hended with hsame | ⟨_, _, _, hnext⟩
      · exact hsame
      · exact hnext
    · rcases hfresh.get?_workers he hstamped with hsame | ⟨value?, now, rfl, hnext⟩
      · refine Or.inr ⟨hsame, ?_⟩
        obtain ⟨t, ht⟩ := ((hfresh.sound l).step (hfresh.not_mem he)).kept handle _ hsame (by simp)
        have hwork : ∀ value? now, e ≠ .work handle value? now := by
          rintro value? now rfl
          rw [step_work hstamped] at hsame
          have hnext := (Table.get?_insert_self _ handle _).symm.trans hsame
          simp [Worker.next] at hnext
        have hold := get?_step_of_some (hfresh.handle_ne he hstamped) hwork ht
        rw [ht, ← hold, htask]
      · exact Or.inl hnext

/-- A result waits from the moment it is published, with the time that its worker noted. -/
theorem Finishes.waits (h : Finishes run m handle value since) (hfresh : Fresh run) :
    (before run (m + 1)).Waits handle value since := by
  obtain ⟨⟨value?, now, he⟩, hstamped, n, value?', hlt, hnoted, hdeposited⟩ := h
  have htask : (before run m).results.tasks.get? handle = some ⟨some value, some since, false⟩ := by
    rcases hfresh.noted hnoted hdeposited hlt with hended | ⟨-, htask⟩
    · cases hstamped.symm.trans hended
    · exact htask
  rw [before, stateAt_succ step empty he, step_work hstamped]
  refine ⟨Table.get?_insert_self _ _ _, ?_⟩
  simp [Worker.act, get?_update, htask, Task.publish]

/-- A published result waits, or something has taken it and it is gone. -/
theorem Finishes.waits_or_gone (h : Finishes run m handle value since) (hfresh : Fresh run)
    (hlt : m < j) :
    (before run j).Waits handle value since ∨ (before run j).phase handle = .gone ∧
      ∃ k e, m < k ∧ k < j ∧ run[k]? = some e ∧ (before run k).Takes e handle since := by
  refine stateAt_induction (P := fun j (o : Office α) ↦ o.Waits handle value since ∨
    o.phase handle = .gone ∧
      ∃ k e, m < k ∧ k < j ∧ run[k]? = some e ∧ (before run k).Takes e handle since)
    (Or.inl (h.waits hfresh)) ?_ ?_ (Nat.succ_le_of_lt hlt)
  · rintro l e hl he (hwaits | ⟨hgone, k, e', hk, hkl, he', htakes⟩)
    · by_cases htakes : (before run l).Takes e handle since
      · exact Or.inr ⟨(hfresh.sound l).gone_of_takes hwaits htakes, l, e, hl, Nat.lt_succ_self l,
          he, htakes⟩
      · exact Or.inl ((hfresh.sound l).waits_step (hfresh.not_mem he) hwaits htakes)
    · refine Or.inr ⟨?_, k, e', hk, Nat.lt_succ_of_lt hkl, he', htakes⟩
      rw [← stateAt_succ step empty he]
      exact hfresh.phase_eq_gone (Nat.le_succ l) hgone
  · rintro l - - (hwaits | ⟨hgone, k, e', hk, hkl, he', htakes⟩)
    · exact Or.inl hwaits
    · exact Or.inr ⟨hgone, k, e', hk, Nat.lt_succ_of_lt hkl, he', htakes⟩

/-- A worker that has noted the time did so in some step. -/
theorem Fresh.exists_noted (hfresh : Fresh run) (m : Nat)
    (hstamped : (before run m).workers.get? handle = some (.stamped value)) :
    ∃ n value? since, n < m ∧ run[n]? = some (.work handle value? since) ∧
      (before run n).workers.get? handle = some (.deposited value) := by
  obtain ⟨n, e, -, hn, he, hnot, hnext⟩ := stateAt_exists_step
    (Q := fun o : Office α ↦ o.workers.get? handle = some (.stamped value)) (Nat.zero_le m)
    (by intro h; cases h) hstamped
  rw [stateAt_succ step empty he] at hnext
  cases hworker : (before run n).workers.get? handle with
  | none =>
    rw [get?_workers_step, hworker] at hnext
    cases e <;> simp at hnext
  | some w =>
    rcases hfresh.get?_workers he hworker with hsame | ⟨value?, since, rfl, hmoved⟩
    · exact absurd (hworker.trans (hsame.symm.trans hnext)) hnot
    · have hstands := Option.some.inj (hmoved.symm.trans hnext)
      cases w with
      | working => cases value? <;> cases hstands
      | deposited value' =>
        cases hstands
        exact ⟨n, value?, since, hn, he, hworker⟩
      | stamped _ => cases hstands
      | ended _ => cases hstands

/-- Work stops running in a step of its own worker, which publishes its value, or ends without one
and leaves nothing behind. -/
theorem Fresh.ends_of_running (hfresh : Fresh run) (he : run[m]? = some e)
    (hrunning : (before run m).phase handle = .running)
    (hnext : (before run (m + 1)).phase handle ≠ .running) :
    (∃ value since, Finishes run m handle value since) ∨
      (∃ now, e = .work handle none now) ∧ (before run (m + 1)).phase handle = .gone := by
  have hmoves := hfresh.moves he handle
  rw [hrunning] at hmoves
  generalize (before run (m + 1)).phase handle = phase at hmoves hnext
  cases hmoves with
  | stay => exact absurd rfl hnext
  | publish value value? now hworker =>
    obtain ⟨n, value?', since, hn, hnoted⟩ := hfresh.exists_noted m hworker
    exact Or.inl ⟨value, since, ⟨value?, now, he⟩, hworker, n, value?', hn, hnoted⟩
  | fail now _ => exact Or.inr ⟨⟨now, rfl⟩, rfl⟩

/-- Work that runs goes on running until its own worker ends. -/
theorem Fresh.running_or_ends (hfresh : Fresh run)
    (hrunning : (before run i).phase handle = .running) (hij : i ≤ j) :
    (before run j).phase handle = .running ∨ ∃ m, i ≤ m ∧ m < j ∧
      ((∃ value since, Finishes run m handle value since) ∨
        (∃ now, run[m]? = some (.work handle none now)) ∧
          (before run (m + 1)).phase handle = .gone) := by
  by_cases hends : (before run j).phase handle = .running
  · exact Or.inl hends
  · obtain ⟨m, e, him, hmj, he, hruns, hnext⟩ := stateAt_exists_step
      (Q := fun o : Office α ↦ o.phase handle ≠ .running) hij (fun h ↦ h hrunning) hends
    refine Or.inr ⟨m, him, hmj, ?_⟩
    refine (hfresh.ends_of_running he (Classical.not_not.1 hruns) hnext).imp_right fun h ↦
      ⟨?_, h.2⟩
    obtain ⟨⟨now, rfl⟩, -⟩ := h
    exact ⟨now, he⟩

/-- A result that waits was published in some step. -/
theorem Fresh.exists_finishes (hfresh : Fresh run) (i : Nat)
    (hfinished : (before run i).phase handle = .finished) :
    ∃ m value since, m < i ∧ Finishes run m handle value since := by
  obtain ⟨m, e, -, hm, he, hnot, hnext⟩ := stateAt_exists_step
    (Q := fun o : Office α ↦ o.phase handle = .finished) (Nat.zero_le i) (by intro h; cases h)
    hfinished
  have hmoves := hfresh.moves he handle
  rw [hnext] at hmoves
  generalize (before run m).phase handle = phase at hmoves hnot
  cases hmoves with
  | stay => exact absurd rfl hnot
  | publish value value? now hworker =>
    obtain ⟨n, value?', since, hn, hnoted⟩ := hfresh.exists_noted m hworker
    exact ⟨m, value, since, hm, ⟨value?, now, he⟩, hworker, n, value?', hn, hnoted⟩

/-- The time of a published result has passed at every later sweep. -/
theorem Finishes.since_le (h : Finishes run m handle value since) (htimely : Timely run)
    (hlt : m < k) (he : run[k]? = some (.evict ttl now)) : since ≤ now := by
  obtain ⟨-, -, n, value?, hn, hnoted, -⟩ := h
  exact htimely.le (Nat.lt_trans hn hlt) hnoted he rfl rfl

/-- The result is available until somebody has got it or a sweep has come in its time. -/
theorem Finishes.available (h : Finishes run m handle value since) (hfresh : Fresh run)
    (htimely : Timely run) (hlt : m < j)
    (hkept : ∀ k e value', m < k → k < j → run[k]? = some e →
      (before run k).delivery? e ≠ some (handle, value'))
    (hyoung : ∀ k ttl now, m < k → k < j → run[k]? = some (.evict ttl now) → now < since + ttl) :
    (before run j).Waits handle value since := by
  refine (h.waits_or_gone hfresh hlt).resolve_right ?_
  rintro ⟨-, k, e, hmk, hkj, he, ⟨value', hdelivered⟩ | ⟨ttl, now, rfl, hwaited⟩⟩
  · exact hkept k e value' hmk hkj he hdelivered
  · have hpast := h.since_le htimely hmk he
    have hbelow := hyoung k ttl now hmk hkj he
    omega

/-- After a sweep in its time the result is gone. -/
theorem Finishes.gone_of_sweep (h : Finishes run m handle value since) (hfresh : Fresh run)
    (hlt : m < k) (he : run[k]? = some (.evict ttl now)) (hold : since + ttl ≤ now) :
    (before run (k + 1)).phase handle = .gone := by
  rcases h.waits_or_gone hfresh hlt with hwaits | ⟨hgone, -⟩
  · have hnext : before run (k + 1) = (before run k).step (.evict ttl now) :=
      stateAt_succ step empty he
    rw [hnext]
    exact (hfresh.sound k).gone_of_takes hwaits (Or.inr ⟨ttl, now, rfl, by omega⟩)
  · exact hfresh.phase_eq_gone (Nat.le_succ k) hgone

/-- A sweep takes the results that wait and have waited as long as they may. -/
theorem Fresh.swept_iff (hfresh : Fresh run) (htimely : Timely run)
    (he : run[i]? = some (.evict ttl now)) :
    (before run i).phase handle = .finished ∧ (before run (i + 1)).phase handle = .gone ↔
      (before run i).phase handle = .finished ∧
        ∃ m value since, m < i ∧ Finishes run m handle value since ∧ since + ttl ≤ now := by
  refine and_congr_right fun hfinished ↦ ⟨fun hgone ↦ ?_, ?_⟩
  · obtain ⟨m, value, since, hm, h⟩ := hfresh.exists_finishes i hfinished
    have hpast := h.since_le htimely hm he
    have hwaits := (h.waits_or_gone hfresh hm).resolve_right fun hgone ↦ by
      cases hfinished.symm.trans hgone.1
    refine ⟨m, value, since, hm, h, Nat.le_of_not_lt fun hyoung ↦ ?_⟩
    have hnot : ¬ (before run i).Takes (.evict ttl now) handle since := by
      rintro (⟨_, ⟨⟩⟩ | ⟨_, _, ⟨⟩, hwaited⟩)
      omega
    have hlater := (hfresh.sound i).waits_step (hfresh.not_mem he) hwaits hnot
    rw [← stateAt_succ step empty he] at hlater
    cases hlater.phase.symm.trans hgone
  · rintro ⟨m, value, since, hm, h, hold⟩
    exact h.gone_of_sweep hfresh hm he hold

/-- Sweeps take the results that have waited their full time, and nothing else. Work that runs is
never touched by a sweep: it stops running when its own worker ends, and then its value is there. A
result that was published with the time `since` is available as long as nobody has got it and no
sweep has come at `since + ttl` or later; after such a sweep there is nothing under its handle, at
any time. A sweep takes just the results that have come to this age, returns how many they are, and
changes the answer under no other handle; a sweep with no lifetime takes all results that wait. -/
theorem sweeps_take_aged (hfresh : Fresh run) (htimely : Timely run) (handle : String) :
    (∀ i j, i ≤ j → (before run i).phase handle = .running →
      (before run j).phase handle = .running ∨ ∃ m, i ≤ m ∧ m < j ∧
        ((∃ value since, Finishes run m handle value since) ∨
          (∃ now, run[m]? = some (.work handle none now)) ∧
            (before run (m + 1)).phase handle = .gone)) ∧
    (∀ m value since, Finishes run m handle value since →
      (∀ j, m < j →
        (∀ k e value', m < k → k < j → run[k]? = some e →
          (before run k).delivery? e ≠ some (handle, value')) →
        (∀ k ttl now, m < k → k < j → run[k]? = some (.evict ttl now) → now < since + ttl) →
        (before run j).results.isReady handle = .ok true ∧
          ((before run j).results.fetch handle).1 = .ok value) ∧
      ∀ k ttl now, m < k → run[k]? = some (.evict ttl now) → since + ttl ≤ now → ∀ j, k < j →
        (before run j).results.isReady handle = .error (.notFound handle) ∧
          (before run j).results.fetch handle =
            (.error (.notFound handle), (before run j).results)) ∧
    ∀ i ttl now, run[i]? = some (.evict ttl now) →
      ((before run i).phase handle = .finished ∧ (before run (i + 1)).phase handle = .gone ↔
        (before run i).phase handle = .finished ∧
          ∃ m value since, m < i ∧ Finishes run m handle value since ∧ since + ttl ≤ now) ∧
      ((before run i).results.evicted ttl now =
        ((before run i).issued.filter fun other ↦ decide ((before run i).phase other = .finished ∧
          (before run (i + 1)).phase other = .gone)).length) ∧
      (¬ ((before run i).phase handle = .finished ∧ (before run (i + 1)).phase handle = .gone) →
        (before run (i + 1)).results.isReady handle = (before run i).results.isReady handle ∧
          ((before run (i + 1)).results.fetch handle).1 =
            ((before run i).results.fetch handle).1) ∧
      (ttl = 0 → (before run (i + 1)).phase handle =
        if (before run i).phase handle = .finished then .gone else (before run i).phase handle) := by
  refine ⟨fun i j hij hrunning ↦ hfresh.running_or_ends hrunning hij,
    fun m value since h ↦ ⟨fun j hlt hkept hyoung ↦ ?_, fun k ttl now hlt he hold j hkj ↦ ?_⟩,
    fun i ttl now he ↦ ?_⟩
  · exact (h.available hfresh htimely hlt hkept hyoung).fetch
  · exact (hfresh.sound j).fetch_of_gone
      (hfresh.phase_eq_gone hkj (h.gone_of_sweep hfresh hlt he hold))
  · have hnext : before run (i + 1) = (before run i).step (.evict ttl now) :=
      stateAt_succ step empty he
    refine ⟨hfresh.swept_iff htimely he, ?_, fun hspared ↦ ?_, ?_⟩
    · rw [hnext]
      exact (hfresh.sound i).evicted_eq ttl now
    · rw [hnext] at hspared ⊢
      rcases (hfresh.sound i).phase_evict ttl now handle with ⟨-, htask⟩ |
        ⟨hgone, value, since, hwaits, -⟩
      · exact ⟨isReady_congr htask, fetch_congr htask⟩
      · exact absurd ⟨hwaits.phase, hgone⟩ hspared
    · rintro rfl
      rw [hnext]
      split
      · rename_i hfinished
        obtain ⟨value, since, hwaits⟩ := (hfresh.sound i).exists_waits hfinished
        exact (hfresh.sound i).gone_of_takes hwaits (Or.inr ⟨0, now, rfl, Nat.zero_le _⟩)
      · rename_i hnot
        rcases (hfresh.sound i).phase_evict 0 now handle with ⟨hsame, -⟩ |
          ⟨-, value, since, hwaits, -⟩
        · exact hsame
        · exact absurd hwaits.phase hnot

/-- A result whose time is 3 outlives a sweep with the lifetime 5 at 7 and does not outlive one at
8, and work that still runs outlives both. -/
theorem sweeps_take_aged_boundary :
    let aged := Deferred.handle "get" (Uuid.text 0 0)
    let running := Deferred.handle "get" (Uuid.text 0 1)
    let run : List (Event Nat) := [.submit "get" (Uuid.text 0 0), .submit "get" (Uuid.text 0 1),
      .work aged (some 7) 2, .work aged none 3, .work aged none 4, .evict 5 7, .isReady aged,
      .evict 5 8]
    Fresh run ∧ Timely run ∧ Finishes run 4 aged 7 3 ∧
      (before run 7).results.isReady aged = .ok true ∧ (before run 7).results.evicted 5 8 = 1 ∧
      (before run 8).results.isReady aged = .error (.notFound aged) ∧
      (before run 8).phase running = .running := by
  intro aged running run
  have hfresh : Fresh run := by
    constructor
    · intro label token hmem
      simp only [run, List.mem_cons, Event.submit.injEq, reduceCtorEq, List.not_mem_nil,
        or_false] at hmem
      rcases hmem with ⟨_, rfl⟩ | ⟨_, rfl⟩
      · exact ⟨0, 0, rfl⟩
      · exact ⟨0, 1, rfl⟩
    · decide +kernel
  have htimely : Timely run := by
    unfold Timely
    decide +kernel
  have hfinishes : Finishes run 4 aged 7 3 :=
    ⟨⟨none, 4, rfl⟩, rfl, 3, none, by decide, rfl, rfl⟩
  have hkept : ∀ k e (value' : Nat), 4 < k → k < 7 → run[k]? = some e →
      (before run k).delivery? e ≠ some (aged, value') := by
    intro k e value' hk hj he
    obtain rfl | rfl : k = 5 ∨ k = 6 := by omega
    · cases he
      nofun
    · cases he
      nofun
  have hyoung : ∀ k ttl now, 4 < k → k < 7 → run[k]? = some (.evict ttl now) → now < 3 + ttl := by
    intro k ttl now hk hj he
    obtain rfl | rfl : k = 5 ∨ k = 6 := by omega
    · cases he
      decide
    · cases he
  obtain ⟨-, hwaits, hsweep⟩ := sweeps_take_aged hfresh htimely aged
  obtain ⟨havailable, hgone⟩ := hwaits 4 7 3 hfinishes
  obtain ⟨-, hcount, -, -⟩ := hsweep 7 5 8 rfl
  refine ⟨hfresh, htimely, hfinishes, (havailable 7 (by decide) hkept hyoung).1, hcount.trans ?_,
    (hgone 7 5 8 (by decide) rfl (by decide) 8 (by decide)).1, ?_⟩
  · decide +kernel
  · decide +kernel

end Office
end Depot.Deferred
