import Depot.Proofs.Deferred.Office

/-!
# What an event does to a handle

A handle moves through its phases in one direction only (`Moves`), and what the registry answers is
decided by the phase alone: a result can be fetched exactly while it waits, it is the value that the
worker of this handle came back with, and then there is nothing behind the handle any more. An event
that is about one handle leaves all others where they are (`step_other`), and the size of the
registry accounts for every handle that comes and goes (`Sound.size_step`).
-/

set_option autoImplicit false
set_option relaxedAutoImplicit false

namespace Depot.Deferred

variable {α : Type}

/-- The value that a worker came back with. -/
def Worker.value? : Worker α → Option α
  | working => none
  | deposited value => some value
  | stamped value => some value
  | ended value? => value?

/-- A worker has the value that its work came back with, and keeps it. -/
theorem Worker.value?_next {w : Worker α} {value? : Option α} {value : α} :
    (w.next value?).value? = some value ↔
      w.value? = some value ∨ w = .working ∧ value? = some value := by
  cases w with
  | working => cases value? <;> simp [next, Worker.value?]
  | deposited _ => simp [next, Worker.value?]
  | stamped _ => simp [next, Worker.value?]
  | ended _ => simp [next, Worker.value?]

/-- How far a handle has come; nothing ever goes back. -/
def Office.Phase.rank : Office.Phase → Nat
  | unknown => 0
  | running => 1
  | finished => 2
  | gone => 3

/-- What is answered to whoever asks for the result of a handle in this phase. -/
def Office.Phase.isReady (handle : String) : Office.Phase → Except HandleFault Bool
  | running => .ok false
  | finished => .ok true
  | _ => .error (.notFound handle)

namespace Office

variable {o : Office α} {e : Event α} {handle other : String}

/-! ## What a phase answers -/

theorem Sound.isReady_eq (ho : o.Sound) (handle : String) :
    o.results.isReady handle = (o.phase handle).isReady handle := by
  have hview := ho.view handle
  generalize o.phase handle = phase at hview
  cases hview with
  | unknown _ htask => exact isReady_of_none htask
  | running _ t _ htask _ hready => rw [isReady_of_some htask, hready, Phase.isReady]
  | finished _ _ _ htask => exact isReady_of_some htask
  | gone _ _ htask => exact isReady_of_none htask

/-- A fetch gives the value of the worker if the result waits, and changes nothing otherwise. -/
theorem Sound.fetch_cases (ho : o.Sound) (handle : String) :
    (∃ value, o.phase handle = .finished ∧
      o.workers.get? handle = some (.ended (some value)) ∧
      o.results.fetch handle = (.ok value, o.results.abandon handle)) ∨
    (o.phase handle = .running ∧
      o.results.fetch handle = (.error (.notReady handle), o.results)) ∨
    ((o.phase handle = .unknown ∨ o.phase handle = .gone) ∧
      o.results.fetch handle = (.error (.notFound handle), o.results)) := by
  have hview := ho.view handle
  generalize o.phase handle = phase at hview
  cases hview with
  | unknown _ htask => exact Or.inr (Or.inr ⟨Or.inl rfl, fetch_of_none htask⟩)
  | running _ t _ htask _ hready =>
    exact Or.inr (Or.inl ⟨rfl, fetch_of_not_ready htask hready⟩)
  | finished value _ hworker htask =>
    exact Or.inl ⟨value, rfl, hworker, (fetch_of_ready htask rfl).trans (take_of_some htask)⟩
  | gone _ _ htask => exact Or.inr (Or.inr ⟨Or.inr rfl, fetch_of_none htask⟩)

/-- What a fetch gives is what somebody who asks is told. -/
theorem Sound.fetch_eq_ok_iff (ho : o.Sound) (handle : String) :
    (∃ value, (o.results.fetch handle).1 = .ok value) ↔ o.results.isReady handle = .ok true := by
  rw [ho.isReady_eq]
  rcases ho.fetch_cases handle with ⟨value, hphase, _, hfetch⟩ | ⟨hphase, hfetch⟩ |
    ⟨hphase | hphase, hfetch⟩ <;> simp [hphase, hfetch, Phase.isReady]

theorem Sound.fetch_eq_notReady_iff (ho : o.Sound) (handle : String) :
    (o.results.fetch handle).1 = .error (.notReady handle) ↔
      o.results.isReady handle = .ok false := by
  rw [ho.isReady_eq]
  rcases ho.fetch_cases handle with ⟨value, hphase, _, hfetch⟩ | ⟨hphase, hfetch⟩ |
    ⟨hphase | hphase, hfetch⟩ <;> simp [hphase, hfetch, Phase.isReady]

/-- A fetch that gives no result changes nothing. -/
theorem Sound.fetch_error (ho : o.Sound) {f : HandleFault}
    (h : (o.results.fetch handle).1 = .error f) : (o.results.fetch handle).2 = o.results := by
  rcases ho.fetch_cases handle with ⟨value, _, _, hfetch⟩ | ⟨_, hfetch⟩ | ⟨_, hfetch⟩
  · rw [hfetch] at h
    cases h
  · rw [hfetch]
  · rw [hfetch]

/-- Whoever has seen a result and takes it later gets what a fetch at this moment gets. -/
theorem Sound.take_eq_fetch (ho : o.Sound) (hreaching : handle ∈ o.reaching) :
    o.results.take handle = o.results.fetch handle := by
  obtain ⟨value, hworker⟩ := ho.reached handle hreaching
  cases htask : o.results.tasks.get? handle with
  | none => rw [take_of_none htask, fetch_of_none htask]
  | some t =>
    obtain ⟨w, hw, hshows⟩ := ho.shown handle t htask
    obtain rfl := Option.some.inj (hworker.symm.trans hw)
    cases hshows
    exact (fetch_of_ready htask rfl).symm

/-! ## One step -/

/-- An event that is about one handle changes nothing about another. -/
theorem step_other (he : e.handle? = some other) (hne : other ≠ handle) :
    (o.step e).workers.get? handle = o.workers.get? handle ∧
      (o.step e).results.tasks.get? handle = o.results.tasks.get? handle := by
  cases e with
  | submit label token =>
    cases he
    exact ⟨Table.get?_insert_of_ne _ hne _, (get?_submit _ _ _).trans (if_neg hne)⟩
  | work _ value? now =>
    cases he
    cases hworker : o.workers.get? other with
    | none => simp only [step, hworker, and_self]
    | some w =>
      rw [step_work hworker]
      exact ⟨Table.get?_insert_of_ne _ hne _, Worker.get?_act_of_ne hne value? now⟩
  | isReady _ => exact ⟨rfl, rfl⟩
  | fetch _ =>
    cases he
    exact ⟨rfl, get?_fetch_of_ne hne⟩
  | look _ =>
    rw [step]
    split <;> exact ⟨rfl, rfl⟩
  | take _ =>
    cases he
    rw [step]
    split
    · exact ⟨rfl, get?_take_of_ne hne⟩
    · exact ⟨rfl, rfl⟩
  | evict => cases he

/-- How one event moves a handle from one phase to another. -/
inductive Moves (o : Office α) (handle : String) : Event α → Phase → Phase → Prop
  | stay (e : Event α) (phase : Phase) : Moves o handle e phase phase
  | submit (label token : String) (hhandle : Deferred.handle label token = handle) :
      Moves o handle (.submit label token) .unknown .running
  | publish (value : α) (value? : Option α) (now : Nat)
      (hworker : o.workers.get? handle = some (.stamped value)) :
      Moves o handle (.work handle value? now) .running .finished
  | fail (now : Nat) (hworker : o.workers.get? handle = some .working) :
      Moves o handle (.work handle none now) .running .gone
  | fetch : Moves o handle (.fetch handle) .finished .gone
  | take (hreaching : handle ∈ o.reaching) : Moves o handle (.take handle) .finished .gone
  | evict (value : α) (since ttl now : Nat)
      (htask : o.results.tasks.get? handle = some ⟨some value, some since, true⟩)
      (hwaited : ttl ≤ now - since) : Moves o handle (.evict ttl now) .finished .gone

theorem phase_congr {o' : Office α} (hworker : o'.workers.get? handle = o.workers.get? handle)
    (htask : o'.results.tasks.get? handle = o.results.tasks.get? handle) :
    o'.phase handle = o.phase handle := by
  rw [phase, hworker, Table.contains, htask]
  rfl

theorem phase_eq_finished {value? : Option α} {t : Task α}
    (hworker : o.workers.get? handle = some (.ended value?))
    (htask : o.results.tasks.get? handle = some t) : o.phase handle = .finished := by
  rw [phase_of_ended hworker, Table.contains, htask]
  rfl

theorem phase_eq_gone {value? : Option α} (hworker : o.workers.get? handle = some (.ended value?))
    (htask : o.results.tasks.get? handle = none) : o.phase handle = .gone := by
  rw [phase_of_ended hworker, Table.contains, htask]
  rfl

theorem Sound.phase_eq_unknown_iff (ho : o.Sound) (handle : String) :
    o.phase handle = .unknown ↔ handle ∉ o.issued := by
  rw [ho.worker]
  have hview := ho.view handle
  generalize o.phase handle = phase at hview
  cases hview with
  | unknown hworker => simp [hworker]
  | running w t hworker => simp [hworker]
  | finished value since hworker => simp [hworker]
  | gone value? hworker => simp [hworker]

theorem Sound.phase_eq_running_iff (ho : o.Sound) (handle : String) : o.phase handle = .running ↔
    ∃ w, o.workers.get? handle = some w ∧ ∀ value?, w ≠ .ended value? := by
  have hview := ho.view handle
  generalize o.phase handle = phase at hview
  cases hview with
  | unknown hworker => simp [hworker]
  | running w t hworker _ _ _ hover => simpa [hworker] using hover
  | finished value since hworker => simp [hworker]
  | gone value? hworker => simp [hworker]

/-- A result that is given out is gone, and everything else stays where it is. -/
theorem Sound.moves_of_fetch (ho : o.Sound) (o' : Office α) (hworkers : o'.workers = o.workers)
    (hresults : o'.results = (o.results.fetch handle).2) :
    o'.phase handle = o.phase handle ∨ o.phase handle = .finished ∧ o'.phase handle = .gone := by
  rcases ho.fetch_cases handle with ⟨value, hphase, hworker, hfetch⟩ | ⟨_, hfetch⟩ | ⟨_, hfetch⟩
  · have hover : o'.workers.get? handle = some (.ended (some value)) := by rw [hworkers, hworker]
    refine Or.inr ⟨hphase, phase_eq_gone hover ?_⟩
    rw [hresults, hfetch, get?_abandon, if_pos rfl]
  · exact Or.inl (phase_congr (by rw [hworkers]) (by rw [hresults, hfetch]))
  · exact Or.inl (phase_congr (by rw [hworkers]) (by rw [hresults, hfetch]))

theorem Sound.moves_work (ho : o.Sound) (value? : Option α) (now : Nat) :
    Moves o handle (.work handle value? now) (o.phase handle)
      ((o.step (.work handle value? now)).phase handle) := by
  have hview := ho.view handle
  generalize hphase : o.phase handle = phase at hview
  cases hview with
  | unknown hworker =>
    have hsame : o.step (.work handle value? now) = o := by simp only [Office.step, hworker]
    rw [hsame, hphase]
    exact .stay _ _
  | finished _ _ hworker =>
    rw [step_work_of_ended hworker, hphase]
    exact .stay _ _
  | gone _ hworker =>
    rw [step_work_of_ended hworker, hphase]
    exact .stay _ _
  | running w t hworker htask hshows _ hnot =>
    have hstep := step_work hworker value? now
    have hnext : (o.step (.work handle value? now)).workers.get? handle = some (w.next value?) := by
      rw [hstep]
      exact Table.get?_insert_self _ _ _
    have hact := hshows.act htask value? now
    have hresults : w.act handle value? now o.results =
        (o.step (.work handle value? now)).results := by rw [hstep]
    rw [hresults] at hact
    cases hshows with
    | working =>
      cases value? with
      | none =>
        obtain ⟨_, ht, h⟩ | ⟨_, hnone⟩ := hact
        · cases h
        · rw [phase_eq_gone hnext hnone]
          exact .fail now hworker
      | some value =>
        rw [phase_of_not_ended hnext (by simp [Worker.next])]
        exact .stay _ _
    | deposited value =>
      rw [phase_of_not_ended hnext (by simp [Worker.next])]
      exact .stay _ _
    | stamped value since =>
      obtain ⟨_, ht, _⟩ | ⟨hover, _⟩ := hact
      · rw [phase_eq_finished hnext ht]
        exact .publish value value? now hworker
      · cases hover
    | ended value since => exact absurd rfl (hnot (some value))

/-- A sweep takes results that have waited, and nothing else. -/
theorem Sound.moves_evict (ho : o.Sound) (ttl now : Nat) :
    Moves o handle (.evict ttl now) (o.phase handle) ((o.step (.evict ttl now)).phase handle) := by
  by_cases hkeep : ∀ t, o.results.tasks.get? handle = some t → outlives ttl now t = true
  · have hsame : (o.step (.evict ttl now)).phase handle = o.phase handle :=
      phase_congr rfl <| Option.ext fun t ↦
        get?_evict_eq_some_iff.trans ⟨And.left, fun ht ↦ ⟨ht, hkeep t ht⟩⟩
    rw [hsame]
    exact .stay _ _
  · obtain ⟨t, ht⟩ := Classical.not_forall.1 hkeep
    obtain ⟨htask, hdrop⟩ := Classical.not_imp.1 ht
    have hview := ho.view handle
    generalize hphase : o.phase handle = phase at hview
    cases hview with
    | unknown _ hnone =>
      rw [hnone] at htask
      cases htask
    | gone _ _ hnone =>
      rw [hnone] at htask
      cases htask
    | running w t' hworker ht' hshows hready =>
      obtain rfl := Option.some.inj (ht'.symm.trans htask)
      exact absurd (outlives_of_not_ready hready) hdrop
    | finished value since hworker ht' =>
      obtain rfl := Option.some.inj (ht'.symm.trans htask)
      have hgone : (o.step (.evict ttl now)).phase handle = .gone := by
        refine phase_eq_gone hworker (Option.eq_none_iff_forall_ne_some.2 fun t ht ↦ hdrop ?_)
        obtain ⟨hold, hlives⟩ := get?_evict_eq_some_iff.1 ht
        obtain rfl := Option.some.inj (ht'.symm.trans hold)
        exact hlives
      rw [hgone]
      exact .evict value since ttl now ht' (by simpa [outlives] using hdrop)

/-- Every event moves every handle forward, if at all. -/
theorem Sound.moves (ho : o.Sound)
    (hfresh : ∀ label token, e = .submit label token → Deferred.handle label token ∉ o.issued)
    (handle : String) : Moves o handle e (o.phase handle) ((o.step e).phase handle) := by
  by_cases hother : ∃ other, e.handle? = some other ∧ other ≠ handle
  · obtain ⟨other, he, hne⟩ := hother
    obtain ⟨hworker, htask⟩ := step_other (o := o) he hne
    rw [phase_congr hworker htask]
    exact .stay e _
  have hself : ∀ other, e.handle? = some other → other = handle :=
    fun other he ↦ Decidable.byContradiction fun hne ↦ hother ⟨other, he, hne⟩
  cases e with
  | submit label token =>
    obtain rfl := hself _ rfl
    obtain ⟨hnone, _⟩ := ho.get?_of_not_mem (hfresh label token rfl)
    have hbefore : o.phase (Deferred.handle label token) = .unknown := by rw [phase, hnone]
    rw [hbefore, phase_of_not_ended (w := .working) (Table.get?_insert_self _ _ _) (by simp)]
    exact .submit label token rfl
  | work _ value? now =>
    obtain rfl := (hself _ rfl).symm
    exact ho.moves_work value? now
  | isReady _ => exact .stay _ _
  | look _ =>
    rw [Office.step]
    split <;> exact .stay _ _
  | fetch _ =>
    obtain rfl := (hself _ rfl).symm
    rcases ho.moves_of_fetch (o.step (.fetch handle)) rfl rfl with hsame | ⟨hbefore, hafter⟩
    · rw [hsame]
      exact .stay _ _
    · rw [hbefore, hafter]
      exact .fetch
  | take _ =>
    obtain rfl := (hself _ rfl).symm
    by_cases hreaching : handle ∈ o.reaching
    · have hstep : o.step (.take handle) = { o with
          results := (o.results.take handle).2
          reaching := o.reaching.erase handle } := if_pos hreaching
      have hresults : (o.step (.take handle)).results = (o.results.fetch handle).2 := by
        rw [hstep, ho.take_eq_fetch hreaching]
      have hworkers : (o.step (.take handle)).workers = o.workers := by rw [hstep]
      rcases ho.moves_of_fetch _ hworkers hresults with hsame | ⟨hbefore, hafter⟩
      · rw [hsame]
        exact .stay _ _
      · rw [hbefore, hafter]
        exact .take hreaching
    · rw [Office.step, if_neg hreaching]
      exact .stay _ _
  | evict ttl now => exact ho.moves_evict ttl now

theorem Moves.rank_le {phase phase' : Phase} (h : Moves o handle e phase phase') :
    phase.rank ≤ phase'.rank := by
  cases h with
  | stay => exact Nat.le_refl _
  | _ => decide

/-! ## What is delivered -/

/-- The result that an event gives to somebody, and its handle. -/
def delivery? (o : Office α) : Event α → Option (String × α)
  | .fetch handle => (o.results.fetch handle).1.toOption.map (handle, ·)
  | .take handle =>
    if handle ∈ o.reaching then (o.results.take handle).1.toOption.map (handle, ·) else none
  | _ => none

/-- A result that a fetch would give is the value of the worker of this handle. -/
theorem Sound.worker_of_fetch (ho : o.Sound) {value : α}
    (h : (o.results.fetch handle).1 = .ok value) :
    o.workers.get? handle = some (.ended (some value)) := by
  rcases ho.fetch_cases handle with ⟨v, _, hworker, hfetch⟩ | ⟨_, hfetch⟩ | ⟨_, hfetch⟩
  · rw [hfetch] at h
    cases h
    exact hworker
  · rw [hfetch] at h
    cases h
  · rw [hfetch] at h
    cases h

/-- What is delivered is a result that waited; it is the value of its worker, and is gone then. -/
theorem Sound.of_delivery? (ho : o.Sound) {value : α} (h : o.delivery? e = some (handle, value)) :
    o.phase handle = .finished ∧ o.workers.get? handle = some (.ended (some value)) ∧
      (o.step e).results = o.results.abandon handle ∧ (o.step e).workers = o.workers := by
  have hfetched : ∀ taken, (o.results.fetch taken).1.toOption.map (taken, ·) =
      some (handle, value) → o.phase handle = .finished ∧
        o.workers.get? handle = some (.ended (some value)) ∧
        (o.results.fetch taken).2 = o.results.abandon handle := by
    intro taken hgiven
    rcases ho.fetch_cases taken with ⟨v, hphase, hworker, hfetch⟩ | ⟨_, hfetch⟩ | ⟨_, hfetch⟩
    · rw [hfetch] at hgiven ⊢
      obtain ⟨rfl, rfl⟩ := Prod.mk.inj (Option.some.inj hgiven)
      exact ⟨hphase, hworker, rfl⟩
    · rw [hfetch] at hgiven
      cases hgiven
    · rw [hfetch] at hgiven
      cases hgiven
  cases e with
  | fetch taken =>
    obtain ⟨hphase, hworker, hresults⟩ := hfetched taken h
    exact ⟨hphase, hworker, hresults, rfl⟩
  | take taken =>
    by_cases hreaching : taken ∈ o.reaching
    · rw [delivery?, if_pos hreaching, ho.take_eq_fetch hreaching] at h
      obtain ⟨hphase, hworker, hresults⟩ := hfetched taken h
      rw [Office.step, if_pos hreaching]
      exact ⟨hphase, hworker, (by rw [ho.take_eq_fetch hreaching]; exact hresults), rfl⟩
    · rw [delivery?, if_neg hreaching] at h
      cases h
  | _ => cases h

theorem Sound.phase_of_delivery? (ho : o.Sound) {value : α}
    (h : o.delivery? e = some (handle, value)) : (o.step e).phase handle = .gone := by
  obtain ⟨_, hworker, hresults, hworkers⟩ := ho.of_delivery? h
  have hover : (o.step e).workers.get? handle = some (.ended (some value)) := by
    rw [hworkers, hworker]
  refine phase_eq_gone hover ?_
  rw [hresults, get?_abandon, if_pos rfl]

/-! ## How many there are -/

/-- How many results an event delivers. -/
def delivered (o : Office α) (e : Event α) : Nat := (o.delivery? e).toList.length

/-- How many handles an event takes away because their work will never come back. -/
def failed (o : Office α) : Event α → Nat
  | .work handle none _ =>
    match o.workers.get? handle with
    | some .working => 1
    | _ => 0
  | _ => 0

/-- How many results an event takes away because they waited too long. -/
def swept (o : Office α) : Event α → Nat
  | .evict ttl now => o.results.evicted ttl now
  | _ => 0

theorem size_abandon {d : Deferred α} {t : Task α} (h : d.tasks.get? handle = some t) :
    (d.abandon handle).size + 1 = d.size :=
  Table.size_erase_of_some h

theorem Sound.size_fetch (ho : o.Sound) (handle : String) : (o.results.fetch handle).2.size +
    ((o.results.fetch handle).1.toOption.map (handle, ·)).toList.length = o.results.size := by
  rcases ho.fetch_cases handle with ⟨value, hphase, _, hfetch⟩ | ⟨_, hfetch⟩ | ⟨_, hfetch⟩
  · rw [hfetch]
    have hview := ho.view handle
    rw [hphase] at hview
    cases hview with
    | finished _ _ _ htask => exact size_abandon htask
  · rw [hfetch]
    rfl
  · rw [hfetch]
    rfl

theorem issued_work (value? : Option α) (now : Nat) :
    (o.step (.work handle value? now)).issued = o.issued := by
  rw [step]
  split <;> rfl

theorem failed_work_of_ne {w : Worker α} (hworker : o.workers.get? handle = some w)
    (hnot : w ≠ .working) (value? : Option α) (now : Nat) :
    o.failed (.work handle value? now) = 0 := by
  cases value? with
  | some value => rfl
  | none =>
    simp only [failed, hworker]
    cases w with
    | working => exact absurd rfl hnot
    | _ => rfl

theorem Sound.size_work (ho : o.Sound) (handle : String) (value? : Option α) (now : Nat) :
    (o.step (.work handle value? now)).results.size + o.failed (.work handle value? now) =
      o.results.size := by
  obtain ⟨_, hview⟩ : ∃ phase, o.View handle phase := ⟨_, ho.view handle⟩
  cases hview with
  | unknown hworker => cases value? <;> simp only [Office.step, failed, hworker, Nat.add_zero]
  | finished _ _ hworker =>
    rw [step_work_of_ended hworker, failed_work_of_ne hworker (by simp), Nat.add_zero]
  | gone _ hworker =>
    rw [step_work_of_ended hworker, failed_work_of_ne hworker (by simp), Nat.add_zero]
  | running w t hworker htask hshows _ hnot =>
    rw [step_work hworker]
    cases hshows with
    | working =>
      cases value? with
      | none =>
        simp only [failed, hworker]
        exact size_abandon htask
      | some value => exact size_update _ _ _
    | deposited value =>
      rw [failed_work_of_ne hworker (by simp), Nat.add_zero]
      exact size_update _ _ _
    | stamped value since =>
      rw [failed_work_of_ne hworker (by simp), Nat.add_zero]
      exact size_update _ _ _
    | ended value since => exact absurd rfl (hnot (some value))

/-- Every event accounts for the handles that it registers and takes away. -/
theorem Sound.size_step (ho : o.Sound)
    (hfresh : ∀ label token, e = .submit label token → Deferred.handle label token ∉ o.issued) :
    (o.step e).results.size + o.delivered e + o.failed e + o.swept e + o.issued.length =
      o.results.size + (o.step e).issued.length := by
  cases e with
  | submit label token =>
    obtain ⟨_, hnone⟩ := ho.get?_of_not_mem (hfresh label token rfl)
    have hsize : (o.step (.submit label token)).results.size = o.results.size + 1 :=
      Table.size_insert_of_none hnone _
    have hissued : (o.step (.submit label token)).issued.length = o.issued.length + 1 :=
      List.length_append
    rw [hsize, hissued]
    simp only [delivered, delivery?, failed, swept, Option.toList_none, List.length_nil]
    omega
  | work handle value? now =>
    have hsize := ho.size_work handle value? now
    change (o.step (.work handle value? now)).results.size + 0 +
      o.failed (.work handle value? now) + 0 + _ = _
    rw [issued_work]
    omega
  | isReady handle => rfl
  | fetch handle =>
    have hsize := ho.size_fetch handle
    change (o.results.fetch handle).2.size +
      ((o.results.fetch handle).1.toOption.map (handle, ·)).toList.length +
        o.issued.length = o.results.size + o.issued.length
    rw [hsize]
  | look handle =>
    rw [Office.step]
    split <;> rfl
  | take handle =>
    by_cases hreaching : handle ∈ o.reaching
    · have hsize := ho.size_fetch handle
      rw [Office.step, delivered, delivery?, if_pos hreaching, if_pos hreaching,
        ho.take_eq_fetch hreaching]
      change (o.results.fetch handle).2.size +
        ((o.results.fetch handle).1.toOption.map (handle, ·)).toList.length +
          o.issued.length = o.results.size + o.issued.length
      rw [hsize]
    · rw [Office.step, delivered, delivery?, if_neg hreaching, if_neg hreaching]
      rfl
  | evict ttl now =>
    have hle : (o.results.evict ttl now).size ≤ o.results.size := Table.size_filter_le _ _
    change (o.results.evict ttl now).size + 0 + 0 + (o.results.size -
      (o.results.evict ttl now).size) + o.issued.length = o.results.size + o.issued.length
    omega

end Office
end Depot.Deferred
