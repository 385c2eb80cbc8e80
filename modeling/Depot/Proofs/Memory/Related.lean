import Depot.Proofs.Memory.Hub

/-!
# Two stores side by side

Statements about two runs compare two hubs bucket by bucket: `Related R` says that both have the
same links, and buckets at the same sites that `R` holds between. What an action does to a hub it
does to each bucket by itself (`Bucketwise`), and which function that is depends on the links alone.
So a relation is kept when the two functions keep it at every site, and a call is answered alike
over both hubs when the two buckets at its site answer it alike.
-/

set_option autoImplicit false
set_option relaxedAutoImplicit false

namespace Depot.Memory

/-! ## Buckets in a store -/

namespace Store

variable {p : Policy}

/-- Connecting a link gives the same connection in every store, and creates at most one bucket. -/
theorem establish_eq (p : Policy) (args : Link.Args) : ∃ connection site?, ∀ s,
    (backend p).establish args s =
      (connection, Option.elim site? s fun site ↦ ensure p site s) := by
  cases hhost : Address.host? args.connection with
  | none =>
    refine ⟨.unavailable (Fault.message (.invalidArgument
      s!"unsupported connection string: {args.connection}")), none, fun s ↦ ?_⟩
    exact establish_of_error (by rw [connect, hhost]; rfl)
  | some host =>
    cases haccepts : p.accepts args with
    | true =>
      refine ⟨(opened p ⟨host, args.bucket⟩ (.ofNames args.keyspace?)).connection,
        some ⟨host, args.bucket⟩, fun s ↦ establish_of_ok ?_⟩
      simp only [connect, hhost, haccepts, if_true]
      rfl
    | false =>
      refine ⟨.unavailable (Fault.message .authentication), none, fun s ↦
        establish_of_error ?_⟩
      simp only [connect, hhost, haccepts, Bool.false_eq_true, if_false]
      rfl

theorem get?_ensure_eq (p : Policy) (site other : Site) (s : Store) :
    (ensure p site s).get? other =
      if site = other then
        some ((s.get? site).getD (.create site.bucket p.replicas (p.seeds s.size)))
      else s.get? other := by
  unfold ensure Table.contains
  cases hold : s.get? site with
  | some b =>
    by_cases hsite : site = other
    · subst hsite
      simp [hold]
    · simp [hsite]
  | none => simp [Table.get?_insert]

theorem size_ensure (p : Policy) (site : Site) (s : Store) :
    (ensure p site s).size = s.size + if (s.get? site).isSome then 0 else 1 := by
  unfold ensure Table.contains
  cases hold : s.get? site with
  | some b => simp
  | none => simpa using Table.size_insert_of_none hold _

/-- A call moves the bucket at its site, and no other. -/
theorem get?_step (k : Collection) (now : Nat) (c : Call) (s : Store) (site : Site) :
    (step k now c s).2.get? site = if k.site = site then
      (s.get? site).map fun b ↦ b.handle ⟨k.keyspace, now, c⟩ else s.get? site := by
  cases hb : s.get? k.site with
  | none =>
    rw [step_of_none hb]
    split
    · rename_i hsite
      rw [← hsite, hb]
      rfl
    · rfl
  | some b =>
    cases hstep : b.step k.keyspace now c with
    | error f =>
      have hhandle : b.handle ⟨k.keyspace, now, c⟩ = b := by
        simp only [Bucket.handle, Bucket.answer, hstep]
      rw [step_of_error hb hstep]
      split
      · rename_i hsite
        rw [← hsite, hb, Option.map_some, hhandle]
      · rfl
    | ok done =>
      obtain ⟨a, b'⟩ := done
      have hhandle : b.handle ⟨k.keyspace, now, c⟩ = b' := by
        simp only [Bucket.handle, Bucket.answer, hstep]
      rw [step_of_ok hb hstep]
      split
      · rename_i hsite
        rw [← hsite, Table.get?_insert_self, hb, Option.map_some, hhandle]
      · rename_i hsite
        exact Table.get?_insert_of_ne _ hsite _

theorem size_step (k : Collection) (now : Nat) (c : Call) (s : Store) :
    (step k now c s).2.size = s.size := by
  cases hb : s.get? k.site with
  | none => rw [step_of_none hb]
  | some b =>
    cases hstep : b.step k.keyspace now c with
    | error f => rw [step_of_error hb hstep]
    | ok done =>
      rw [step_of_ok hb hstep]
      exact Table.size_insert_of_some hb _

end Store

namespace Hub

variable {p : Policy} {h h' h₁ h₁' : Hub}

/-! ## Bucket by bucket -/

/-- The hub `h₁` is `h` with every bucket changed by the function of its site. -/
structure Bucketwise (f : Site → Bucket → Bucket) (h h₁ : Hub) : Prop where
  links : h₁.links = h.links
  size : h₁.store.size = h.store.size
  bucket : ∀ site, h₁.store.get? site = (h.store.get? site).map (f site)

theorem Bucketwise.refl (h : Hub) : Bucketwise (fun _ b ↦ b) h h :=
  ⟨rfl, rfl, fun _ ↦ by simp⟩

/-- What becomes of a bucket under a call over a link. -/
def moved (h : Hub) (link now : Nat) (c : Call) (site : Site) (b : Bucket) : Bucket :=
  match h.place? link c.id with
  | some place =>
    if place.site = site then b.handle ⟨place.collection.keyspace, now, c⟩ else b
  | none => b

theorem place?_congr (hlinks : h'.links = h.links) (link : Nat) (id : String) :
    h'.place? link id = h.place? link id := by
  rw [place?, place?, hlinks]

theorem moved_congr (hlinks : h'.links = h.links) (link now : Nat) (c : Call) :
    h'.moved link now c = h.moved link now c := by
  funext site b
  rw [moved, moved, place?_congr hlinks]

theorem bucketwise_call (p : Policy) (h : Hub) (link now : Nat) (c : Call) :
    Bucketwise (h.moved link now c) h (h.act p (.call link now c)) := by
  cases hl : h.links[link]? with
  | none =>
    have hact : h.act p (.call link now c) = h := by rw [act, hl]
    have hmoved : h.moved link now c = fun _ b ↦ b := by
      funext site b
      simp only [moved, place?, hl]
    rw [hact, hmoved]
    exact Bucketwise.refl h
  | some l =>
    obtain ⟨args, k | reason⟩ := l
    · have hact : h.act p (.call link now c) =
          { h with store := (Store.step k now c h.store).2 } := by
        simp only [act, hl]
        rfl
      have hplace : h.place? link c.id = some ⟨k, c.id⟩ := by rw [place?, hl]
      rw [hact]
      refine ⟨rfl, Store.size_step k now c h.store, fun site ↦ ?_⟩
      rw [Store.get?_step]
      unfold moved
      rw [hplace]
      change _ = Option.map (fun b ↦ if k.site = site then _ else b) _
      split
      · rfl
      · simp
    · have hact : h.act p (.call link now c) = h := by
        simp only [act, hl]
        rfl
      have hmoved : h.moved link now c = fun _ b ↦ b := by
        funext site b
        simp only [moved, place?, hl]
      rw [hact, hmoved]
      exact Bucketwise.refl h

/-! ## Two hubs -/

/-- Two hubs with the same links, and with buckets at the same sites that a relation holds
between. -/
structure Related (R : Site → Bucket → Bucket → Prop) (h h' : Hub) : Prop where
  links : h'.links = h.links
  size : h'.store.size = h.store.size
  bucket : ∀ site, Option.Rel (R site) (h.store.get? site) (h'.store.get? site)

variable {R R' : Site → Bucket → Bucket → Prop}

theorem related_self (hrefl : ∀ site b, R site b b) (h : Hub) : Related R h h := by
  refine ⟨rfl, rfl, fun site ↦ ?_⟩
  cases h.store.get? site with
  | none => exact .none
  | some b => exact .some (hrefl site b)

theorem Related.cases (hrelated : Related R h h') (site : Site) :
    h.store.get? site = none ∧ h'.store.get? site = none ∨
      ∃ b b', h.store.get? site = some b ∧ h'.store.get? site = some b' ∧ R site b b' := by
  have hbucket := hrelated.bucket site
  generalize h.store.get? site = b? at hbucket
  generalize h'.store.get? site = b'? at hbucket
  cases hbucket with
  | none => exact Or.inl ⟨rfl, rfl⟩
  | some hR => exact Or.inr ⟨_, _, rfl, rfl, hR⟩

/-- Two functions that take related buckets to related ones take related hubs to related ones. -/
theorem Related.bucketwise {f g : Site → Bucket → Bucket} (hrelated : Related R h h')
    (hleft : Bucketwise f h h₁) (hright : Bucketwise g h' h₁')
    (hstep : ∀ site b b', R site b b' → R' site (f site b) (g site b')) : Related R' h₁ h₁' := by
  refine ⟨?_, ?_, fun site ↦ ?_⟩
  · rw [hright.links, hrelated.links, hleft.links]
  · rw [hright.size, hrelated.size, hleft.size]
  · rw [hleft.bucket, hright.bucket]
    rcases hrelated.cases site with ⟨hb, hb'⟩ | ⟨b, b', hb, hb', hR⟩
    · rw [hb, hb']
      exact .none
    · rw [hb, hb']
      exact .some (hstep site b b' hR)

theorem Related.isSome_get? (hrelated : Related R h h') (site : Site) :
    (h'.store.get? site).isSome = (h.store.get? site).isSome := by
  rcases hrelated.cases site with ⟨hb, hb'⟩ | ⟨b, b', hb, hb', _⟩
  · rw [hb, hb']
  · rw [hb, hb']
    rfl

/-- Connecting a link keeps a relation in which every bucket is related to itself: both stores
create the same bucket, or none. -/
theorem Related.connect (hrefl : ∀ site b, R site b b) (hrelated : Related R h h')
    (args : Link.Args) : Related R (h.act p (.connect args)) (h'.act p (.connect args)) := by
  obtain ⟨connection, site?, hestablish⟩ := Store.establish_eq p args
  have hact : ∀ h : Hub, h.act p (.connect args) =
      ⟨Option.elim site? h.store fun site ↦ Store.ensure p site h.store,
        h.links ++ [(args, connection)]⟩ := by
    intro h
    simp only [act, hestablish]
  rw [hact, hact, hrelated.links]
  cases site? with
  | none => exact ⟨rfl, hrelated.size, hrelated.bucket⟩
  | some site =>
    refine ⟨rfl, ?_, fun other ↦ ?_⟩
    · change (Store.ensure p site h'.store).size = (Store.ensure p site h.store).size
      rw [Store.size_ensure, Store.size_ensure, hrelated.size, hrelated.isSome_get?]
    · change Option.Rel (R other) ((Store.ensure p site h.store).get? other)
        ((Store.ensure p site h'.store).get? other)
      rw [Store.get?_ensure_eq, Store.get?_ensure_eq, hrelated.size]
      by_cases hsite : site = other
      · subst hsite
        rw [if_pos rfl, if_pos rfl]
        rcases hrelated.cases site with ⟨hb, hb'⟩ | ⟨b, b', hb, hb', hR⟩
        · rw [hb, hb']
          exact .some (hrefl site _)
        · rw [hb, hb']
          exact .some hR
      · rw [if_neg hsite, if_neg hsite]
        exact hrelated.bucket other

/-- A call is answered alike over both hubs if the buckets at its site answer it alike. -/
theorem Related.answers_alike (hrelated : Related R h h') {link now : Nat} {c : Call}
    (hanswer : ∀ place b b', h.place? link c.id = some place → R place.site b b' →
      (b'.step place.collection.keyspace now c).map Prod.fst =
        (b.step place.collection.keyspace now c).map Prod.fst) :
    h'.answer? p link now c = h.answer? p link now c := by
  cases hl : h.links[link]? with
  | none =>
    have hl' : h'.links[link]? = none := by rw [hrelated.links, hl]
    simp only [answer?, hl, hl', Option.map_none]
  | some l =>
    have hl' : h'.links[link]? = some l := by rw [hrelated.links, hl]
    obtain ⟨args, k | reason⟩ := l
    · have hplace : h.place? link c.id = some ⟨k, c.id⟩ := by rw [place?, hl]
      have hplace' : h'.place? link c.id = some ⟨k, c.id⟩ := by rw [place?, hl']
      rcases hrelated.cases k.site with ⟨hb, hb'⟩ | ⟨b, b', hb, hb', hR⟩
      · rw [answer?_eq hl (Store.perform_of_step (Store.step_of_none hb)),
          answer?_eq hl' (Store.perform_of_step (Store.step_of_none hb'))]
      · rw [answer?_of_bucket hplace hb, answer?_of_bucket hplace' hb',
          hanswer _ b b' hplace hR]
    · simp only [answer?, hl, hl', Option.map_some]
      rfl

end Hub
end Depot.Memory
