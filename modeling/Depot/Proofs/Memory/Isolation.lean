import Depot.Proofs.Memory.Address
import Depot.Proofs.Memory.Related

/-!
# Callers on different buckets

What is answered over some links does not depend on what is done over others, unless links of both
kinds name one bucket of one host. To leave out the calls of a group changes nothing but the buckets
that its links name (`answers_without`, by induction on the run over two related hubs). Within one
bucket, a call changes no document outside the collection that its link leads to
(`document?_act_of_leads`).
-/

set_option autoImplicit false
set_option relaxedAutoImplicit false

namespace Depot.Memory

/-- The bucket of a host that the arguments of a link name. -/
structure Store.Names (args : Link.Args) (site : Site) : Prop where
  host : Address.IsHost args.connection site.host
  bucket : site.bucket = args.bucket

theorem Store.Leads.names {args : Link.Args} {k : Collection} (h : Leads args k) :
    Names args k.site := ⟨h.host, h.bucket⟩

/-- Whether an action is a call over a link of a group. -/
def Action.isOver (group : Nat → Bool) : Action → Bool
  | .connect _ => false
  | .call link _ _ => group link

/-- A run without the calls over the links of a group. -/
def without (group : Nat → Bool) (run : List Action) : List Action :=
  run.filter fun action ↦ !action.isOver group

namespace Hub

variable {p : Policy} {h h' : Hub} {run : List Action} {A B : Nat → Bool}

/-- All calls that a run makes over the links of a group, each with what it came to. -/
def answers (p : Policy) (group : Nat → Bool) (h : Hub) :
    List Action → List ((c : Call) × Option (Attempt c.Answer))
  | [] => []
  | .connect args :: rest => (h.act p (.connect args)).answers p group rest
  | .call link now c :: rest =>
    let later := (h.act p (.call link now c)).answers p group rest
    if group link then ⟨c, h.answer? p link now c⟩ :: later else later

/-- No link of one group names a bucket that a link of the other names. -/
def Apart (h : Hub) (A B : Nat → Bool) : Prop :=
  ∀ a b args args' connection connection', A a = true → B b = true →
    h.links[a]? = some (args, connection) → h.links[b]? = some (args', connection') →
    ∀ site, Store.Names args site → ¬ Store.Names args' site

/-- The sites that the links of a group name. -/
def NamedBy (h : Hub) (group : Nat → Bool) (site : Site) : Prop :=
  ∃ link args connection, group link = true ∧ h.links[link]? = some (args, connection) ∧
    Store.Names args site

/-! ## Links -/

/-- A link stays what it is. -/
theorem getElem?_links_act {i : Nat} {l : Link.Args × Connection Collection}
    (hl : h.links[i]? = some l) (action : Action) : (h.act p action).links[i]? = some l := by
  cases action with
  | connect args =>
    obtain ⟨hi, _⟩ := List.getElem?_eq_some_iff.1 hl
    change (h.links ++ [_])[i]? = some l
    rw [List.getElem?_append_left hi, hl]
  | call link now c => rw [(bucketwise_call p h link now c).links, hl]

theorem getElem?_links_after {i : Nat} {l : Link.Args × Connection Collection}
    (hl : h.links[i]? = some l) (run : List Action) : (h.after p run).links[i]? = some l := by
  induction run generalizing h with
  | nil => exact hl
  | cons action rest ih => exact ih (getElem?_links_act hl action)

/-- A link that leads to a bucket names it. -/
theorem Linked.names_of_place? (hlinked : h.Linked p) {link : Nat} {id : String} {place : Place}
    (hplace : h.place? link id = some place) : ∃ args connection,
      h.links[link]? = some (args, connection) ∧ Store.Leads args place.collection := by
  obtain ⟨args, hl, _⟩ := place?_eq_some_iff.1 hplace
  have hlive := (hlinked.live_iff args _ _ (List.mem_of_getElem? hl)).1 rfl
  exact ⟨args, _, hl, Store.collectionOf?_eq_some_iff.1 hlive.1⟩

theorem Linked.namedBy (hlinked : h.Linked p) {link : Nat} (hgroup : A link = true) {id : String}
    {place : Place} (hplace : h.place? link id = some place) (run : List Action) :
    (h.after p run).NamedBy A place.site := by
  obtain ⟨args, connection, hl, hleads⟩ := hlinked.names_of_place? hplace
  exact ⟨link, args, connection, hgroup, getElem?_links_after hl run, hleads.names⟩

/-! ## Buckets -/

/-- Two hubs that differ at most in the buckets at certain sites answer alike over links that name
other buckets, and go on to differ there at most when calls over the links that name these sites are
made on one of them only. -/
theorem answers_without {S : Site → Prop} (hdisjoint : ∀ link, A link = true → B link = false)
    (hlinked : h.Linked p) (hA : ∀ site, (h.after p run).NamedBy A site → ¬ S site)
    (hB : ∀ site, (h.after p run).NamedBy B site → S site)
    (hrelated : Related (fun site b b' ↦ ¬ S site → b' = b) h h') :
    h'.answers p A (without B run) = h.answers p A run := by
  induction run generalizing h h' with
  | nil => rfl
  | cons action rest ih =>
    cases action with
    | connect args =>
      exact ih (hlinked.act _) hA hB (hrelated.connect (fun _ _ _ ↦ rfl) args)
    | call link now c =>
      have hleft := bucketwise_call p h link now c
      cases hgroup : B link with
      | true =>
        have hA' : A link = false := by
          refine Bool.eq_false_iff.2 fun hlink ↦ ?_
          rw [hdisjoint link hlink] at hgroup
          cases hgroup
        have hrest : Related (fun site b b' ↦ ¬ S site → b' = b)
            (h.act p (.call link now c)) h' := by
          refine hrelated.bucketwise hleft (Bucketwise.refl h') fun site b b' hR hsite ↦ ?_
          rw [hR hsite, moved]
          cases hplace : h.place? link c.id with
          | none => rfl
          | some place =>
            have hne : place.site ≠ site := by
              rintro rfl
              exact hsite (hB _ (hlinked.namedBy hgroup hplace (.call link now c :: rest)))
            simp only [hne, if_false]
        have hwithout : without B (.call link now c :: rest) = without B rest := by
          simp [without, Action.isOver, hgroup]
        rw [hwithout, answers, hA']
        exact ih (hlinked.act _) hA hB hrest
      | false =>
        have hrest : Related (fun site b b' ↦ ¬ S site → b' = b)
            (h.act p (.call link now c)) (h'.act p (.call link now c)) := by
          refine hrelated.bucketwise hleft (bucketwise_call p h' link now c) ?_
          intro site b b' hR hsite
          rw [moved_congr hrelated.links, hR hsite]
        have hwithout : without B (.call link now c :: rest) =
            .call link now c :: without B rest := by
          simp [without, Action.isOver, hgroup]
        have hlater := ih (hlinked.act _) hA hB hrest
        rw [hwithout, answers, answers, hlater]
        cases hA' : A link with
        | false => rfl
        | true =>
          rw [hrelated.answers_alike fun place b b' hplace hR ↦ ?_]
          rw [hR (hA _ (hlinked.namedBy hA' hplace (.call link now c :: rest)))]

/-- A call changes no document outside the collection that its link leads to. -/
theorem document?_act_of_leads (hlinked : h.Linked p) {link now : Nat} {c : Call}
    {args : Link.Args} {connection : Connection Collection} {k other : Collection}
    (hl : h.links[link]? = some (args, connection)) (hleads : Store.Leads args k)
    (hother : other ≠ k) (id : String) :
    (h.act p (.call link now c)).store.document? ⟨other, id⟩ =
      h.store.document? ⟨other, id⟩ := by
  rw [document?_act]
  cases hevent : h.event? p (.call link now c) with
  | none => rfl
  | some event =>
    obtain ⟨place, a, hplace, _, rfl⟩ := event?_call_eq_some_iff.1 hevent
    obtain ⟨args', connection', hl', hleads'⟩ := hlinked.names_of_place? hplace
    cases hl.symm.trans hl'
    have hsame : place.collection = k := by
      have hcollection := Store.collectionOf?_eq_some_iff.2 hleads'
      rw [Store.collectionOf?_eq_some_iff.2 hleads] at hcollection
      exact (Option.some.inj hcollection).symm
    have hne : place ≠ ⟨other, id⟩ := by
      rintro rfl
      exact hother hsame
    change Event.apply _ _ _ = _
    rw [Event.apply, if_neg hne]

/-- Callers on different buckets do not notice one another. In any run on a new store take two
groups of links, no link of the one with the host and the bucket of a link of the other. If all
calls of the second group are left out and everything else stays, the first group is answered the
same, call by call. And whatever a call over a link comes to, every document outside the collection
that the link leads to stays as it is, with its content, its version, its deadline and its lock,
also the documents of other collections of the same bucket. -/
theorem callers_apart (p : Policy) (run : List Action)
    (hdisjoint : ∀ link, A link = true → B link = false)
    (hapart : (empty.after p run).Apart A B) :
    empty.answers p A (without B run) = empty.answers p A run ∧
      ∀ i link now c args connection k other id, run[i]? = some (.call link now c) →
        (empty.before p run i).links[link]? = some (args, connection) → Store.Leads args k →
        other ≠ k →
        (empty.before p run (i + 1)).store.document? ⟨other, id⟩ =
          (empty.before p run i).store.document? ⟨other, id⟩ := by
  constructor
  · refine answers_without (S := (empty.after p run).NamedBy B) hdisjoint (linked_empty p) ?_
      (fun _ hsite ↦ hsite) (related_self (fun _ _ _ ↦ rfl) empty)
    rintro site ⟨a, args, connection, ha, hl, hnames⟩ ⟨b, args', connection', hb, hl', hnames'⟩
    exact hapart a b args args' connection connection' ha hb hl hl' site hnames hnames'
  · intro i link now c args connection k other id hcall hl hleads hother
    rw [before_succ hcall]
    exact document?_act_of_leads ((linked_empty p).after (run.take i)) hl hleads hother id

/-- Three callers: the first and the last share a bucket but not a collection, the second has one of
the same name on another host. -/
def neighbours : List Action :=
  [.connect ⟨"u", "", "x", "mem://h", none, none⟩, .connect ⟨"v", "", "x", "cb://k", none, none⟩,
    .connect ⟨"w", "", "x", "couchbase://h", some "s", some "c"⟩,
    .call 0 0 (.insert "a" [1] {}), .call 1 1 (.insert "a" [2] {}), .call 2 2 (.upsert "a" [3] {}),
    .call 0 3 (.get "a" {})]

theorem callers_apart_neighbours :
    (∀ link : Nat, (link != 1) = true → (link == 1) = false) ∧
      (empty.after {} neighbours).Apart (· != 1) (· == 1) ∧
      (without (· == 1) neighbours).length = 6 ∧
      empty.answers {} (· != 1) (without (· == 1) neighbours) =
        empty.answers {} (· != 1) neighbours ∧
      (empty.before {} neighbours 6).store.document? ⟨⟨⟨"h", "x"⟩, .default⟩, "a"⟩ =
        (empty.before {} neighbours 5).store.document? ⟨⟨⟨"h", "x"⟩, .default⟩, "a"⟩ := by
  have hdisjoint : ∀ link : Nat, (link != 1) = true → (link == 1) = false := by
    intro link h
    simpa using h
  have hapart : (empty.after {} neighbours).Apart (· != 1) (· == 1) := by
    intro a b args args' connection connection' ha hb hl hl' site hnames hnames'
    obtain rfl : b = 1 := by simpa using hb
    have hhost : Address.host? args'.connection = some "k" := by
      cases hl'
      rfl
    have hk := (Address.host?_eq_some_iff.2 hnames'.host).symm.trans hhost
    have hh : Address.host? args.connection = some "h" := by
      match a, ha, hl with
      | 0, _, hl => cases hl; rfl
      | 2, _, hl => cases hl; rfl
    have hsite := (Address.host?_eq_some_iff.2 hnames.host).symm.trans hh
    rw [Option.some.inj hk] at hsite
    exact absurd hsite (by decide)
  obtain ⟨hanswers, hdocuments⟩ := callers_apart {} neighbours hdisjoint hapart
  have hleads : Store.Leads ⟨"w", "", "x", "couchbase://h", some "s", some "c"⟩
      ⟨⟨"h", "x"⟩, ⟨"s", "c"⟩⟩ := Store.collectionOf?_eq_some_iff.1 rfl
  exact ⟨hdisjoint, hapart, rfl, hanswers,
    hdocuments 5 2 2 _ _ _ _ ⟨⟨"h", "x"⟩, .default⟩ "a" rfl rfl hleads (by decide)⟩

end Hub
end Depot.Memory
