import Depot.Proofs.Link.Entries
import Depot.Proofs.Run
import Depot.Router

/-!
# The routing table is its history

Links are attached, detached, and all cleared at the end. What the table has under a route is what
the last attach of this route gave, unless something ended the link since (`Serves`). An attach that
is refused gives nothing, and it is refused for an entry that the link lacks (`Link.FirstGap`) and
never for what became of its connection. Callers have links of their own exactly while they have one
(`Tight`), so that the number of a caller's links is the right one to choose its only link by.
`routes_history` says so for every backend, and for every sequence of events.
-/

set_option autoImplicit false
set_option relaxedAutoImplicit false

namespace Depot

namespace Link

/-- The route that a link serves. -/
def Definition.route (d : Definition) : Route := ⟨d.source, d.name⟩

end Link

namespace Router

open Link (Args Definition)

variable {σ κ : Type} {b : Backend σ κ} {r : Router κ} {route other : Route} {a : Attached κ}

/-! ## One link -/

theorem attach_eq_ok {d : Definition} {args : Args} (h : Args.ofDefinition d = .ok args)
    (b : Backend σ κ) (r : Router κ) (s : σ) : r.attach b d s =
      .ok (Table.insert r d.source (((Table.get? r d.source).getD .empty).insert d.name
        ⟨args, (b.establish args s).1⟩), (b.establish args s).2) := by
  rw [attach, h]

/-- Only a link that lacks an entry is refused, and the error names the first one. -/
theorem attach_eq_error_iff {d : Definition} {s : σ} {f : ProviderError} :
    r.attach b d s = .error f ↔
      ∃ g, Link.FirstGap d g Link.requiredEntries ∧ f = .configInvalid g.message := by
  simp only [← Link.ofDefinition_eq_error_iff]
  cases hargs : Args.ofDefinition d with
  | ok args => simp [attach_eq_ok hargs]
  | error g =>
    rw [attach, hargs]
    simp [ProviderError.ofGap, eq_comm]

theorem link?_insert (r : Router κ) (source link : String) (a : Attached κ) (route : Route) :
    Router.link? (Table.insert r source (((Table.get? r source).getD .empty).insert link a)) route =
      if ⟨source, link⟩ = route then some a else r.link? route := by
  obtain ⟨source', link'⟩ := route
  simp only [link?, Route.mk.injEq]
  by_cases hsource : source = source'
  · subst hsource
    rw [Table.get?_insert_self]
    cases hlinks : Table.get? r source with
    | none => simp [Table.get?_insert]
    | some links => simp [Table.get?_insert]
  · rw [Table.get?_insert_of_ne _ hsource, if_neg fun h ↦ hsource h.1]

/-- What a caller has after one of its links was forgotten. -/
theorem get?_detach (r : Router κ) (route : Route) (source : String) :
    Table.get? (r.detach route) source =
      if route.source = source then
        ((Table.get? r source).map (·.erase route.link)).filter (!·.isEmpty)
      else Table.get? r source := by
  unfold detach
  cases hlinks : Table.get? r route.source with
  | none =>
    change Table.get? r source = _
    split
    · rename_i heq
      rw [← heq, hlinks]
      rfl
    · rfl
  | some links =>
    by_cases heq : route.source = source
    · subst heq
      rw [if_pos rfl, hlinks, Option.map_some, Option.filter_some]
      cases hempty : (links.erase route.link).isEmpty <;>
        simp [hempty, Table.get?_erase]
    · rw [if_neg heq]
      cases hempty : (links.erase route.link).isEmpty <;>
        simp [hempty, Table.get?_erase, Table.get?_insert, heq]

theorem link?_detach (r : Router κ) (route other : Route) :
    (r.detach route).link? other = if route = other then none else r.link? other := by
  obtain ⟨source, link⟩ := route
  obtain ⟨source', link'⟩ := other
  rw [link?, get?_detach, link?]
  simp only [Route.mk.injEq]
  by_cases hsource : source = source'
  · subst hsource
    cases Table.get? r source with
    | none => simp
    | some links =>
      have hget := Table.get?_erase links link link'
      rw [Option.map_some, Option.filter_some]
      cases hempty : (links.erase link).isEmpty with
      | true =>
        rw [(Table.isEmpty_iff _).1 hempty] at hget
        simpa using hget
      | false => simpa using hget
  · simp [hsource]

/-- No caller is kept without links. -/
def Tight (r : Router κ) : Prop :=
  ∀ source links, Table.get? r source = some links → ∃ link a, links.get? link = some a

/-- An unknown link is not detached from anything. -/
theorem Tight.detach_of_none (hr : r.Tight) (h : r.link? route = none) : r.detach route = r := by
  rw [detach]
  split
  · rfl
  · rename_i links hlinks
    rw [link?, hlinks, Option.bind_some] at h
    obtain ⟨link, a, ha⟩ := hr _ links hlinks
    have hempty : links.isEmpty = false := by
      refine Bool.eq_false_iff.2 fun hempty ↦ ?_
      rw [(Table.isEmpty_iff links).1 hempty link] at ha
      cases ha
    simp only [Table.erase_of_none h, hempty, Bool.false_eq_true, if_false]
    exact Table.insert_of_get? hlinks

theorem Tight.isLinked_iff (hr : r.Tight) (source : String) :
    r.isLinked source = true ↔ ∃ link a, r.link? ⟨source, link⟩ = some a := by
  rw [isLinked, Table.contains, Option.isSome_iff_exists]
  simp only [link?, Option.bind_eq_some_iff]
  constructor
  · rintro ⟨links, hlinks⟩
    obtain ⟨link, a, ha⟩ := hr source links hlinks
    exact ⟨link, a, links, hlinks, ha⟩
  · rintro ⟨_, _, links, hlinks, _⟩
    exact ⟨links, hlinks⟩

/-! ## All links -/

/-- The routes that are served. -/
def routes (r : Router κ) : List Route :=
  r.entries.flatMap fun p ↦ p.2.entries.map fun q ↦ ⟨p.1, q.1⟩

theorem mem_routes_iff : route ∈ r.routes ↔ ∃ a, r.link? route = some a := by
  obtain ⟨source, link⟩ := route
  simp only [routes, List.mem_flatMap, List.mem_map, Prod.exists, Route.mk.injEq, link?,
    Option.bind_eq_some_iff, Table.get?_eq_some_iff_mem]
  constructor
  · rintro ⟨_, links, hlinks, _, a, ha, rfl, rfl⟩
    exact ⟨a, links, hlinks, ha⟩
  · rintro ⟨a, links, hlinks, ha⟩
    exact ⟨source, links, hlinks, link, a, ha, rfl, rfl⟩

theorem nodup_routes (r : Router κ) : r.routes.Nodup := by
  refine List.pairwise_flatMap.2 ⟨fun p _ ↦ ?_, ?_⟩
  · have hdistinct := List.pairwise_map.1 p.2.distinct
    exact List.pairwise_map.2 (hdistinct.imp fun hne heq ↦ hne (Route.mk.inj heq).2)
  · refine (List.pairwise_map.1 r.distinct).imp fun hne x hx y hy heq ↦ ?_
    obtain ⟨_, _, rfl⟩ := List.mem_map.1 hx
    obtain ⟨_, _, rfl⟩ := List.mem_map.1 hy
    exact hne (Route.mk.inj heq).1

theorem linkCount_eq (r : Router κ) : r.linkCount = r.routes.length := by
  rw [linkCount, routes]
  induction r.entries with
  | nil => rfl
  | cons p rest ih =>
    rw [List.foldr_cons, ih, List.flatMap_cons, List.length_append, List.length_map, Table.size]

/-! ## The link that a caller means -/

/-- The link that is meant by a caller whose links are these: the one that it names, or if it names
none the default one, or if there is no default one the only one. -/
inductive Meant (served : String → Attached κ → Prop) (defaultLink : String) :
    Option String → Attached κ → Prop
  | named (link : String) (a : Attached κ) (h : served link a) :
      Meant served defaultLink (some link) a
  | default (a : Attached κ) (h : served defaultLink a) : Meant served defaultLink none a
  | only (link : String) (a : Attached κ) (hdefault : ∀ a, ¬ served defaultLink a)
      (h : served link a) (honly : ∀ other a, served other a → other = link) :
      Meant served defaultLink none a

theorem find?_eq_some_iff (r : Router κ) (defaultLink : String) (who : Identity) (a : Attached κ) :
    r.find? defaultLink who = some a ↔
      Meant (fun link a ↦ r.link? ⟨who.source, link⟩ = some a) defaultLink who.link? a := by
  obtain ⟨source, link?⟩ := who
  simp only [find?, Router.link?]
  cases hlinks : Table.get? r source with
  | none =>
    constructor <;> intro h
    · cases h
    · cases h with
      | named _ _ h => cases h
      | default _ h => cases h
      | only _ _ _ h => cases h
  | some links =>
    simp only [Option.bind_some]
    cases link? with
    | some link =>
      refine ⟨fun h ↦ .named link a h, fun h ↦ ?_⟩
      cases h with
      | named _ _ h => exact h
    | none =>
      simp only [implied?]
      split
      · rename_i a' ha'
        rw [Option.some.injEq]
        constructor
        · rintro rfl
          exact .default a' ha'
        · intro h
          cases h with
          | default _ h => exact Option.some.inj (ha'.symm.trans h)
          | only _ _ hdefault => exact absurd ha' (hdefault a')
      · rename_i hnone
        rw [Table.only?_eq_some_iff]
        constructor
        · rintro ⟨key, hkey, honly⟩
          exact .only key a (fun a' ha' ↦ by rw [hnone] at ha'; cases ha') hkey honly
        · intro h
          cases h with
          | default _ h =>
            rw [hnone] at h
            cases h
          | only link _ _ h honly => exact ⟨link, h, honly⟩

theorem resolve_eq_ok_iff {defaultLink : String} {who : Identity} {c : Connection κ} :
    r.resolve defaultLink who = .ok c ↔
      ∃ a, r.find? defaultLink who = some a ∧ a.connection = c := by
  rw [resolve]
  cases r.find? defaultLink who <;> simp

theorem resolve_eq_error_iff {defaultLink : String} {who : Identity} {f : ProviderError} :
    r.resolve defaultLink who = .error f ↔
      f = .unlinkedSource who.source ∧ ∀ a, r.find? defaultLink who ≠ some a := by
  rw [resolve]
  cases r.find? defaultLink who <;> simp [eq_comm]

/-! ## Histories -/

/-- A link comes, or goes, or all of them go. An attach connects to a store that is as others left
it. -/
inductive Event (σ : Type) where
  | attach (d : Definition) (s : σ)
  | detach (route : Route)
  | clear

/-- What an event puts under a route. -/
def Event.given? (b : Backend σ κ) (route : Route) : Event σ → Option (Attached κ)
  | .attach d s =>
    match Args.ofDefinition d with
    | .ok args => if d.route = route then some ⟨args, (b.establish args s).1⟩ else none
    | .error _ => none
  | _ => none

theorem Event.given?_eq_some_iff {e : Event σ} : e.given? b route = some a ↔
    ∃ d s, e = .attach d s ∧ d.route = route ∧ Args.ofDefinition d = .ok a.args ∧
      a.connection = (b.establish a.args s).1 := by
  constructor
  · intro h
    cases e with
    | attach d s =>
      rw [given?] at h
      split at h
      · rename_i args hargs
        split at h
        · rename_i hroute
          cases h
          exact ⟨d, s, rfl, hroute, hargs, rfl⟩
        · cases h
      · cases h
    | _ => cases h
  · rintro ⟨d, s, rfl, hroute, hargs, hconnection⟩
    rw [given?, hargs]
    simp only [hroute, if_true, ← hconnection]

/-- Whether an event ends the link under a route. -/
def Event.ends (route : Route) : Event σ → Bool
  | .attach _ _ => false
  | .detach other => other = route
  | .clear => true

def step (b : Backend σ κ) (r : Router κ) : Event σ → Router κ
  | .attach d s =>
    match r.attach b d s with
    | .ok (r', _) => r'
    | .error _ => r
  | .detach route => r.detach route
  | .clear => .clear

/-- The table that step `i` of a run finds. -/
abbrev before (b : Backend σ κ) (run : List (Event σ)) (i : Nat) : Router κ :=
  stateAt (step b) clear run i

/-- A link serves a route before step `i` of a run: an attach gave it, and nothing since then gave
another one or ended it. -/
def Serves (b : Backend σ κ) (run : List (Event σ)) (i : Nat) (route : Route) (a : Attached κ) :
    Prop :=
  ∃ n e, n < i ∧ run[n]? = some e ∧ e.given? b route = some a ∧
    ∀ m e', n < m → m < i → run[m]? = some e' →
      e'.given? b route = none ∧ e'.ends route = false

variable {e : Event σ} {run : List (Event σ)} {i : Nat}

theorem step_attach_of_error {d : Definition} {s : σ} {f : ProviderError}
    (h : r.attach b d s = .error f) : r.step b (.attach d s) = r := by
  rw [step, h]

/-- What is under a route after an event. -/
theorem link?_step (b : Backend σ κ) (r : Router κ) (e : Event σ) (route : Route) :
    (r.step b e).link? route =
      (e.given? b route).or (if e.ends route then none else r.link? route) := by
  cases e with
  | attach d s =>
    simp only [Event.given?, Event.ends]
    cases hargs : Args.ofDefinition d with
    | ok args =>
      simp only [step, attach_eq_ok hargs, link?_insert]
      change (if d.route = route then _ else _) = _
      split <;> simp
    | error g => rw [step, attach, hargs]; simp
  | detach other =>
    rw [step, link?_detach]
    by_cases heq : other = route <;> simp [Event.given?, Event.ends, heq]
  | clear => rfl

theorem tight_step (hr : r.Tight) : (r.step b e).Tight := by
  cases e with
  | attach d s =>
    rw [step]
    cases hargs : Args.ofDefinition d with
    | error g => rw [attach, hargs]; exact hr
    | ok args =>
      rw [attach_eq_ok hargs]
      intro source links hlinks
      change (Table.insert r _ _).get? source = some links at hlinks
      rw [Table.get?_insert] at hlinks
      split at hlinks
      · cases hlinks
        exact ⟨d.name, _, Table.get?_insert_self _ _ _⟩
      · exact hr source links hlinks
  | detach route =>
    intro source links hlinks
    change Table.get? (r.detach route) source = some links at hlinks
    rw [get?_detach] at hlinks
    split at hlinks
    · obtain ⟨_, hempty⟩ := Option.filter_eq_some_iff.1 hlinks
      simpa [← Bool.not_eq_true, Table.isEmpty_iff, Option.ne_none_iff_exists'] using hempty
    · exact hr source links hlinks
  | clear => exact fun _ _ h ↦ by cases h

theorem tight_before (b : Backend σ κ) (run : List (Event σ)) (i : Nat) : (before b run i).Tight :=
  stateAt_induction (P := fun _ (r : Router κ) ↦ r.Tight) (i := 0) (fun _ _ h ↦ by cases h)
    (fun _ _ _ _ hr ↦ tight_step hr) (fun _ _ _ hr ↦ hr) (Nat.zero_le i)

/-- A link serves after a step if the step gave it, or if it served before and was let be. -/
theorem serves_succ_iff : Serves b run (i + 1) route a ↔
    (∃ e, run[i]? = some e ∧ e.given? b route = some a) ∨
      Serves b run i route a ∧
        ∀ e, run[i]? = some e → e.given? b route = none ∧ e.ends route = false := by
  constructor
  · rintro ⟨n, e, hn, he, hgiven, hsince⟩
    rcases Nat.lt_succ_iff_lt_or_eq.1 hn with hn | rfl
    · exact Or.inr ⟨⟨n, e, hn, he, hgiven, fun m e' hm hi ↦
        hsince m e' hm (Nat.lt_succ_of_lt hi)⟩, fun e' ↦ hsince i e' hn (Nat.lt_succ_self i)⟩
    · exact Or.inl ⟨e, he, hgiven⟩
  · rintro (⟨e, he, hgiven⟩ | ⟨⟨n, e, hn, he, hgiven, hsince⟩, hlast⟩)
    · exact ⟨i, e, Nat.lt_succ_self i, he, hgiven, fun m e' hm hi ↦ by omega⟩
    · refine ⟨n, e, Nat.lt_succ_of_lt hn, he, hgiven, fun m e' hm hi he' ↦ ?_⟩
      rcases Nat.lt_succ_iff_lt_or_eq.1 hi with hi | rfl
      · exact hsince m e' hm hi he'
      · exact hlast e' he'

/-- What the table has under a route is what the history says. -/
theorem link?_before_iff (b : Backend σ κ) (run : List (Event σ)) (i : Nat) (route : Route)
    (a : Attached κ) : (before b run i).link? route = some a ↔ Serves b run i route a := by
  induction i with
  | zero =>
    refine ⟨nofun, ?_⟩
    rintro ⟨n, _, hn, _⟩
    exact absurd hn (Nat.not_lt_zero n)
  | succ i ih =>
    rw [serves_succ_iff, ← ih]
    cases he : run[i]? with
    | none =>
      have hnext : before b run (i + 1) = before b run i := stateAt_succ_of_none _ _ he
      rw [hnext]
      simp
    | some e =>
      have hnext : before b run (i + 1) = (before b run i).step b e := stateAt_succ _ _ he
      rw [hnext, link?_step]
      cases hgiven : e.given? b route with
      | some a' => simp [hgiven]
      | none =>
        cases hends : e.ends route <;> simp [hgiven, hends]

/-- What serves a route was attached there, with the entries of its link, and has the connection
that was made of them. -/
theorem Serves.attached (h : Serves b run i route a) : ∃ n d s, n < i ∧
    run[n]? = some (.attach d s) ∧ d.route = route ∧ a.args.Describe d ∧
      a.connection = (b.establish a.args s).1 := by
  obtain ⟨n, e, hn, he, hgiven, _⟩ := h
  obtain ⟨d, s, rfl, hroute, hargs, hconnection⟩ := Event.given?_eq_some_iff.1 hgiven
  exact ⟨n, d, s, hn, he, hroute, Args.describe_of_ofDefinition hargs, hconnection⟩

/-- The routing table is its history, at every step of every run. What is under a route is what the
last attach of the route gave, with its arguments, unless the route was detached or everything was
cleared since; a caller is linked exactly while it has a link, and no caller is kept without one;
links are counted rightly. An attach is refused exactly when the link lacks a required entry, and
such an attach changes nothing, nor does detaching what is not there. Resolving gives the link that
the caller means among its own, and fails exactly when there is none. -/
theorem routes_history (b : Backend σ κ) (run : List (Event σ)) (i : Nat) :
    (∀ route a, (before b run i).link? route = some a ↔ Serves b run i route a) ∧
    (∀ route a, Serves b run i route a → ∃ n d s, n < i ∧ run[n]? = some (.attach d s) ∧
      d.route = route ∧ a.args.Describe d ∧ a.connection = (b.establish a.args s).1) ∧
    (∀ route args, (before b run i).args? route = some args ↔
      ∃ a, Serves b run i route a ∧ a.args = args) ∧
    (∀ source, (before b run i).isLinked source = true ↔
      ∃ link a, Serves b run i ⟨source, link⟩ a) ∧
    (∃ routes : List Route, routes.Nodup ∧
      (∀ route, route ∈ routes ↔ ∃ a, Serves b run i route a) ∧
      (before b run i).linkCount = routes.length) ∧
    (before b run i).Tight ∧
    (∀ d s f, (before b run i).attach b d s = .error f ↔
      ∃ g, Link.FirstGap d g Link.requiredEntries ∧ f = .configInvalid g.message) ∧
    (∀ d s, (∃ f, (before b run i).attach b d s = .error f) ↔
      ∃ p ∈ Link.requiredEntries, ∀ text, ¬ Link.Says d p.1 text) ∧
    (∀ d s f, (before b run i).attach b d s = .error f →
      (before b run i).step b (.attach d s) = before b run i) ∧
    (∀ route, (∀ a, ¬ Serves b run i route a) → (before b run i).detach route = before b run i) ∧
    (∀ defaultLink who c, (before b run i).resolve defaultLink who = .ok c ↔
      ∃ a, Meant (fun link ↦ Serves b run i ⟨who.source, link⟩) defaultLink who.link? a ∧
        a.connection = c) ∧
    ∀ defaultLink who f, (before b run i).resolve defaultLink who = .error f ↔
      f = .unlinkedSource who.source ∧
        ∀ a, ¬ Meant (fun link ↦ Serves b run i ⟨who.source, link⟩) defaultLink who.link? a := by
  have hlink := link?_before_iff b run i
  have htight := tight_before b run i
  have hfind : ∀ defaultLink who a, (before b run i).find? defaultLink who = some a ↔
      Meant (fun link ↦ Serves b run i ⟨who.source, link⟩) defaultLink who.link? a := by
    intro defaultLink who a
    simp only [find?_eq_some_iff, hlink]
  refine ⟨hlink, fun _ _ ↦ Serves.attached, fun route args ↦ ?_, fun source ↦ ?_,
    ⟨(before b run i).routes, nodup_routes _, fun route ↦ ?_, linkCount_eq _⟩, htight,
    fun d s f ↦ attach_eq_error_iff, fun d s ↦ ?_, fun d s f ↦ step_attach_of_error,
    fun route hnone ↦ ?_, fun defaultLink who c ↦ ?_, fun defaultLink who f ↦ ?_⟩
  · simp only [args?, Option.map_eq_some_iff, hlink]
  · simp only [htight.isLinked_iff, hlink]
  · simp only [mem_routes_iff, hlink]
  · rw [← Link.exists_firstGap_iff]
    constructor
    · rintro ⟨f, hf⟩
      obtain ⟨g, hg, _⟩ := attach_eq_error_iff.1 hf
      exact ⟨g, hg⟩
    · rintro ⟨g, hg⟩
      exact ⟨_, attach_eq_error_iff.2 ⟨g, hg, rfl⟩⟩
  · refine htight.detach_of_none (Option.eq_none_iff_forall_ne_some.2 fun a ha ↦ ?_)
    exact hnone a ((hlink route a).1 ha)
  · simp only [resolve_eq_ok_iff, hfind]
  · simp only [resolve_eq_error_iff, ne_eq, hfind]

/-- A caller names no link and has no default one. With two links it is not linked; once one of them
is detached it is served by the other, though that could not be connected. The secrets of the one
that is left, a text and bytes of a text, go before its configuration; bytes of no text do not. -/
theorem routes_history_only_link :
    let b : Backend Unit Unit := ⟨fun _ s ↦ (.error .timeout, s), fun _ _ _ s ↦ (.crash, s)⟩
    let entries : Fields String := .ofList [("username", "u"), ("password", "p"),
      ("bucketName", "b"), ("connectionString", "c")]
    let secrets : Fields Secret := .ofList [("password", .string "t"), ("username", .bytes [118]),
      ("bucketName", .bytes [255])]
    let run : List (Event Unit) := [.attach ⟨"s", "one", entries, secrets⟩ (),
      .attach ⟨"s", "two", entries, .empty⟩ (), .attach ⟨"s", "one", .empty, .empty⟩ (),
      .detach ⟨"s", "two"⟩]
    (before b run 3).resolve "default" ⟨"s", none⟩ = .error (.unlinkedSource "s") ∧
      (∃ a, Serves b run 4 ⟨"s", "one"⟩ a ∧ a.args = ⟨"v", "t", "b", "c", none, none⟩) ∧
      (∀ a, ¬ Serves b run 4 ⟨"s", "two"⟩ a) ∧
      (before b run 4).resolve "default" ⟨"s", none⟩ =
        .ok (.unavailable Fault.timeout.message) := by
  intro b entries secrets run
  obtain ⟨hlink, _, hargs, _⟩ := routes_history b run 4
  refine ⟨rfl, (hargs ⟨"s", "one"⟩ _).1 rfl, fun a ha ↦ ?_, rfl⟩
  have hnone : (before b run 4).link? ⟨"s", "two"⟩ = none := rfl
  rw [(hlink ⟨"s", "two"⟩ a).2 ha] at hnone
  cases hnone

end Router
end Depot
