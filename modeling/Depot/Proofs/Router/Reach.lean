import Depot.Proofs.Router.History

/-!
# Which links a request can reach

A request names its caller in one header and, if it wants, one of the caller's links in another; an
empty header names nothing. `GoesBy` is the rule by which a link is chosen, told by names instead of
by what stands under them, and `find?` gives what is under the route that a caller goes by
(`find?_eq_some_iff_goesBy`). The headers that name a route (`Settings.address`) reach it unless one
of its two names cannot be said. An empty source cannot be said at all. An empty link name need not
be said where it is the default one, or where the caller has no other link (`Reachable`); anywhere
else no headers reach the link (`reached_iff`).
-/

set_option autoImplicit false
set_option relaxedAutoImplicit false

namespace Depot

/-- Headers that name a route, whatever else they say. -/
def Settings.address (s : Settings) (route : Route) (headers : Fields String) : Fields String :=
  (headers.insert s.sourceHeader route.source).insert s.linkHeader route.link

namespace Identity

variable {s : Settings} {headers : Fields String} {route : Route}

theorem header?_address_source (h : s.sourceHeader ≠ s.linkHeader) :
    header? (s.address route headers) s.sourceHeader =
      if route.source = "" then none else some route.source := by
  simp [header?, Settings.address, Fields.get?_insert, h.symm, Option.filter_some]

theorem header?_address_link :
    header? (s.address route headers) s.linkHeader =
      if route.link = "" then none else some route.link := by
  simp [header?, Settings.address, Fields.get?_insert, Option.filter_some]

/-- What the headers that name a route say. -/
theorem ofHeaders_address (h : s.sourceHeader ≠ s.linkHeader) :
    ofHeaders s (s.address route headers) =
      if route.source = "" then .error .missingIdentity
      else .ok ⟨route.source, if route.link = "" then none else some route.link⟩ := by
  rw [ofHeaders, header?_address_source h, header?_address_link]
  by_cases hsource : route.source = ""
  · rw [if_pos hsource, if_pos hsource]
  · rw [if_neg hsource, if_neg hsource]

end Identity

namespace Router

variable {σ κ : Type} {r : Router κ} {defaultLink : String} {who : Identity} {route other : Route}
  {a : Attached κ} {s : Settings} {headers : Fields String}

/-! ## The chosen route -/

/-- The caller has no link but this one. -/
def Only (r : Router κ) (route : Route) : Prop :=
  ∀ link a, r.link? ⟨route.source, link⟩ = some a → link = route.link

/-- The route by which a caller's requests go: to the link that it names, or if it names none to the
default one, or to the only one. -/
def GoesBy (r : Router κ) (defaultLink : String) (who : Identity) (route : Route) : Prop :=
  route.source = who.source ∧ (∃ a, r.link? route = some a) ∧
    match who.link? with
    | some link => route.link = link
    | none => route.link = defaultLink ∨ r.Only route

/-- The link that is found is the one under the chosen route. -/
theorem find?_eq_some_iff_goesBy : r.find? defaultLink who = some a ↔
    ∃ route, GoesBy r defaultLink who route ∧ r.link? route = some a := by
  rw [find?_eq_some_iff]
  obtain ⟨source, link?⟩ := who
  constructor
  · intro h
    cases h with
    | named link _ h => exact ⟨⟨source, link⟩, ⟨rfl, ⟨a, h⟩, rfl⟩, h⟩
    | default _ h => exact ⟨⟨source, defaultLink⟩, ⟨rfl, ⟨a, h⟩, Or.inl rfl⟩, h⟩
    | only link _ _ h honly => exact ⟨⟨source, link⟩, ⟨rfl, ⟨a, h⟩, Or.inr honly⟩, h⟩
  · rintro ⟨⟨caller, link⟩, ⟨hcaller, -, hchosen⟩, h⟩
    obtain rfl : caller = source := hcaller
    cases link? with
    | some named =>
      obtain rfl : link = named := hchosen
      exact .named link a h
    | none =>
      by_cases hdefault : ∃ a, r.link? ⟨caller, defaultLink⟩ = some a
      · -- The only link is the default one where there is a default one.
        obtain ⟨a', ha'⟩ := hdefault
        obtain rfl : link = defaultLink :=
          hchosen.elim id fun honly ↦ (honly defaultLink a' ha').symm
        exact .default a h
      · have honly : r.Only ⟨caller, link⟩ := hchosen.resolve_left fun heq ↦
          hdefault ⟨a, heq ▸ h⟩
        exact .only link a (fun a' ha' ↦ hdefault ⟨a', ha'⟩) h honly

theorem GoesBy.unique (h : GoesBy r defaultLink who route) (h' : GoesBy r defaultLink who other) :
    route = other := by
  obtain ⟨source, link⟩ := route
  obtain ⟨source', link'⟩ := other
  obtain ⟨rfl, ⟨a, ha⟩, hchosen⟩ := h
  obtain ⟨rfl, ⟨a', ha'⟩, hchosen'⟩ := h'
  cases hlink : who.link? with
  | some named =>
    rw [hlink] at hchosen hchosen'
    rw [show link = link' from hchosen.trans hchosen'.symm]
  | none =>
    rw [hlink] at hchosen hchosen'
    rcases hchosen with rfl | honly
    · rcases hchosen' with rfl | honly'
      · rfl
      · rw [show link = link' from honly' link a ha]
    · rw [show link' = link from honly link' a' ha']

theorem GoesBy.resolve (h : GoesBy r defaultLink who route) (ha : r.link? route = some a) :
    r.resolve defaultLink who = .ok a.connection :=
  resolve_eq_ok_iff.2 ⟨a, find?_eq_some_iff_goesBy.2 ⟨route, h, ha⟩, rfl⟩

theorem exists_goesBy_of_resolve {c : Connection κ} (h : r.resolve defaultLink who = .ok c) :
    ∃ route a, GoesBy r defaultLink who route ∧ r.link? route = some a ∧ a.connection = c := by
  obtain ⟨a, hfind, hconnection⟩ := resolve_eq_ok_iff.1 h
  obtain ⟨route, hby, ha⟩ := find?_eq_some_iff_goesBy.1 hfind
  exact ⟨route, a, hby, ha, hconnection⟩

/-! ## Reaching -/

/-- Both names of a route can be said in headers, or the caller's can and the link's need not be. -/
def Reachable (r : Router κ) (defaultLink : String) (route : Route) : Prop :=
  route.source ≠ "" ∧ (route.link ≠ "" ∨ defaultLink = "" ∨ r.Only route)

/-- Headers lead by reachable routes only. -/
theorem GoesBy.reachable (h : GoesBy r s.defaultLink who route)
    (hwho : Identity.ofHeaders s headers = .ok who) : r.Reachable s.defaultLink route := by
  obtain ⟨hsource, hlink⟩ := Identity.ofHeaders_eq_ok_iff.1 hwho
  obtain ⟨hcaller, -, hchosen⟩ := h
  refine ⟨hcaller ▸ (Identity.header?_eq_some_iff.1 hsource).2, ?_⟩
  cases hnamed : who.link? with
  | some link =>
    rw [hnamed] at hlink hchosen
    exact Or.inl (hchosen ▸ (Identity.header?_eq_some_iff.1 hlink).2)
  | none =>
    rw [hnamed] at hchosen
    rcases hchosen with hdefault | honly
    · by_cases hempty : route.link = ""
      · exact Or.inr (Or.inl (hdefault ▸ hempty))
      · exact Or.inl hempty
    · exact Or.inr (Or.inr honly)

/-- A reachable route is the one by which the headers that name it lead. -/
theorem Reachable.goesBy (h : r.Reachable defaultLink route) (ha : r.link? route = some a) :
    GoesBy r defaultLink
      ⟨route.source, if route.link = "" then none else some route.link⟩ route := by
  refine ⟨rfl, ⟨a, ha⟩, ?_⟩
  by_cases hempty : route.link = ""
  · rw [if_pos hempty]
    rcases h.2 with hlink | hdefault | honly
    · exact absurd hempty hlink
    · exact Or.inl (hempty.trans hdefault.symm)
    · exact Or.inr honly
  · rw [if_neg hempty]

/-- Which links can be reached, in every table that links come to and go from. A link is reached by
some headers exactly if its caller's name is not empty and its own name is not empty either, or is
the default one, or is the caller's only one. Then the headers that name both reach it, and what
they lead to is its connection, whatever other headers there are. Otherwise those headers lack an
identity, or count as naming no link; and wherever headers lead, it is to another link. -/
theorem reached_iff (b : Backend σ κ) (s : Settings) (hheaders : s.sourceHeader ≠ s.linkHeader)
    (run : List (Event σ)) (i : Nat) (route : Route) (ha : (before b run i).link? route = some a) :
    ((∃ headers who, Identity.ofHeaders s headers = .ok who ∧
        GoesBy (before b run i) s.defaultLink who route) ↔
      Reachable (before b run i) s.defaultLink route) ∧
    (Reachable (before b run i) s.defaultLink route → ∀ headers, ∃ who,
      Identity.ofHeaders s (s.address route headers) = .ok who ∧
        (∀ other, GoesBy (before b run i) s.defaultLink who other ↔ other = route) ∧
        (before b run i).resolve s.defaultLink who = .ok a.connection) ∧
    (¬ Reachable (before b run i) s.defaultLink route →
      (∀ headers, Identity.ofHeaders s (s.address route headers) =
        if route.source = "" then .error .missingIdentity else .ok ⟨route.source, none⟩) ∧
      ∀ headers who c, Identity.ofHeaders s headers = .ok who →
        (before b run i).resolve s.defaultLink who = .ok c → ∃ other a', other ≠ route ∧
          GoesBy (before b run i) s.defaultLink who other ∧
          (before b run i).link? other = some a' ∧ a'.connection = c) := by
  have hreaches : Reachable (before b run i) s.defaultLink route → ∀ headers, ∃ who,
      Identity.ofHeaders s (s.address route headers) = .ok who ∧
        GoesBy (before b run i) s.defaultLink who route := by
    intro h headers
    refine ⟨_, ?_, h.goesBy ha⟩
    rw [Identity.ofHeaders_address hheaders, if_neg h.1]
  refine ⟨⟨?_, fun h ↦ ?_⟩, fun h headers ↦ ?_, fun h ↦ ⟨fun headers ↦ ?_, ?_⟩⟩
  · rintro ⟨headers, who, hwho, hby⟩
    exact hby.reachable hwho
  · exact ⟨_, hreaches h .empty⟩
  · obtain ⟨who, hwho, hby⟩ := hreaches h headers
    refine ⟨who, hwho, fun other ↦ ⟨fun hother ↦ hother.unique hby, ?_⟩, hby.resolve ha⟩
    rintro rfl
    exact hby
  · rw [Identity.ofHeaders_address hheaders]
    split
    · rfl
    · rename_i hsource
      have hempty : route.link = "" :=
        Decidable.byContradiction fun hne ↦ h ⟨hsource, Or.inl hne⟩
      rw [if_pos hempty]
  · intro headers who c hwho hresolve
    obtain ⟨other, a', hby, ha', hconnection⟩ := exists_goesBy_of_resolve hresolve
    refine ⟨other, a', ?_, hby, ha', hconnection⟩
    rintro rfl
    exact h (hby.reachable hwho)

/-- A link without a name is reached where it is the only one of its caller, and not beside the
default one, though that could not be connected. -/
theorem reached_iff_nameless :
    let b : Backend Unit Unit := ⟨fun _ s ↦ (.error .timeout, s), fun _ _ _ s ↦ (.crash, s)⟩
    let entries : Fields String := .ofList [("username", "u"), ("password", "p"),
      ("bucketName", "b"), ("connectionString", "c")]
    let run : List (Event Unit) := [.attach ⟨"one", "", entries, .empty⟩ (),
      .attach ⟨"two", "", entries, .empty⟩ (), .attach ⟨"two", "default", entries, .empty⟩ ()]
    let s : Settings := {}
    s.sourceHeader ≠ s.linkHeader ∧
      (∃ a, (before b run 3).link? ⟨"one", ""⟩ = some a ∧ ∀ headers, ∃ who,
        Identity.ofHeaders s (s.address ⟨"one", ""⟩ headers) = .ok who ∧
          (∀ other, GoesBy (before b run 3) s.defaultLink who other ↔ other = ⟨"one", ""⟩) ∧
          (before b run 3).resolve s.defaultLink who = .ok a.connection) ∧
      ∃ a, (before b run 3).link? ⟨"two", ""⟩ = some a ∧ ¬ ∃ headers who,
        Identity.ofHeaders s headers = .ok who ∧
          GoesBy (before b run 3) s.defaultLink who ⟨"two", ""⟩ := by
  intro b entries run s
  have hheaders : s.sourceHeader ≠ s.linkHeader := by decide
  have hroutes : (before b run 3).routes = [⟨"one", ""⟩, ⟨"two", ""⟩, ⟨"two", "default"⟩] := rfl
  have honly : (before b run 3).Only ⟨"one", ""⟩ := by
    intro link a ha
    have hroute := mem_routes_iff.2 ⟨a, ha⟩
    simpa [hroutes] using hroute
  have htwo : ¬ Reachable (before b run 3) s.defaultLink ⟨"two", ""⟩ := by
    rintro ⟨-, hlink | hdefault | honly⟩
    · exact hlink rfl
    · exact absurd hdefault (by decide)
    · exact absurd (honly "default" _ rfl) (by decide)
  obtain ⟨-, hreaches, -⟩ := reached_iff b s hheaders run 3 ⟨"one", ""⟩ rfl
  obtain ⟨hiff, -, -⟩ := reached_iff b s hheaders run 3 ⟨"two", ""⟩ rfl
  exact ⟨hheaders, ⟨_, rfl, hreaches ⟨by decide, Or.inr (Or.inr honly)⟩⟩,
    ⟨_, rfl, fun h ↦ htwo (hiff.1 h)⟩⟩

/-- A caller without a name, and a link without a name beside another link of its caller, are not
reached by any headers: what headers lead to is never the connection of either. -/
theorem nameless_not_reached :
    let b : Backend Unit String :=
      ⟨fun args s ↦ (.ok ⟨.ok (), .live args.bucket⟩, s), fun _ _ _ s ↦ (.crash, s)⟩
    let entries (bucket : String) : Fields String := .ofList [("username", "u"),
      ("password", "p"), ("bucketName", bucket), ("connectionString", "c")]
    let run : List (Event Unit) := [.attach ⟨"s", "", entries "first", .empty⟩ (),
      .attach ⟨"s", "other", entries "second", .empty⟩ (),
      .attach ⟨"", "default", entries "third", .empty⟩ ()]
    let s : Settings := {}
    s.sourceHeader ≠ s.linkHeader ∧
      ∀ route ∈ [(⟨"s", ""⟩ : Route), ⟨"", "default"⟩], ∃ a,
        (before b run 3).link? route = some a ∧
          ∀ headers who, Identity.ofHeaders s headers = .ok who →
            (before b run 3).resolve s.defaultLink who ≠ .ok a.connection := by
  intro b entries run s
  -- Each of the three links has a bucket of its own, so that connections tell routes apart.
  have hbucket : ∀ other a', (before b run 3).link? other = some a' →
      (other, a'.connection) ∈ [((⟨"s", ""⟩ : Route), Connection.live "first"),
        (⟨"s", "other"⟩, .live "second"), (⟨"", "default"⟩, .live "third")] := by
    intro other a' ha'
    have hroute : other ∈ [(⟨"s", ""⟩ : Route), ⟨"s", "other"⟩, ⟨"", "default"⟩] :=
      mem_routes_iff.2 ⟨a', ha'⟩
    simp only [List.mem_cons, List.not_mem_nil, or_false] at hroute
    rcases hroute with rfl | rfl | rfl <;> cases ha' <;> decide
  have hunreachable : ∀ route ∈ [(⟨"s", ""⟩ : Route), ⟨"", "default"⟩],
      ¬ Reachable (before b run 3) s.defaultLink route := by
    simp only [List.mem_cons, List.not_mem_nil, or_false, forall_eq_or_imp, forall_eq]
    refine ⟨?_, fun h ↦ h.1 rfl⟩
    rintro ⟨-, hlink | hdefault | honly⟩
    · exact hlink rfl
    · exact absurd hdefault (by decide)
    · exact absurd (honly "other" _ rfl) (by decide)
  refine ⟨by decide, fun route hroute ↦ ?_⟩
  have hserved : ∃ a, (before b run 3).link? route = some a := by
    simp only [List.mem_cons, List.not_mem_nil, or_false] at hroute
    rcases hroute with rfl | rfl <;> exact ⟨_, rfl⟩
  obtain ⟨a, ha⟩ := hserved
  refine ⟨a, ha, fun headers who hwho hresolve ↦ ?_⟩
  obtain ⟨other, a', hby, ha', hconnection⟩ := exists_goesBy_of_resolve hresolve
  have heq : other = route := by
    have hother := hbucket other a' ha'
    have hmine := hbucket route a ha
    rw [hconnection] at hother
    simp only [List.mem_cons, List.not_mem_nil, or_false, Prod.mk.injEq] at hother hmine
    grind
  exact hunreachable route hroute (heq ▸ hby.reachable hwho)

end Router
end Depot
