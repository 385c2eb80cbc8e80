import Depot.Memory.Bucket
import Depot.Proofs.Json.RoundTrip
import Depot.Proofs.Memory.Operation

/-!
# What a projection shows

A projection is built path by path, and each path may find that earlier ones have put objects or
whole values where it goes. What the result shows at a sequence of names does not depend on that
(`IsUnion`): behind a found path it shows what the source shows, on the way to one an object with
the names that lead on, and elsewhere nothing.

The paths that have been added decide it, so the result is described at every step of the fold
(`Shows`). A path that an earlier one covers puts a value where it stands already
(`place_of_lookup?`). Any other path meets only objects on its way, and changes what stands behind
it and nothing that does not lie on its way (`lookup?_place_append`, `exists_object_of_place`,
`lookup?_place_of_apart`). A value in order is known from what it shows (`eq_of_lookup?`), so equal
sets of found paths give equal results.
-/

set_option autoImplicit false
set_option relaxedAutoImplicit false

namespace Depot

namespace Json

/-- The names select members of objects in turn, from one value to another. -/
inductive Leads : Json → List String → Json → Prop
  | here (j : Json) : Leads j [] j
  | member {members : Members Json} {name : String} {names : List String} {k j : Json}
    (hget : Members.get? members name = some k) (hrest : Leads k names j) :
    Leads (.object members) (name :: names) j

/-- What a value shows of itself; an object shows only that it is one. -/
def face : Json → Option Json
  | .object _ => none
  | j => some j

theorem eq_of_face {j k : Json} (hface : j.face = k.face) :
    j = k ∨ ∃ m m', j = .object m ∧ k = .object m' := by
  cases j <;> cases k <;> simp_all [face]

theorem Throughout.of_leads {P : Json → Prop} {source j : Json} {names : List String}
    (hsource : Throughout P source) (hleads : Leads source names j) : Throughout P j := by
  induction hleads with
  | here => exact hsource
  | member hget _ ih =>
    exact ih ((throughout_object_iff.1 hsource).2 _ (Members.mem_of_get? hget))

theorem Within.of_leads {n : Nat} {source j : Json} {names : List String}
    (hsource : source.Within n) (hleads : Leads source names j) :
    names.length ≤ n ∧ j.Within (n - names.length) := by
  induction hleads generalizing n with
  | here => exact ⟨Nat.zero_le n, hsource⟩
  | member hget _ ih =>
    cases n with
    | zero => exact hsource.elim
    | succ n =>
      obtain ⟨hlength, hwithin⟩ := ih (hsource _ (Members.mem_of_get? hget))
      rw [List.length_cons, Nat.succ_sub_succ]
      exact ⟨Nat.succ_le_succ hlength, hwithin⟩

/-- The property holds of the empty object, and one more member does not end it. -/
structure Grows (P : Json → Prop) : Prop where
  nil : P (.object [])
  insert : ∀ {m : Members Json}, P (.object m) → ∀ name value,
    P (.object (Members.insert name value m))

theorem grows_keysInOrder : Grows KeysInOrder :=
  ⟨List.Pairwise.nil, fun hm _ _ ↦ Members.sorted_insert hm⟩

theorem grows_readsBack : Grows ReadsBack := ⟨trivial, fun _ _ _ ↦ trivial⟩

theorem Throughout.insert {P : Json → Prop} (hP : Grows P) {m : Members Json} {value : Json}
    (hm : Throughout P (.object m)) (hvalue : Throughout P value) (name : String) :
    Throughout P (.object (Members.insert name value m)) := by
  obtain ⟨hself, hmembers⟩ := throughout_object_iff.1 hm
  refine throughout_object_iff.2 ⟨hP.insert hself name value, fun p hp ↦ ?_⟩
  rcases Members.mem_insert hp with rfl | hp
  · exact hvalue
  · exact hmembers p hp

theorem Grows.throughout_nil {P : Json → Prop} (hP : Grows P) : Throughout P (.object []) :=
  throughout_object_iff.2 ⟨hP.nil, nofun⟩

theorem within_insert {n : Nat} {m : Members Json} {value : Json}
    (hm : Within (n + 1) (.object m)) (hvalue : value.Within n) (name : String) :
    Within (n + 1) (.object (Members.insert name value m)) := by
  intro p hp
  rcases Members.mem_insert hp with rfl | hp
  · exact hvalue
  · exact hm p hp

end Json

namespace Memory.Projection

open Json (Leads)

variable {source value : Json} {m : Members Json} {p q : List String}

/-! ## The names of a path -/

/-- The names are what the points of the path separate. -/
structure Splits (path : String) (names : List String) : Prop where
  nonempty : names ≠ []
  noPoint : ∀ name ∈ names, '.' ∉ name.toList
  joined : ".".intercalate names = path

theorem segments_ne_nil (path : String) : segments path ≠ [] := by
  simp [segments, Text.pieces_ne_nil]

theorem segments_eq_iff {path : String} {names : List String} :
    segments path = names ↔ Splits path names := by
  constructor
  · rintro rfl
    refine ⟨segments_ne_nil path, ?_, ?_⟩
    · intro name hname
      obtain ⟨piece, hpiece, rfl⟩ := List.mem_map.1 hname
      rw [String.toList_ofList]
      exact Text.not_mem_of_mem_pieces hpiece
    · have hpieces : (segments path).map String.toList = path.toList.splitOn '.' := by
        simp [segments, Text.pieces_eq_splitOn, Function.comp_def]
      rw [← String.toList_inj, String.toList_intercalate, hpieces]
      exact List.intercalate_splitOn '.'
  · rintro ⟨hnonempty, hpoint, rfl⟩
    have hsplit : (['.'].intercalate (names.map String.toList)).splitOn '.' =
        names.map String.toList :=
      List.splitOn_intercalate '.' (by simpa using hpoint) (by simpa using hnonempty)
    have hlist : (".".intercalate names).toList =
        ['.'].intercalate (names.map String.toList) := String.toList_intercalate
    rw [segments, Text.pieces_eq_splitOn, hlist, hsplit, List.map_map]
    simp [Function.comp_def]

/-! ## Looking up -/

theorem lookup?_object_cons (m : Members Json) (name : String) (names : List String) :
    lookup? (.object m) (name :: names) =
      (Members.get? m name).bind fun j ↦ lookup? j names := rfl

theorem lookup?_append (source : Json) (p q : List String) :
    lookup? source (p ++ q) = (lookup? source p).bind fun j ↦ lookup? j q := by
  induction p generalizing source with
  | nil => rfl
  | cons name p ih => simp only [List.cons_append, lookup?, ih, Option.bind_assoc]

theorem lookup?_eq_some_iff {j : Json} : lookup? source q = some j ↔ Leads source q j := by
  constructor
  · intro h
    induction q generalizing source with
    | nil =>
      injection h with h
      rw [h]
      exact .here j
    | cons name q ih =>
      obtain ⟨k, hget, hrest⟩ := Option.bind_eq_some_iff.1 h
      cases source with
      | object members => exact .member hget (ih hrest)
      | _ => contradiction
  · intro h
    induction h with
    | here => rfl
    | member hget _ ih => rw [lookup?_object_cons, hget, Option.bind_some, ih]

/-- On the way to something stands an object. -/
theorem exists_object_of_prefix {j : Json} (h : lookup? source p = some j) (hq : q <+: p)
    (hne : q ≠ p) : ∃ c, lookup? source q = some (.object c) := by
  obtain ⟨t, rfl⟩ := hq
  rw [lookup?_append] at h
  obtain ⟨k, hk, h⟩ := Option.bind_eq_some_iff.1 h
  cases t with
  | nil => exact absurd (List.append_nil q).symm hne
  | cons name t =>
    cases lookup?_eq_some_iff.1 h with
    | member => exact ⟨_, hk⟩

/-- A value in order is known from what it shows wherever names lead. -/
theorem eq_of_lookup? {n : Nat} {a b : Json} (ha : a.Ordered) (hb : b.Ordered)
    (hwithin : a.Within n)
    (h : ∀ q, (lookup? a q).map Json.face = (lookup? b q).map Json.face) : a = b := by
  induction n generalizing a b with
  | zero =>
    rcases Json.eq_of_face (Option.some.inj (h [])) with heq | ⟨m, m', rfl, rfl⟩
    · exact heq
    · exact hwithin.elim
  | succ n ih =>
    rcases Json.eq_of_face (Option.some.inj (h [])) with heq | ⟨m, m', rfl, rfl⟩
    · exact heq
    · obtain ⟨hsorted, hmembers⟩ := Json.ordered_object_iff.1 ha
      obtain ⟨hsorted', hmembers'⟩ := Json.ordered_object_iff.1 hb
      refine congrArg Json.object (Members.ext_of_sorted hsorted hsorted' fun name ↦ ?_)
      have hname := h [name]
      simp only [lookup?_object_cons] at hname
      cases hget : Members.get? m name with
      | none =>
        rw [hget] at hname
        cases hget' : Members.get? m' name with
        | none => rfl
        | some k' =>
          rw [hget'] at hname
          contradiction
      | some k =>
        cases hget' : Members.get? m' name with
        | none =>
          rw [hget, hget'] at hname
          contradiction
        | some k' =>
          have hmem := Members.mem_of_get? hget
          have hshow : ∀ q, (lookup? k q).map Json.face = (lookup? k' q).map Json.face := by
            intro q
            have hq := h (name :: q)
            rwa [lookup?_object_cons, lookup?_object_cons, hget, hget'] at hq
          have hmem' := Members.mem_of_get? hget'
          exact congrArg some (ih (hmembers _ hmem) (hmembers' _ hmem') (hwithin _ hmem) hshow)

/-! ## Placing one value -/

/-- Nothing but objects stands on the way that the names take. -/
def Clear (m : Members Json) (p : List String) : Prop :=
  ∀ q, q <+: p → q ≠ p → ∀ j, lookup? (.object m) q = some j → ∃ c, j = .object c

/-- The members of the object under a name, none if there is no object. -/
def below (m : Members Json) (name : String) : Members Json :=
  (((Json.object m).get? name).bind Json.members?).getD []

theorem Clear.get? {name next : String} {rest : List String}
    (h : Clear m (name :: next :: rest)) :
    Members.get? m name = none ∨ Members.get? m name = some (.object (below m name)) := by
  cases hget : Members.get? m name with
  | none => exact .inl rfl
  | some k =>
    have hlookup : lookup? (.object m) [name] = some k := by
      rw [lookup?_object_cons, hget]
      rfl
    obtain ⟨c, rfl⟩ := h [name] ⟨next :: rest, rfl⟩ (by simp) k hlookup
    refine .inr ?_
    simp only [below, Json.get?, Json.members?, Option.bind_some, hget, Option.getD_some]

theorem place_cons_of_clear {name next : String} {rest : List String}
    (h : Clear m (name :: next :: rest)) :
    place value (name :: next :: rest) m =
      Members.insert name (.object (place value (next :: rest) (below m name))) m := by
  rcases h.get? with hget | hget
  · have hbelow : below m name = [] := by
      simp only [below, Json.get?, Json.members?, Option.bind_some, hget, Option.bind_none,
        Option.getD_none]
    rw [place, hget, hbelow]
  · rw [place, hget]

/-- Behind a name, the object under it shows what the whole shows. -/
theorem Clear.lookup?_below {name next : String} {rest : List String}
    (h : Clear m (name :: next :: rest)) (hq : q ≠ []) :
    lookup? (.object (below m name)) q = lookup? (.object m) (name :: q) := by
  obtain ⟨other, q, rfl⟩ := List.exists_cons_of_ne_nil hq
  rcases h.get? with hget | hget
  · have hbelow : below m name = [] := by
      simp only [below, Json.get?, Json.members?, Option.bind_some, hget, Option.bind_none,
        Option.getD_none]
    rw [hbelow, lookup?_object_cons m, hget]
    rfl
  · rw [lookup?_object_cons m, hget, Option.bind_some]

theorem Clear.below {name next : String} {rest : List String}
    (h : Clear m (name :: next :: rest)) : Clear (Projection.below m name) (next :: rest) := by
  intro q hprefix hne j hlookup
  by_cases hq : q = []
  · rw [hq] at hlookup
    exact ⟨_, (Option.some.inj hlookup).symm⟩
  · rw [h.lookup?_below hq] at hlookup
    exact h (name :: q) (List.prefix_cons_inj name |>.2 hprefix) (by simpa using hne) j hlookup

theorem lookup?_insert (m : Members Json) (name : String) (names : List String) :
    lookup? (.object (Members.insert name value m)) (name :: names) = lookup? value names := by
  rw [lookup?_object_cons, Members.get?_insert, if_pos rfl, Option.bind_some]

/-- Behind the place stands what was put there. -/
theorem lookup?_place_append (hp : p ≠ []) (hclear : Clear m p) (t : List String) :
    lookup? (.object (place value p m)) (p ++ t) = lookup? value t := by
  induction p generalizing m with
  | nil => exact absurd rfl hp
  | cons name p ih =>
    cases p with
    | nil => exact lookup?_insert m name t
    | cons next rest =>
      rw [place_cons_of_clear hclear, List.cons_append, lookup?_insert]
      exact ih (List.cons_ne_nil next rest) hclear.below

/-- On the way to the place stand objects. -/
theorem exists_object_of_place (hclear : Clear m p) (hq : q <+: p) (hne : q ≠ p) :
    ∃ c, lookup? (.object (place value p m)) q = some (.object c) := by
  induction p generalizing m q with
  | nil => exact absurd (List.prefix_nil.1 hq) hne
  | cons name p ih =>
    cases q with
    | nil => exact ⟨_, rfl⟩
    | cons other q =>
      obtain ⟨rfl, hrest⟩ := List.cons_prefix_cons.1 hq
      have hneRest : q ≠ p := fun heq ↦ hne (heq ▸ rfl)
      cases p with
      | nil => exact absurd (List.prefix_nil.1 hrest) hneRest
      | cons next rest =>
        rw [place_cons_of_clear hclear, lookup?_insert]
        exact ih hclear.below hrest hneRest

/-- What lies neither behind the place nor on the way to it stays. -/
theorem lookup?_place_of_apart (hclear : Clear m p) (hbehind : ¬ p <+: q) (hway : ¬ q <+: p) :
    lookup? (.object (place value p m)) q = lookup? (.object m) q := by
  induction p generalizing m q with
  | nil => exact absurd List.nil_prefix hbehind
  | cons name p ih =>
    cases q with
    | nil => exact absurd List.nil_prefix hway
    | cons other q =>
      have hinsert : ∀ j : Json, name ≠ other →
          lookup? (.object (Members.insert name j m)) (other :: q) =
            lookup? (.object m) (other :: q) := by
        intro j hname
        rw [lookup?_object_cons, Members.get?_insert, if_neg hname, lookup?_object_cons]
      cases p with
      | nil =>
        refine hinsert value fun hname ↦ hbehind ?_
        exact hname ▸ List.cons_prefix_cons.2 ⟨rfl, List.nil_prefix⟩
      | cons next rest =>
        rw [place_cons_of_clear hclear]
        by_cases hname : name = other
        · subst hname
          rw [List.cons_prefix_cons] at hbehind hway
          have hbehindRest : ¬ next :: rest <+: q := fun h ↦ hbehind ⟨rfl, h⟩
          have hwayRest : ¬ q <+: next :: rest := fun h ↦ hway ⟨rfl, h⟩
          have hne : q ≠ [] := fun h ↦ hwayRest (h ▸ List.nil_prefix)
          rw [lookup?_insert, ih hclear.below hbehindRest hwayRest, hclear.lookup?_below hne]
        · exact hinsert _ hname

/-- Putting a value where it stands already changes nothing. -/
theorem place_of_lookup? (hordered : Json.Ordered (.object m))
    (h : lookup? (.object m) p = some value) : place value p m = m := by
  induction p generalizing m with
  | nil => rfl
  | cons name p ih =>
    obtain ⟨hsorted, hmembers⟩ := Json.ordered_object_iff.1 hordered
    obtain ⟨k, hget, hrest⟩ := Option.bind_eq_some_iff.1 h
    cases p with
    | nil => exact Members.insert_of_get? hsorted (hget.trans hrest)
    | cons next rest =>
      cases lookup?_eq_some_iff.1 hrest with
      | member hnext hleads =>
        have hget : Members.get? m name = some (.object _) := hget
        have hchild := ih (hmembers _ (Members.mem_of_get? hget)) hrest
        rw [place, hget]
        simp only [hchild]
        exact Members.insert_of_get? hsorted hget

theorem throughout_place {P : Json → Prop} (hP : Json.Grows P)
    (hm : Json.Throughout P (.object m)) (hvalue : Json.Throughout P value) (p : List String) :
    Json.Throughout P (.object (place value p m)) := by
  induction p generalizing m with
  | nil => exact hm
  | cons name p ih =>
    cases p with
    | nil => exact hm.insert hP hvalue name
    | cons next rest =>
      unfold place
      split
      · exact hm.insert hP (ih hP.throughout_nil) name
      · rename_i child hget
        have hchild := (Json.throughout_object_iff.1 hm).2 _ (Members.mem_of_get? hget)
        exact hm.insert hP (ih hchild) name
      · exact hm

theorem within_place {n : Nat} (hm : Json.Within (n + 1) (.object m)) (hlength : p.length ≤ n + 1)
    (hvalue : value.Within (n + 1 - p.length)) :
    Json.Within (n + 1) (.object (place value p m)) := by
  induction p generalizing m n with
  | nil => exact hm
  | cons name p ih =>
    rw [List.length_cons, Nat.add_sub_add_right] at hvalue
    cases p with
    | nil => exact Json.within_insert hm hvalue name
    | cons next rest =>
      have hbelow : (next :: rest).length ≤ n := Nat.le_of_succ_le_succ hlength
      obtain ⟨n, rfl⟩ : ∃ n', n = n' + 1 :=
        Nat.exists_eq_add_one.2 (Nat.lt_of_lt_of_le (Nat.zero_lt_succ _) hbelow)
      unfold place
      split
      · have hempty : Json.Within (n + 1) (.object []) := fun _ h ↦ absurd h List.not_mem_nil
        exact Json.within_insert hm (ih hempty hbelow hvalue) name
      · rename_i child hget
        have hchild := hm _ (Members.mem_of_get? hget)
        exact Json.within_insert hm (ih hchild hbelow hvalue) name
      · exact hm

/-! ## What the members show behind the paths that were added -/

/-- The names go behind one of the paths. -/
def Covered (found : List String → Prop) (q : List String) : Prop := ∃ p, found p ∧ p <+: q

/-- The names lie on the way to one of the paths. -/
def OnTheWay (found : List String → Prop) (q : List String) : Prop := ∃ p, found p ∧ q <+: p

/-- Behind the paths the members show what the source shows, on the way to them objects, and
elsewhere nothing. -/
structure Shows (source : Json) (found : List String → Prop) (m : Members Json) : Prop where
  behind : ∀ q, Covered found q → lookup? (.object m) q = lookup? source q
  between : ∀ q, ¬ Covered found q → OnTheWay found q →
    ∃ c, lookup? (.object m) q = some (.object c)
  elsewhere : ∀ q, q ≠ [] → ¬ Covered found q → ¬ OnTheWay found q →
    lookup? (.object m) q = none

variable {found : List String → Prop}

theorem shows_nil (source : Json) : Shows source (fun _ ↦ False) [] := by
  refine ⟨fun q ⟨p, hp, _⟩ ↦ hp.elim, fun q _ ⟨p, hp, _⟩ ↦ hp.elim, fun q hq _ _ ↦ ?_⟩
  obtain ⟨name, names, rfl⟩ := List.exists_cons_of_ne_nil hq
  rfl

/-- A path that no other one covers meets only objects on its way. -/
theorem Shows.clear (h : Shows source found m) (hp : ¬ Covered found p) : Clear m p := by
  intro q hq hne j hj
  have hcover : ¬ Covered found q := fun ⟨r, hr, hrq⟩ ↦ hp ⟨r, hr, hrq.trans hq⟩
  by_cases hempty : q = []
  · rw [hempty] at hj
    exact ⟨m, (Option.some.inj hj).symm⟩
  · by_cases hway : OnTheWay found q
    · obtain ⟨c, hc⟩ := h.between q hcover hway
      exact ⟨c, Option.some.inj (hj.symm.trans hc)⟩
    · rw [h.elsewhere q hempty hcover hway] at hj
      contradiction

/-- Adding a path to those that cover it changes nothing. -/
theorem Shows.of_covered (h : Shows source found m) (hp : Covered found p) :
    Shows source (fun r ↦ found r ∨ r = p) m := by
  obtain ⟨s, hs, hsp⟩ := hp
  have hcover : ∀ q, Covered (fun r ↦ found r ∨ r = p) q → Covered found q := by
    rintro q ⟨r, hr | rfl, hrq⟩
    · exact ⟨r, hr, hrq⟩
    · exact ⟨s, hs, hsp.trans hrq⟩
  refine ⟨fun q hq ↦ h.behind q (hcover q hq), fun q hq hway ↦ ?_, fun q hne hq hway ↦ ?_⟩
  · have hold : ¬ Covered found q := fun ⟨r, hr, hrq⟩ ↦ hq ⟨r, .inl hr, hrq⟩
    obtain ⟨r, hr | rfl, hqr⟩ := hway
    · exact h.between q hold ⟨r, hr, hqr⟩
    · -- Both are on the way to the new path, so one of them is on the way to the other.
      rcases List.prefix_or_prefix_of_prefix hqr hsp with hqs | hsq
      · exact h.between q hold ⟨s, hs, hqs⟩
      · exact absurd ⟨s, hs, hsq⟩ hold
  · exact h.elsewhere q hne (fun ⟨r, hr, hrq⟩ ↦ hq ⟨r, .inl hr, hrq⟩)
      fun ⟨r, hr, hqr⟩ ↦ hway ⟨r, .inl hr, hqr⟩

/-- Adding a path that is not covered shows what the source has behind it. -/
theorem Shows.place (h : Shows source found m) (hp : ¬ Covered found p) (hne : p ≠ [])
    (hvalue : lookup? source p = some value) :
    Shows source (fun r ↦ found r ∨ r = p) (place value p m) := by
  have hclear := h.clear hp
  have hbehind : ∀ t, lookup? (.object (Projection.place value p m)) (p ++ t) =
      lookup? source (p ++ t) := by
    intro t
    rw [lookup?_place_append hne hclear, lookup?_append, hvalue, Option.bind_some]
  have hsame : ∀ q, ¬ p <+: q → ¬ q <+: p →
      lookup? (.object (Projection.place value p m)) q = lookup? (.object m) q :=
    fun q ↦ lookup?_place_of_apart hclear
  refine ⟨fun q hq ↦ ?_, fun q hq hway ↦ ?_, fun q hempty hq hway ↦ ?_⟩
  · by_cases hpq : p <+: q
    · obtain ⟨t, rfl⟩ := hpq
      exact hbehind t
    · obtain ⟨r, hr | rfl, hrq⟩ := hq
      · have hqp : ¬ q <+: p := fun hqp ↦ hp ⟨r, hr, hrq.trans hqp⟩
        rw [hsame q hpq hqp]
        exact h.behind q ⟨r, hr, hrq⟩
      · exact absurd hrq hpq
  · have hpq : ¬ p <+: q := fun hpq ↦ hq ⟨p, .inr rfl, hpq⟩
    by_cases hqp : q <+: p
    · exact exists_object_of_place hclear hqp fun heq ↦ hpq (heq ▸ List.prefix_rfl)
    · rw [hsame q hpq hqp]
      obtain ⟨r, hr | rfl, hqr⟩ := hway
      · exact h.between q (fun ⟨s, hs, hsq⟩ ↦ hq ⟨s, .inl hs, hsq⟩) ⟨r, hr, hqr⟩
      · exact absurd hqr hqp
  · have hpq : ¬ p <+: q := fun hpq ↦ hq ⟨p, .inr rfl, hpq⟩
    have hqp : ¬ q <+: p := fun hqp ↦ hway ⟨p, .inr rfl, hqp⟩
    rw [hsame q hpq hqp]
    exact h.elsewhere q hempty (fun ⟨r, hr, hrq⟩ ↦ hq ⟨r, .inl hr, hrq⟩)
      fun ⟨r, hr, hqr⟩ ↦ hway ⟨r, .inl hr, hqr⟩

/-! ## What the whole projection shows -/

/-- One of the paths that lead somewhere in the source. -/
def Found (source : Json) (paths : List (List String)) (p : List String) : Prop :=
  p ∈ paths ∧ ∃ j, Leads source p j

theorem shows_add (h : Shows source found m) (hordered : Json.Ordered (.object m)) (hne : p ≠ []) :
    Shows source (fun r ↦ found r ∨ r = p ∧ ∃ j, Leads source p j) (add source m p) := by
  unfold add
  split
  · rename_i hnone
    have hlost : ¬ ∃ j, Leads source p j := by
      rintro ⟨j, hj⟩
      rw [lookup?_eq_some_iff.2 hj] at hnone
      contradiction
    simpa [hlost] using h
  · rename_i j hj
    have hleads : ∃ j, Leads source p j := ⟨j, lookup?_eq_some_iff.1 hj⟩
    simp only [hleads, and_true]
    by_cases hp : Covered found p
    · rw [place_of_lookup? hordered ((h.behind p hp).trans hj)]
      exact h.of_covered hp
    · exact h.place hp hne hj

theorem throughout_add {P : Json → Prop} (hP : Json.Grows P) (hsource : Json.Throughout P source)
    (hm : Json.Throughout P (.object m)) (p : List String) :
    Json.Throughout P (.object (add source m p)) := by
  unfold add
  split
  · exact hm
  · rename_i j hj
    exact throughout_place hP hm (hsource.of_leads (lookup?_eq_some_iff.1 hj)) p

theorem within_add {n : Nat} (hsource : source.Within (n + 1))
    (hm : Json.Within (n + 1) (.object m)) (p : List String) :
    Json.Within (n + 1) (.object (add source m p)) := by
  unfold add
  split
  · exact hm
  · rename_i j hj
    obtain ⟨hlength, hwithin⟩ := hsource.of_leads (lookup?_eq_some_iff.1 hj)
    exact within_place hm hlength hwithin

theorem shows_foldl {paths : List (List String)} (hsource : source.Ordered)
    (h : Shows source found m) (hordered : Json.Ordered (.object m))
    (hpaths : ∀ p ∈ paths, p ≠ []) :
    Shows source (fun r ↦ found r ∨ Found source paths r) (paths.foldl (add source) m) := by
  induction paths generalizing found m with
  | nil => simpa [Found] using h
  | cons p paths ih =>
    have hp := hpaths p List.mem_cons_self
    have hadd := throughout_add Json.grows_keysInOrder hsource hordered p
    have hrest := ih (shows_add h hordered hp) hadd fun r hr ↦
      hpaths r (List.mem_cons_of_mem p hr)
    have hfound : ∀ r, (found r ∨ r = p ∧ ∃ j, Leads source p j) ∨ Found source paths r ↔
        found r ∨ Found source (p :: paths) r := by
      intro r
      rw [or_assoc]
      refine or_congr_right ?_
      simp only [Found, List.mem_cons, or_and_right]
      refine or_congr_left ⟨?_, ?_⟩
      · rintro ⟨rfl, hj⟩
        exact ⟨rfl, hj⟩
      · rintro ⟨rfl, hj⟩
        exact ⟨rfl, hj⟩
    simp only [hfound] at hrest
    exact hrest

theorem throughout_foldl {P : Json → Prop} (hP : Json.Grows P) {paths : List (List String)}
    (hsource : Json.Throughout P source) (hm : Json.Throughout P (.object m)) :
    Json.Throughout P (.object (paths.foldl (add source) m)) := by
  induction paths generalizing m with
  | nil => exact hm
  | cons p paths ih => exact ih (throughout_add hP hsource hm p)

theorem within_foldl {n : Nat} {paths : List (List String)} (hsource : source.Within (n + 1))
    (hm : Json.Within (n + 1) (.object m)) :
    Json.Within (n + 1) (.object (paths.foldl (add source) m)) := by
  induction paths generalizing m with
  | nil => exact hm
  | cons p paths ih => exact ih (within_add hsource hm p)

/-- The members of an object on the way are the names that lead on to a found path. -/
theorem Shows.mem_keys_iff (h : Shows source found m)
    (hfound : ∀ p, found p → ∃ j, Leads source p j) (hq : ¬ Covered found q) {c : Members Json}
    (hc : lookup? (.object m) q = some (.object c)) (hsorted : Members.Sorted c) (name : String) :
    name ∈ c.map Prod.fst ↔ OnTheWay found (q ++ [name]) := by
  have hnext : lookup? (.object m) (q ++ [name]) = Members.get? c name := by
    rw [lookup?_append, hc, Option.bind_some, lookup?_object_cons]
    exact Option.bind_fun_some _
  have hcover : ∀ p, found p → p <+: q ++ [name] → p = q ++ [name] := by
    intro p hp hprefix
    refine (List.prefix_concat_iff.1 hprefix).resolve_right fun hpq ↦ hq ⟨p, hp, hpq⟩
  rw [← Members.isSome_get?_iff hsorted, ← hnext]
  constructor
  · intro hsome
    refine Classical.byContradiction fun hway ↦ ?_
    have hapart : ¬ Covered found (q ++ [name]) := by
      rintro ⟨p, hp, hprefix⟩
      exact hway ⟨p, hp, hcover p hp hprefix ▸ List.prefix_rfl⟩
    rw [h.elsewhere _ (by simp) hapart hway] at hsome
    contradiction
  · intro hway
    by_cases hcovered : Covered found (q ++ [name])
    · obtain ⟨p, hp, hprefix⟩ := hcovered
      obtain ⟨j, hj⟩ := hfound p hp
      rw [h.behind _ ⟨p, hp, hprefix⟩, ← hcover p hp hprefix, lookup?_eq_some_iff.2 hj]
      rfl
    · obtain ⟨c', hc'⟩ := h.between _ hcovered hway
      rw [hc']
      rfl

/-- The union of what the found paths lead to: behind them what the source has, on the way to them
objects with the names that lead on, and elsewhere nothing. -/
structure IsUnion (source : Json) (found : List String → Prop) (r : Json) : Prop where
  ordered : r.Ordered
  root : ∃ members, r = .object members ∧
    ∀ name, name ∈ members.map Prod.fst ↔ OnTheWay found [name]
  behind : ∀ q, Covered found q → ∀ j, Leads r q j ↔ Leads source q j
  between : ∀ q, ¬ Covered found q → OnTheWay found q → ∃ members, Leads r q (.object members) ∧
    ∀ name, name ∈ members.map Prod.fst ↔ OnTheWay found (q ++ [name])
  elsewhere : ∀ q, q ≠ [] → ¬ Covered found q → ¬ OnTheWay found q → ∀ j, ¬ Leads r q j

theorem Shows.isUnion (h : Shows source found m) (hordered : Json.Ordered (.object m))
    (hfound : ∀ p, found p → p ≠ [] ∧ ∃ j, Leads source p j) :
    IsUnion source found (.object m) := by
  have hkeys : ∀ q c, ¬ Covered found q → lookup? (.object m) q = some (.object c) →
      ∀ name, name ∈ c.map Prod.fst ↔ OnTheWay found (q ++ [name]) := by
    intro q c hq hc
    have hsorted := (Json.ordered_object_iff.1 (hordered.of_leads (lookup?_eq_some_iff.1 hc))).1
    exact h.mem_keys_iff (fun p hp ↦ (hfound p hp).2) hq hc hsorted
  refine ⟨hordered, ⟨m, rfl, ?_⟩, fun q hq j ↦ ?_, fun q hq hway ↦ ?_, fun q hne hq hway j hj ↦ ?_⟩
  · refine hkeys [] m ?_ rfl
    rintro ⟨p, hp, hprefix⟩
    exact (hfound p hp).1 (List.prefix_nil.1 hprefix)
  · rw [← lookup?_eq_some_iff, ← lookup?_eq_some_iff, h.behind q hq]
  · obtain ⟨c, hc⟩ := h.between q hq hway
    exact ⟨c, lookup?_eq_some_iff.1 hc, hkeys q c hq hc⟩
  · have hnone := h.elsewhere q hne hq hway
    rw [lookup?_eq_some_iff.2 hj] at hnone
    contradiction

/-- Members in order that show the same behind the same paths are the same. -/
theorem Shows.eq {source' : Json} {m' : Members Json} {n : Nat} (h : Shows source found m)
    (h' : Shows source' found m') (hordered : Json.Ordered (.object m))
    (hordered' : Json.Ordered (.object m')) (hwithin : Json.Within n (.object m))
    (hsame : ∀ q, Covered found q → lookup? source q = lookup? source' q) :
    Json.object m = .object m' := by
  refine eq_of_lookup? hordered hordered' hwithin fun q ↦ ?_
  by_cases hcover : Covered found q
  · rw [h.behind q hcover, h'.behind q hcover, hsame q hcover]
  · by_cases hway : OnTheWay found q
    · obtain ⟨c, hc⟩ := h.between q hcover hway
      obtain ⟨c', hc'⟩ := h'.between q hcover hway
      rw [hc, hc']
      rfl
    · by_cases hempty : q = []
      · rw [hempty]
        rfl
      · rw [h.elsewhere q hempty hcover hway, h'.elsewhere q hempty hcover hway]

section

variable {paths : List (List String)} {n : Nat}

theorem throughout_project {P : Json → Prop} (hP : Json.Grows P)
    (hsource : Json.Throughout P source) : Json.Throughout P (project source paths) :=
  throughout_foldl hP hsource hP.throughout_nil

theorem shows_project (hsource : source.Ordered) (hpaths : ∀ p ∈ paths, p ≠ []) :
    ∃ m, project source paths = .object m ∧ Shows source (Found source paths) m ∧
      Json.Ordered (.object m) := by
  have hall := shows_foldl hsource (shows_nil source) Json.grows_keysInOrder.throughout_nil hpaths
  simp only [false_or] at hall
  exact ⟨_, rfl, hall, throughout_project Json.grows_keysInOrder hsource⟩

theorem within_project (hwithin : source.Within (n + 1)) :
    (project source paths).Within (n + 1) :=
  within_foldl hwithin fun _ h ↦ absurd h List.not_mem_nil

theorem isUnion_project (hsource : source.Ordered) (hpaths : ∀ p ∈ paths, p ≠ []) :
    IsUnion source (Found source paths) (project source paths) := by
  obtain ⟨m, hproject, hshows, hordered⟩ := shows_project hsource hpaths
  rw [hproject]
  exact hshows.isUnion hordered fun p hp ↦ ⟨hpaths p hp.1, hp.2⟩

/-- Only the set of found paths counts, and what the source has behind them. -/
theorem project_eq {source' : Json} {paths' : List (List String)} (hsource : source.Ordered)
    (hsource' : source'.Ordered) (hwithin : source.Within (n + 1)) (hpaths : ∀ p ∈ paths, p ≠ [])
    (hpaths' : ∀ p ∈ paths', p ≠ []) (hfound : ∀ p, Found source paths p ↔ Found source' paths' p)
    (hsame : ∀ q, Covered (Found source paths) q → lookup? source q = lookup? source' q) :
    project source paths = project source' paths' := by
  obtain ⟨m, hproject, hshows, hordered⟩ := shows_project hsource hpaths
  obtain ⟨m', hproject', hshows', hordered'⟩ := shows_project hsource' hpaths'
  have hfound : Found source' paths' = Found source paths :=
    funext fun p ↦ propext (hfound p).symm
  rw [hfound] at hshows'
  have hm : Json.Within (n + 1) (.object m) := hproject ▸ within_project hwithin
  rw [hproject, hproject']
  exact hshows.eq hshows' hordered hordered' hm hsame

/-- A projection that is projected once more stays as it is. -/
theorem project_project (hsource : source.Ordered) (hwithin : source.Within (n + 1))
    (hpaths : ∀ p ∈ paths, p ≠ []) :
    project (project source paths) paths = project source paths := by
  have hunion := isUnion_project hsource hpaths
  have hfound : ∀ p, Found source paths p ↔ Found (project source paths) paths p := by
    intro p
    constructor
    · rintro ⟨hp, j, hj⟩
      exact ⟨hp, j, (hunion.behind p ⟨p, ⟨hp, j, hj⟩, List.prefix_rfl⟩ j).2 hj⟩
    · rintro ⟨hp, j, hj⟩
      refine ⟨hp, ?_⟩
      by_cases hcover : Covered (Found source paths) p
      · exact ⟨j, (hunion.behind p hcover j).1 hj⟩
      · by_cases hway : OnTheWay (Found source paths) p
        · obtain ⟨r, ⟨hr, k, hk⟩, hpr⟩ := hway
          have hne : p ≠ r := fun heq ↦
            hcover ⟨r, ⟨hr, k, hk⟩, heq ▸ List.prefix_rfl⟩
          obtain ⟨c, hc⟩ := exists_object_of_prefix (lookup?_eq_some_iff.2 hk) hpr hne
          exact ⟨_, lookup?_eq_some_iff.1 hc⟩
        · exact absurd hj (hunion.elsewhere p (hpaths p hp) hcover hway j)
  refine (project_eq hsource hunion.ordered hwithin hpaths hpaths hfound fun q hq ↦ ?_).symm
  refine Option.ext fun j ↦ ?_
  rw [lookup?_eq_some_iff, lookup?_eq_some_iff, hunion.behind q hq j]

end

/-! ## Projected reads -/

/-- One of the paths consists of the names, and they lead somewhere in the source. -/
def Requested (source : Json) (paths : List String) (names : List String) : Prop :=
  ∃ path ∈ paths, Splits path names ∧ ∃ j, Leads source names j

theorem found_segments (source : Json) (paths : List String) :
    Found source (paths.map segments) = Requested source paths := by
  funext names
  simp only [Found, Requested, List.mem_map, segments_eq_iff]
  exact propext ⟨fun ⟨⟨path, hpath, hsplits⟩, hj⟩ ↦ ⟨path, hpath, hsplits, hj⟩,
    fun ⟨path, hpath, hsplits, hj⟩ ↦ ⟨⟨path, hpath, hsplits⟩, hj⟩⟩

theorem ne_nil_of_mem_segments (paths : List String) : ∀ p ∈ paths.map segments, p ≠ [] := by
  intro p hp
  obtain ⟨path, -, rfl⟩ := List.mem_map.1 hp
  exact segments_ne_nil path

end Memory.Projection

namespace Memory.Bucket

open Projection

variable {b : Bucket} {k : Keyspace} {id : String} {now : Nat} {o : ReadOptions} {e : Entry}
  {source : Json}

/-- The lifetime that a read shows, if it is asked for. -/
def shownLifetime? (e : Entry) (o : ReadOptions) (now : Nat) : Option Nat :=
  if o.withExpiry then e.remaining? now else none

theorem step_get_of_live? (hlive : b.live? ⟨k, id⟩ now = some e) (hproject : o.project = []) :
    b.step k now (.get id o) = .ok (⟨e.content, e.cas, shownLifetime? e o now⟩, b) := by
  have hget := get_eq_ok_iff.2 ⟨e, hlive, e.content, if_pos hproject, rfl⟩
  exact map_eq_ok_iff.2 ⟨_, hget, rfl⟩

theorem step_get_of_parse (hlive : b.live? ⟨k, id⟩ now = some e)
    (hparse : Json.parse e.content = some source) (hproject : o.project ≠ []) :
    b.step k now (.get id o) =
      .ok (⟨Text.encodeChars (project source (o.project.map segments)).write, e.cas,
        shownLifetime? e o now⟩, b) := by
  have hcontent : ofContent e.content o.project =
      .ok (Text.encodeChars (project source (o.project.map segments)).write) := by
    rw [ofContent, hparse]
  have hget := get_eq_ok_iff.2 ⟨e, hlive, _, (if_neg hproject).trans hcontent, rfl⟩
  exact map_eq_ok_iff.2 ⟨_, hget, rfl⟩

/-- A read with paths answers the text of the union of what they lead to, with the version and the
lifetime of a read without, and it leaves the bucket as it is. Only the set of found paths counts.
The union projected once more is the union again; so is its text, if its doubles are read back. -/
theorem step_get_of_project (hlive : b.live? ⟨k, id⟩ now = some e)
    (hparse : Json.parse e.content = some source) (hproject : o.project ≠ []) :
    ∃ r, IsUnion source (Requested source o.project) r ∧
      b.step k now (.get id o) =
        .ok (⟨Text.encodeChars r.write, e.cas, shownLifetime? e o now⟩, b) ∧
      b.step k now (.get id { o with project := [] }) =
        .ok (⟨e.content, e.cas, shownLifetime? e o now⟩, b) ∧
      (∀ o' : ReadOptions, o'.project ≠ [] →
        (∀ names, Requested source o'.project names ↔ Requested source o.project names) →
        b.step k now (.get id o') =
          .ok (⟨Text.encodeChars r.write, e.cas, shownLifetime? e o' now⟩, b)) ∧
      project r (o.project.map segments) = r ∧
      (source.Exact → r.Exact) ∧
      (r.Exact → ∀ (b' : Bucket) (k' : Keyspace) (id' : String) (now' : Nat) (e' : Entry),
        b'.live? ⟨k', id'⟩ now' = some e' → e'.content = Text.encodeChars r.write →
        b'.step k' now' (.get id' o) =
          .ok (⟨Text.encodeChars r.write, e'.cas, shownLifetime? e' o now'⟩, b')) := by
  obtain ⟨hordered, hwithin⟩ := Json.of_parse hparse
  have hpaths := ne_nil_of_mem_segments
  have hunion := isUnion_project hordered (hpaths o.project)
  have hagain := project_project hordered hwithin (hpaths o.project)
  refine ⟨project source (o.project.map segments), found_segments source o.project ▸ hunion,
    step_get_of_parse hlive hparse hproject, step_get_of_live? hlive rfl, ?_, hagain,
    throughout_project Json.grows_readsBack, ?_⟩
  · intro o' hproject' hsame
    have hsets : ∀ p, Found source (o'.project.map segments) p ↔
        Found source (o.project.map segments) p := by
      rw [found_segments, found_segments]
      exact hsame
    rw [step_get_of_parse hlive hparse hproject', project_eq hordered hordered hwithin
      (hpaths o'.project) (hpaths o.project) hsets fun _ _ ↦ rfl]
  · intro hexact b' k' id' now' e' hlive' hcontent
    have hback := Json.parse_write (within_project hwithin) hunion.ordered hexact
    rw [step_get_of_parse hlive' (hcontent ▸ hback) hproject, hagain]

/-- A bucket that holds one text, under the identity `a`. -/
def holding (text : String) : Bucket :=
  (create "b" 0 {}).store ⟨.default, "a"⟩ (Text.encode text) none 0

/-- Two paths, one of them behind the other, a third that leads nowhere and one through a number. -/
def overlapping : ReadOptions := { withExpiry := true, project := ["n.x", "n", "m", "n.y.z"] }

theorem step_get_of_project_overlapping :
    let source := Json.object [("n", .object [("x", .null), ("y", .bool true)]), ("o", .text "o")]
    let b := holding "\x7b\"o\":\"o\",\"n\":\x7b\"y\":true,\"x\":null\x7d\x7d"
    ∃ r, IsUnion source (Requested source overlapping.project) r ∧ r.Exact ∧
      b.step .default 0 (.get "a" overlapping) = .ok (⟨Text.encodeChars r.write, 2, none⟩, b) := by
  intro source b
  have hlive : b.live? ⟨.default, "a"⟩ 0 = some ⟨_, 2, none, none⟩ := rfl
  have hparse : Json.parse (Text.encode
      "\x7b\"o\":\"o\",\"n\":\x7b\"y\":true,\"x\":null\x7d\x7d") = some source := by
    rfl
  obtain ⟨r, hunion, hstep, -, -, -, hexact, -⟩ :=
    step_get_of_project (o := overlapping) hlive hparse (by decide)
  refine ⟨r, hunion, hexact ?_, hstep⟩
  have hplain {j : Json} (hj : j.IsScalar) (hback : j.ReadsBack) : j.Exact :=
    Json.exact_of_isScalar hj hback
  simp only [source, Json.exact_object_iff, List.forall_mem_cons]
  exact ⟨⟨hplain trivial trivial, hplain trivial trivial, nofun⟩, hplain trivial trivial, nofun⟩

/-- What a read of the document with one path answers. -/
def projected? (b : Bucket) (path : String) : Option Bytes :=
  (b.step .default 0 (.get "a" { project := [path] })).toOption.map fun r ↦ r.1.content

/-- A double need not be read back from its own text: the reader rounds the digits and then the
quotient by the power of ten. The text of a projection then changes when it is projected again. -/
theorem projected?_drifts :
    projected? (holding "\x7b\"a\":0.9677229687988706\x7d") "a" =
        some (Text.encode "\x7b\"a\":0.9677229687988707\x7d") ∧
      projected? (holding "\x7b\"a\":0.9677229687988707\x7d") "a" =
        some (Text.encode "\x7b\"a\":0.9677229687988708\x7d") := by
  constructor <;> decide +kernel

end Memory.Bucket
end Depot
