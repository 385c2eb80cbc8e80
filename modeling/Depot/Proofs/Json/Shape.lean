import Depot.Json.Parser

/-!
# What a value that was read looks like

A value holds other values: its items or the values of its members, theirs, and so on (`Inside`).
Some properties are asked of all of them (`Throughout`): that the members of every object stand in
the order of their keys (`Ordered`), or that every double is read back from its own text. `Within n`
bounds how many containers stand inside one another.

The reader gives no other values than ordered ones within the nesting that it allows
(`within_of_value`, `ordered_of_value`).
-/

set_option autoImplicit false
set_option relaxedAutoImplicit false

namespace Depot.Json

/-! ## Values inside a value -/

/-- A value stands somewhere in another one, or is that one. -/
inductive Inside : Json → Json → Prop
  | self (j : Json) : Inside j j
  | item {k j : Json} {items : List Json} (hk : Inside k j) (hj : j ∈ items) :
    Inside k (.array items)
  | member {k : Json} {p : String × Json} {members : Members Json} (hk : Inside k p.2)
    (hp : p ∈ members) : Inside k (.object members)

/-- The property holds of a value and of all values in it. -/
def Throughout (P : Json → Prop) (j : Json) : Prop := ∀ k, Inside k j → P k

variable {P : Json → Prop}

theorem throughout_array_iff {items : List Json} :
    Throughout P (.array items) ↔ P (.array items) ∧ ∀ j ∈ items, Throughout P j := by
  constructor
  · intro h
    exact ⟨h _ (.self _), fun j hj k hk ↦ h k (.item hk hj)⟩
  · rintro ⟨hself, hitems⟩ k hk
    cases hk with
    | self => exact hself
    | item hk hj => exact hitems _ hj k hk

theorem throughout_object_iff {members : Members Json} :
    Throughout P (.object members) ↔ P (.object members) ∧ ∀ p ∈ members, Throughout P p.2 := by
  constructor
  · intro h
    exact ⟨h _ (.self _), fun p hp k hk ↦ h k (.member hk hp)⟩
  · rintro ⟨hself, hmembers⟩ k hk
    cases hk with
    | self => exact hself
    | member hk hp => exact hmembers _ hp k hk

/-- Neither an array nor an object. -/
def IsScalar : Json → Prop
  | .array _ => False
  | .object _ => False
  | _ => True

theorem throughout_iff_of_isScalar {j : Json} (hj : j.IsScalar) : Throughout P j ↔ P j := by
  constructor
  · intro h
    exact h j (.self j)
  · rintro h k hk
    cases hk with
    | self => exact h
    | item => exact hj.elim
    | member => exact hj.elim

/-! ## Order and nesting -/

/-- The members of an object stand in the order of their keys. -/
def KeysInOrder : Json → Prop
  | .object members => Members.Sorted members
  | _ => True

/-- So do the members of every object in the value. -/
def Ordered (j : Json) : Prop := Throughout KeysInOrder j

/-- At most so many containers stand inside one another. -/
def Within : Nat → Json → Prop
  | n + 1, .array items => ∀ j ∈ items, Within n j
  | n + 1, .object members => ∀ p ∈ members, Within n p.2
  | 0, .array _ => False
  | 0, .object _ => False
  | _, _ => True

theorem within_of_isScalar {j : Json} (hj : j.IsScalar) (n : Nat) : j.Within n := by
  cases n <;> cases j <;> trivial

theorem ordered_array_iff {items : List Json} :
    Ordered (.array items) ↔ ∀ j ∈ items, Ordered j :=
  throughout_array_iff.trans ⟨And.right, fun h ↦ ⟨trivial, h⟩⟩

theorem ordered_object_iff {members : Members Json} :
    Ordered (.object members) ↔ Members.Sorted members ∧ ∀ p ∈ members, Ordered p.2 :=
  throughout_object_iff

theorem ordered_of_isScalar {j : Json} (hj : j.IsScalar) : j.Ordered := by
  refine (throughout_iff_of_isScalar hj).2 ?_
  cases j <;> trivial

/-! ## What the reader gives -/

theorem isScalar_of_number {s rest : List Char} {j : Json} (h : number s = some (j, rest)) :
    j.IsScalar := by
  obtain ⟨⟨w, tail⟩, -, h⟩ := Option.bind_eq_some_iff.1 h
  obtain ⟨k, hvalue, h⟩ := Option.bind_eq_some_iff.1 h
  injection h with h
  injection h with h
  rw [← h]
  unfold Written.value? at hvalue
  split at hvalue
  · injection hvalue with hvalue
    rw [← hvalue]
    trivial
  · obtain ⟨r, -, rfl⟩ := Option.map_eq_some_iff.1 hvalue
    trivial

theorem isScalar_of_map {α : Type} {read? : Option α} {f : α → Json × List Char}
    {rest : List Char} {j : Json} (h : read?.map f = some (j, rest))
    (hf : ∀ a, (f a).1.IsScalar) : j.IsScalar := by
  obtain ⟨a, -, h⟩ := Option.map_eq_some_iff.1 h
  have hscalar := hf a
  rwa [h] at hscalar

theorem isScalar_of_scalar {s rest : List Char} {j : Json} (h : scalar s = some (j, rest)) :
    j.IsScalar := by
  unfold scalar scalarWith at h
  split at h
  · exact isScalar_of_map h fun _ ↦ trivial
  · exact isScalar_of_map h fun _ ↦ trivial
  · exact isScalar_of_map h fun _ ↦ trivial
  · exact isScalar_of_map h fun _ ↦ trivial
  · exact isScalar_of_number h

section

variable {κ α : Type}

theorem exists_of_mem_items {value : Reader α} {fuel : Nat} {s rest : List Char} {vs : List α}
    (h : items value fuel s = some (vs, rest)) {v : α} (hv : v ∈ vs) :
    ∃ front tail, value front = some (v, tail) := by
  induction fuel generalizing s rest vs with
  | zero => contradiction
  | succ fuel ih =>
    obtain ⟨⟨w, tail⟩, hvalue, h⟩ := Option.bind_eq_some_iff.1 h
    simp only at h
    split at h
    · obtain ⟨⟨ws, tail'⟩, hitems, h⟩ := Option.bind_eq_some_iff.1 h
      injection h with h
      injection h with h
      rw [← h] at hv
      rcases List.mem_cons.1 hv with rfl | hv
      · exact ⟨_, _, hvalue⟩
      · exact ih hitems hv
    · injection h with h
      injection h with h
      rw [← h] at hv
      rw [List.mem_singleton.1 hv]
      exact ⟨_, _, hvalue⟩
    · contradiction

theorem exists_of_mem_memberList {entry : Reader α} {fuel : Nat} {s rest : List Char}
    {ps : List α} (h : memberList entry fuel s = some (ps, rest)) {p : α} (hp : p ∈ ps) :
    ∃ front tail, entry front = some (p, tail) := by
  induction fuel generalizing s rest ps with
  | zero => contradiction
  | succ fuel ih =>
    obtain ⟨⟨q, tail⟩, hentry, h⟩ := Option.bind_eq_some_iff.1 h
    simp only at h
    split at h
    · obtain ⟨⟨qs, tail'⟩, hlist, h⟩ := Option.bind_eq_some_iff.1 h
      injection h with h
      injection h with h
      rw [← h] at hp
      rcases List.mem_cons.1 hp with rfl | hp
      · exact ⟨_, _, hentry⟩
      · exact ih hlist hp
    · injection h with h
      injection h with h
      rw [← h] at hp
      rw [List.mem_singleton.1 hp]
      exact ⟨_, _, hentry⟩
    · contradiction

theorem exists_of_mem_arrayRest {value : Reader α} {s rest : List Char} {vs : List α}
    (h : arrayRest value s = some (vs, rest)) {v : α} (hv : v ∈ vs) :
    ∃ front tail, value front = some (v, tail) := by
  unfold arrayRest at h
  split at h
  · injection h with h
    injection h with h
    rw [← h] at hv
    contradiction
  · exact exists_of_mem_items h hv

theorem exists_of_mem_objectRest {entry : Reader α} {s rest : List Char} {ps : List α}
    (h : objectRest entry s = some (ps, rest)) {p : α} (hp : p ∈ ps) :
    ∃ front tail, entry front = some (p, tail) := by
  unfold objectRest at h
  split at h
  · injection h with h
    injection h with h
    rw [← h] at hp
    contradiction
  · exact exists_of_mem_memberList h hp

theorem exists_of_member {key : Reader κ} {value : Reader α} {s rest : List Char} {p : κ × α}
    (h : member key value s = some (p, rest)) : ∃ front tail, value front = some (p.2, tail) := by
  obtain ⟨⟨k, tail⟩, -, h⟩ := Option.bind_eq_some_iff.1 h
  simp only at h
  split at h
  · obtain ⟨⟨v, tail'⟩, hvalue, h⟩ := Option.bind_eq_some_iff.1 h
    injection h with h
    injection h with h
    rw [← h]
    exact ⟨_, _, hvalue⟩
  · contradiction

end

/-- How a value that was read came to be: a scalar, or a container of values that were read with
less nesting left. -/
theorem value_cases {n : Nat} {s rest : List Char} {j : Json} (h : value n s = some (j, rest)) :
    j.IsScalar ∨ ∃ m, n = m + 1 ∧
      ((∃ items, j = .array items ∧ ∀ k ∈ items, ∃ front tail, value m front = some (k, tail)) ∨
        ∃ members, j = .object members ∧ Members.Sorted members ∧
          ∀ p ∈ members, ∃ front tail, value m front = some (p.2, tail)) := by
  unfold value Grammar.value at h
  split at h
  · contradiction
  · contradiction
  · exact .inl (isScalar_of_scalar h)
  · rename_i m tail
    obtain ⟨⟨vs, tail'⟩, harray, h⟩ := Option.map_eq_some_iff.1 h
    injection h with h
    exact .inr ⟨m, rfl, .inl ⟨vs, h.symm, fun k hk ↦ exists_of_mem_arrayRest harray hk⟩⟩
  · rename_i m tail
    obtain ⟨⟨ps, tail'⟩, hobject, h⟩ := Option.map_eq_some_iff.1 h
    injection h with h
    refine .inr ⟨m, rfl, .inr ⟨Members.ofList ps, h.symm, Members.sorted_ofList ps, ?_⟩⟩
    intro p hp
    obtain ⟨front, tail, hentry⟩ :=
      exists_of_mem_objectRest hobject (Members.mem_of_mem_ofList hp)
    exact exists_of_member hentry
  · exact .inl (isScalar_of_scalar h)

theorem within_of_value {n : Nat} {s rest : List Char} {j : Json}
    (h : value n s = some (j, rest)) : j.Within n := by
  induction n generalizing s rest j with
  | zero =>
    rcases value_cases h with hscalar | ⟨m, hm, -⟩
    · exact within_of_isScalar hscalar 0
    · contradiction
  | succ n ih =>
    rcases value_cases h with hscalar | ⟨m, hm, ⟨items, rfl, hitems⟩ | ⟨members, rfl, -, hmembers⟩⟩
    · exact within_of_isScalar hscalar (n + 1)
    · obtain rfl := Nat.succ.inj hm
      intro k hk
      obtain ⟨front, tail, hvalue⟩ := hitems k hk
      exact ih hvalue
    · obtain rfl := Nat.succ.inj hm
      intro p hp
      obtain ⟨front, tail, hvalue⟩ := hmembers p hp
      exact ih hvalue

theorem ordered_of_value {n : Nat} {s rest : List Char} {j : Json}
    (h : value n s = some (j, rest)) : j.Ordered := by
  induction n generalizing s rest j with
  | zero =>
    rcases value_cases h with hscalar | ⟨m, hm, -⟩
    · exact ordered_of_isScalar hscalar
    · contradiction
  | succ n ih =>
    rcases value_cases h with
      hscalar | ⟨m, hm, ⟨items, rfl, hitems⟩ | ⟨members, rfl, hsorted, hmembers⟩⟩
    · exact ordered_of_isScalar hscalar
    · obtain rfl := Nat.succ.inj hm
      refine ordered_array_iff.2 fun k hk ↦ ?_
      obtain ⟨front, tail, hvalue⟩ := hitems k hk
      exact ih hvalue
    · obtain rfl := Nat.succ.inj hm
      refine ordered_object_iff.2 ⟨hsorted, fun p hp ↦ ?_⟩
      obtain ⟨front, tail, hvalue⟩ := hmembers p hp
      exact ih hvalue

/-- The value that a body stands for is ordered and nested no deeper than the reader allows. -/
theorem of_parse {body : Bytes} {j : Json} (h : parse body = some j) :
    j.Ordered ∧ j.Within nestingLimit := by
  obtain ⟨s, -, h⟩ := Option.bind_eq_some_iff.1 h
  obtain ⟨⟨k, rest⟩, hvalue, h⟩ := Option.bind_eq_some_iff.1 h
  simp only at h
  split at h
  · injection h with h
    rw [← h]
    exact ⟨ordered_of_value hvalue, within_of_value hvalue⟩
  · contradiction

end Depot.Json
