/-!
Tables with one value to a key, in the order in which the keys came. Sizes and sweeps are then
plain facts about a list; the view `get?` says all that a table holds.
-/

set_option autoImplicit false
set_option relaxedAutoImplicit false

namespace Depot

variable {κ α : Type}

/-- Entries with pairwise different keys. -/
structure Table (κ α : Type) where
  entries : List (κ × α)
  distinct : (entries.map Prod.fst).Nodup

namespace Table

def empty : Table κ α := ⟨[], List.Pairwise.nil⟩

instance : Inhabited (Table κ α) := ⟨empty⟩

def size (t : Table κ α) : Nat := t.entries.length

def isEmpty (t : Table κ α) : Bool := t.entries.isEmpty

/-- The value of a table that has only one. -/
def only? (t : Table κ α) : Option α :=
  if t.size = 1 then t.entries.head?.map Prod.snd else none

/-- The entries that a condition on key and value keeps. -/
def filter (t : Table κ α) (keep : κ → α → Bool) : Table κ α :=
  ⟨t.entries.filter fun p ↦ keep p.1 p.2, t.distinct.sublist (List.filter_sublist.map _)⟩

/-- The same keys with the values that a function gives. -/
def mapValues {β : Type} (t : Table κ α) (f : α → β) : Table κ β :=
  ⟨t.entries.map fun p ↦ (p.1, f p.2), by
    rw [List.map_map]
    exact t.distinct⟩

theorem size_mapValues {β : Type} (t : Table κ α) (f : α → β) : (t.mapValues f).size = t.size :=
  List.length_map _

theorem isEmpty_mapValues {β : Type} (t : Table κ α) (f : α → β) :
    (t.mapValues f).isEmpty = t.isEmpty := List.isEmpty_map

theorem only?_mapValues {β : Type} (t : Table κ α) (f : α → β) :
    (t.mapValues f).only? = t.only?.map f := by
  unfold only?
  rw [size_mapValues]
  split
  · simp only [mapValues, List.head?_map, Option.map_map]
    rfl
  · rfl

theorem size_filter_le (t : Table κ α) (keep : κ → α → Bool) : (t.filter keep).size ≤ t.size :=
  List.length_filter_le _ _

variable [DecidableEq κ]

def get? (t : Table κ α) (key : κ) : Option α :=
  (t.entries.find? fun p ↦ p.1 = key).map Prod.snd

def contains (t : Table κ α) (key : κ) : Bool := (t.get? key).isSome

/-- Gives the value under `key` a new value and leaves the order of the keys. -/
def set (key : κ) (value : α) : List (κ × α) → List (κ × α)
  | [] => [(key, value)]
  | p :: rest => if p.1 = key then (key, value) :: rest else p :: set key value rest

theorem map_fst_set (key : κ) (value : α) (l : List (κ × α)) :
    (set key value l).map Prod.fst =
      if key ∈ l.map Prod.fst then l.map Prod.fst else l.map Prod.fst ++ [key] := by
  induction l with
  | nil => rfl
  | cons p rest ih =>
    by_cases h : p.1 = key
    · simp [set, h]
    · simp only [set, h, if_false, List.map_cons, ih, List.mem_cons, Ne.symm h, false_or]
      split <;> rfl

theorem nodup_set {key : κ} {value : α} {l : List (κ × α)} (h : (l.map Prod.fst).Nodup) :
    ((set key value l).map Prod.fst).Nodup := by
  rw [map_fst_set]
  split
  · exact h
  · rename_i hk
    exact List.nodup_append.2 ⟨h, by simp, fun a ha b hb e ↦ hk (by simp_all)⟩

def insert (t : Table κ α) (key : κ) (value : α) : Table κ α :=
  ⟨set key value t.entries, nodup_set t.distinct⟩

def erase (t : Table κ α) (key : κ) : Table κ α := t.filter fun k _ ↦ k ≠ key

@[simp] theorem get?_empty (key : κ) : (empty : Table κ α).get? key = none := rfl

theorem find?_set (key other : κ) (value : α) (l : List (κ × α)) :
    ((set key value l).find? fun p ↦ p.1 = other).map Prod.snd =
      if key = other then some value else (l.find? fun p ↦ p.1 = other).map Prod.snd := by
  induction l with
  | nil =>
    by_cases h : key = other <;> simp [set, h]
  | cons p rest ih =>
    by_cases hp : p.1 = key
    · by_cases h : key = other
      · simp [set, hp, h]
      · simp [set, hp, h]
    · by_cases h : p.1 = other
      · subst h
        simp [set, hp, Ne.symm hp]
      · simp only [set, hp, if_false, List.find?_cons, h, decide_false]
        exact ih

theorem get?_insert (t : Table κ α) (key other : κ) (value : α) :
    (t.insert key value).get? other = if key = other then some value else t.get? other :=
  find?_set key other value t.entries

@[simp] theorem get?_insert_self (t : Table κ α) (key : κ) (value : α) :
    (t.insert key value).get? key = some value := by simp [get?_insert]

theorem get?_insert_of_ne (t : Table κ α) {key other : κ} (h : key ≠ other) (value : α) :
    (t.insert key value).get? other = t.get? other := by simp [get?_insert, h]

theorem get?_erase (t : Table κ α) (key other : κ) :
    (t.erase key).get? other = if key = other then none else t.get? other := by
  obtain ⟨l, hl⟩ := t
  simp only [erase, filter, get?]
  clear hl
  induction l with
  | nil => simp
  | cons p rest ih =>
    by_cases h : key = other
    · subst h
      by_cases hp : p.1 = key <;> simp [hp]
    · by_cases hp : p.1 = key
      · simpa [hp, h] using ih
      · by_cases ho : p.1 = other
        · subst ho
          simp [hp, h]
        · simpa [hp, ho, h] using ih

theorem get?_eq_some_iff_mem (t : Table κ α) (key : κ) (value : α) :
    t.get? key = some value ↔ (key, value) ∈ t.entries := by
  obtain ⟨l, hl⟩ := t
  simp only [get?]
  induction l with
  | nil => simp
  | cons p rest ih =>
    obtain ⟨hp, hr⟩ := List.nodup_cons.1 hl
    by_cases h : p.1 = key
    · subst h
      have : (p.1, value) ∉ rest := fun m ↦ hp (List.mem_map.2 ⟨_, m, rfl⟩)
      simp only [List.find?_cons, decide_true, Option.map_some, Option.some.injEq, List.mem_cons,
        this, or_false]
      exact ⟨fun e ↦ e ▸ rfl, fun e ↦ (Prod.mk.inj e).2 ▸ rfl⟩
    · have hne : (key, value) ≠ p := fun e ↦ h (e ▸ rfl)
      simp only [List.find?_cons, h, decide_false, List.mem_cons, hne, false_or]
      exact ih hr

/-- What a sweep leaves under a key: the value, where the condition keeps it. -/
theorem get?_filter (t : Table κ α) (keep : κ → α → Bool) (key : κ) :
    (t.filter keep).get? key = (t.get? key).filter (keep key) := by
  apply Option.ext
  intro value
  rw [get?_eq_some_iff_mem, Option.filter_eq_some_iff, get?_eq_some_iff_mem]
  simp [filter]

theorem get?_mapValues {β : Type} (t : Table κ α) (f : α → β) (key : κ) :
    (t.mapValues f).get? key = (t.get? key).map f := by
  simp only [get?, mapValues, List.find?_map, Option.map_map]
  rfl

theorem set_of_get? {key : κ} {value : α} {l : List (κ × α)}
    (h : (l.find? fun p ↦ p.1 = key).map Prod.snd = some value) : set key value l = l := by
  induction l with
  | nil => cases h
  | cons p rest ih =>
    rw [List.find?_cons] at h
    by_cases hp : p.1 = key
    · simp only [hp, decide_true, Option.map_some, Option.some.injEq] at h
      rw [set, if_pos hp, ← hp, ← h]
    · simp only [hp, decide_false] at h
      rw [set, if_neg hp, ih h]

/-- Writing back what is there changes nothing. -/
theorem insert_of_get? {t : Table κ α} {key : κ} {value : α} (h : t.get? key = some value) :
    t.insert key value = t := by
  obtain ⟨entries, distinct⟩ := t
  have hentries : set key value entries = entries := set_of_get? h
  unfold insert
  simp only [hentries]

/-! ## Keys and sizes -/

theorem mem_keys_iff (t : Table κ α) (key : κ) :
    key ∈ t.entries.map Prod.fst ↔ ∃ value, t.get? key = some value := by
  simp only [List.mem_map, Prod.exists, exists_and_right, exists_eq_right, get?_eq_some_iff_mem]

theorem size_insert_of_none {t : Table κ α} {key : κ} (h : t.get? key = none) (value : α) :
    (t.insert key value).size = t.size + 1 := by
  have hkeys : key ∉ t.entries.map Prod.fst := by
    rw [mem_keys_iff, h]
    rintro ⟨_, ⟨⟩⟩
  have hset := map_fst_set key value t.entries
  rw [if_neg hkeys] at hset
  simpa [size, insert] using congrArg List.length hset

theorem size_insert_of_some {t : Table κ α} {key : κ} {old : α} (h : t.get? key = some old)
    (value : α) : (t.insert key value).size = t.size := by
  have hset := map_fst_set key value t.entries
  rw [if_pos ((mem_keys_iff t key).2 ⟨old, h⟩)] at hset
  simpa [size, insert] using congrArg List.length hset

/-- A table has as many values as there are keys with a value, among any keys that are all
different and that leave none out. -/
theorem size_eq_countP {t : Table κ α} {keys : List κ} (hdistinct : keys.Nodup)
    (hall : ∀ key value, t.get? key = some value → key ∈ keys) :
    t.size = keys.countP t.contains := by
  have hperm : (t.entries.map Prod.fst).Perm (keys.filter t.contains) := by
    refine (List.perm_ext_iff_of_nodup t.distinct (hdistinct.sublist List.filter_sublist)).2
      fun key ↦ ?_
    rw [mem_keys_iff, List.mem_filter, contains, Option.isSome_iff_exists]
    refine ⟨fun hkey ↦ ⟨?_, hkey⟩, And.right⟩
    obtain ⟨value, hvalue⟩ := hkey
    exact hall key value hvalue
  rw [List.countP_eq_length_filter, ← hperm.length_eq, List.length_map, size]

/-- Nothing is erased where there is nothing. -/
theorem erase_of_none {t : Table κ α} {key : κ} (h : t.get? key = none) : t.erase key = t := by
  obtain ⟨l, hl⟩ := t
  have hall : ∀ p ∈ l, decide (p.1 ≠ key) = true := by
    rintro ⟨k, v⟩ hp
    refine decide_eq_true ?_
    rintro rfl
    rw [(get?_eq_some_iff_mem ⟨l, hl⟩ k v).2 hp] at h
    cases h
  simp only [erase, filter, List.filter_eq_self.2 hall]

theorem map_fst_erase (t : Table κ α) (key : κ) :
    (t.erase key).entries.map Prod.fst = (t.entries.map Prod.fst).erase key := by
  rw [List.Nodup.erase_eq_filter t.distinct, List.filter_map]
  simp only [erase, filter, ne_eq, decide_not]
  rfl

theorem size_erase_of_some {t : Table κ α} {key : κ} {value : α} (h : t.get? key = some value) :
    (t.erase key).size + 1 = t.size := by
  have hmem : key ∈ t.entries.map Prod.fst := (mem_keys_iff t key).2 ⟨value, h⟩
  have hlength := congrArg List.length (map_fst_erase t key)
  rw [List.length_erase_of_mem hmem, List.length_map, List.length_map] at hlength
  have hpos : 0 < t.entries.length := by
    rw [← List.length_map (f := Prod.fst)]
    exact List.length_pos_of_mem hmem
  simp only [size]
  omega

theorem isEmpty_iff (t : Table κ α) : t.isEmpty = true ↔ ∀ key, t.get? key = none := by
  obtain ⟨l, hl⟩ := t
  cases l with
  | nil => exact ⟨fun _ _ ↦ rfl, fun _ ↦ rfl⟩
  | cons p rest =>
    refine ⟨nofun, fun h ↦ ?_⟩
    have hhead := h p.1
    simp [get?] at hhead

/-- A table has only one value if all that it has stands under one key. -/
theorem only?_eq_some_iff (t : Table κ α) (value : α) : t.only? = some value ↔
    ∃ key, t.get? key = some value ∧ ∀ other v, t.get? other = some v → other = key := by
  simp only [get?_eq_some_iff_mem]
  obtain ⟨l, hl⟩ := t
  rcases l with _ | ⟨⟨k, v⟩, _ | ⟨⟨k', v'⟩, rest⟩⟩
  · simp [only?, size]
  · simp [only?, size, eq_comm]
  · have hne : k ≠ k' := fun h ↦ (List.nodup_cons.1 hl).1 (by simp [h])
    simp only [only?, size, List.length_cons]
    constructor
    · intro h
      simp at h
    · rintro ⟨key, _, hall⟩
      exact absurd ((hall k v (by simp)).trans (hall k' v' (by simp)).symm) hne

/-! ## Other values under the same keys -/

variable {β : Type} (f : α → β)

theorem map_set (key : κ) (value : α) (l : List (κ × α)) :
    (set key value l).map (fun p ↦ (p.1, f p.2)) =
      set key (f value) (l.map fun p ↦ (p.1, f p.2)) := by
  induction l with
  | nil => rfl
  | cons p rest ih =>
    by_cases hp : p.1 = key
    · simp [set, hp]
    · simp only [set, hp, if_false, List.map_cons, ih]

theorem mapValues_insert (t : Table κ α) (key : κ) (value : α) :
    (t.insert key value).mapValues f = (t.mapValues f).insert key (f value) := by
  have hentries := map_set f key value t.entries
  unfold insert mapValues
  simp only [hentries]

theorem mapValues_erase (t : Table κ α) (key : κ) :
    (t.erase key).mapValues f = (t.mapValues f).erase key := by
  unfold erase filter mapValues
  simp only [List.filter_map]
  rfl

end Table
end Depot
