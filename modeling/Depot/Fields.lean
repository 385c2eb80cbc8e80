/-!
Tables with text keys, in strictly increasing order of the keys. Order by code points and order by
UTF-8 bytes are the same, so the written order of a table is fixed by its contents alone.
-/

set_option autoImplicit false
set_option relaxedAutoImplicit false

namespace Depot

/-- Keys with values in the order in which they stand. -/
abbrev Members (α : Type) := List (String × α)

namespace Members

variable {α : Type}

/-- The value that stands under a key. -/
def get? : Members α → String → Option α
  | [], _ => none
  | (k, v) :: rest, key => if k = key then some v else get? rest key

/-- Puts a value under a key, in the place of an earlier one or where the order wants it. -/
def insert (key : String) (value : α) : Members α → Members α
  | [] => [(key, value)]
  | (k, v) :: rest =>
    if key < k then (key, value) :: (k, v) :: rest
    else if key = k then (key, value) :: rest
    else (k, v) :: insert key value rest

def erase (key : String) (m : Members α) : Members α := m.filter fun p ↦ p.1 ≠ key

/-- Every key is less than the keys after it. -/
def Sorted (m : Members α) : Prop := m.Pairwise fun p q ↦ p.1 < q.1

/-- One entry after another, so that of equal keys the last one stays. -/
def ofList (entries : Members α) : Members α :=
  entries.foldl (fun m p ↦ insert p.1 p.2 m) []

theorem get?_append (m m' : Members α) (key : String) :
    get? (m ++ m') key = (get? m key).or (get? m' key) := by
  induction m with
  | nil => rfl
  | cons p rest ih =>
    obtain ⟨k, v⟩ := p
    by_cases hk : k = key
    · simp only [List.cons_append, get?, if_pos hk, Option.some_or]
    · simp only [List.cons_append, get?, if_neg hk, ih]

theorem get?_insert (key other : String) (value : α) (m : Members α) :
    get? (insert key value m) other = if key = other then some value else get? m other := by
  induction m with
  | nil => rfl
  | cons p rest ih =>
    obtain ⟨k, v⟩ := p
    by_cases h : key < k
    · simp only [insert, h, if_true, get?]
    · by_cases e : key = k
      · subst e
        simp only [insert, h, if_false, if_true, get?]
        split <;> rfl
      · simp only [insert, h, e, if_false, get?, ih]
        by_cases o : k = other
        · subst o
          simp [e]
        · simp [o]

theorem mem_insert {key : String} {value : α} {m : Members α} {p : String × α}
    (h : p ∈ insert key value m) : p = (key, value) ∨ p ∈ m := by
  induction m with
  | nil => simpa [insert] using h
  | cons q rest ih =>
    obtain ⟨k, v⟩ := q
    unfold insert at h
    split at h
    · simpa using h
    · split at h
      · rcases List.mem_cons.1 h with h | h
        · exact .inl h
        · exact .inr (List.mem_cons_of_mem _ h)
      · rcases List.mem_cons.1 h with h | h
        · exact .inr (h ▸ List.mem_cons_self)
        · exact (ih h).imp_right (List.mem_cons_of_mem _)

theorem sorted_insert {key : String} {value : α} {m : Members α} (h : Sorted m) :
    Sorted (insert key value m) := by
  induction m with
  | nil => simp [insert, Sorted]
  | cons q rest ih =>
    obtain ⟨k, v⟩ := q
    obtain ⟨hk, hr⟩ := List.pairwise_cons.1 h
    unfold insert
    split
    · rename_i lt
      exact List.pairwise_cons.2 ⟨fun p hp ↦ by
        rcases List.mem_cons.1 hp with rfl | hp
        · exact lt
        · exact String.lt_trans lt (hk p hp), h⟩
    · rename_i nlt
      split
      · rename_i e
        subst e
        exact List.pairwise_cons.2 ⟨hk, hr⟩
      · rename_i ne
        refine List.pairwise_cons.2 ⟨fun p hp ↦ ?_, ih hr⟩
        rcases mem_insert hp with rfl | hp
        · exact Decidable.byContradiction fun gt ↦
            ne (String.le_antisymm (String.not_lt.1 gt) (String.not_lt.1 nlt))
        · exact hk p hp

theorem sorted_foldl_insert {entries m : Members α} (h : Sorted m) :
    Sorted (entries.foldl (fun m p ↦ insert p.1 p.2 m) m) := by
  induction entries generalizing m with
  | nil => exact h
  | cons p rest ih => exact ih (sorted_insert h)

theorem sorted_ofList (entries : Members α) : Sorted (ofList entries) :=
  sorted_foldl_insert List.Pairwise.nil

theorem mem_of_get? {m : Members α} {key : String} {value : α} (h : get? m key = some value) :
    (key, value) ∈ m := by
  induction m with
  | nil => contradiction
  | cons p rest ih =>
    obtain ⟨k, v⟩ := p
    unfold get? at h
    split at h
    · rename_i hk
      rw [hk, Option.some.inj h]
      exact List.mem_cons_self
    · exact List.mem_cons_of_mem _ (ih h)

theorem mem_of_mem_foldl_insert {entries m : Members α} {p : String × α}
    (h : p ∈ entries.foldl (fun m p ↦ insert p.1 p.2 m) m) : p ∈ entries ∨ p ∈ m := by
  induction entries generalizing m with
  | nil => exact .inr h
  | cons q rest ih =>
    rcases ih h with hrest | hm
    · exact .inl (List.mem_cons_of_mem _ hrest)
    · rcases mem_insert hm with rfl | hm
      · exact .inl List.mem_cons_self
      · exact .inr hm

theorem mem_of_mem_ofList {entries : Members α} {p : String × α} (h : p ∈ ofList entries) :
    p ∈ entries :=
  (mem_of_mem_foldl_insert h).resolve_right List.not_mem_nil

/-- A key greater than all others goes to the end. -/
theorem insert_of_forall_lt {key : String} {value : α} {m : Members α}
    (h : ∀ p ∈ m, p.1 < key) : insert key value m = m ++ [(key, value)] := by
  induction m with
  | nil => rfl
  | cons q rest ih =>
    obtain ⟨k, v⟩ := q
    have hk : k < key := h (k, v) List.mem_cons_self
    have hrest := ih fun p hp ↦ h p (List.mem_cons_of_mem _ hp)
    simp only [insert, if_neg (String.lt_asymm hk), if_neg (Ne.symm (String.ne_of_lt hk)), hrest,
      List.cons_append]

theorem foldl_insert_of_sorted {entries m : Members α} (h : Sorted (m ++ entries)) :
    entries.foldl (fun m p ↦ insert p.1 p.2 m) m = m ++ entries := by
  induction entries generalizing m with
  | nil => exact (List.append_nil m).symm
  | cons q rest ih =>
    have hlt : ∀ p ∈ m, p.1 < q.1 := fun p hp ↦
      (List.pairwise_append.1 h).2.2 p hp q List.mem_cons_self
    have hstep : insert q.1 q.2 m = m ++ [q] := insert_of_forall_lt hlt
    have happend : m ++ q :: rest = m ++ [q] ++ rest := by
      rw [List.append_assoc]
      rfl
    rw [List.foldl_cons, hstep, happend]
    exact ih (happend ▸ h)

/-- Members that are in order stay as they are. -/
theorem ofList_of_sorted {m : Members α} (h : Sorted m) : ofList m = m :=
  foldl_insert_of_sorted h

theorem get?_eq_some_iff_mem {m : Members α} (h : Sorted m) {key : String} {value : α} :
    get? m key = some value ↔ (key, value) ∈ m := by
  refine ⟨mem_of_get?, fun hmem ↦ ?_⟩
  induction m with
  | nil => contradiction
  | cons p rest ih =>
    obtain ⟨k, v⟩ := p
    obtain ⟨hk, hrest⟩ := List.pairwise_cons.1 h
    rcases List.mem_cons.1 hmem with heq | hmem
    · cases heq
      exact if_pos rfl
    · have hne : k ≠ key := String.ne_of_lt (hk _ hmem)
      simp only [get?, if_neg hne, ih hrest hmem]

theorem isSome_get?_iff {m : Members α} (h : Sorted m) {key : String} :
    (get? m key).isSome = true ↔ key ∈ m.map Prod.fst := by
  simp only [Option.isSome_iff_exists, get?_eq_some_iff_mem h, List.mem_map, Prod.exists,
    exists_and_right, exists_eq_right]

/-- In order, the same members are the same list. -/
theorem ext_of_sorted {m m' : Members α} (h : Sorted m) (h' : Sorted m')
    (hget : ∀ key, get? m key = get? m' key) : m = m' := by
  have hmem : ∀ p, p ∈ m ↔ p ∈ m' := by
    rintro ⟨key, value⟩
    rw [← get?_eq_some_iff_mem h, ← get?_eq_some_iff_mem h', hget]
  have hnodup : ∀ {l : Members α}, Sorted l → l.Nodup := fun hl ↦
    hl.imp fun hlt ↦ ne_of_apply_ne Prod.fst (String.ne_of_lt hlt)
  have hperm : m.Perm m' := (List.perm_ext_iff_of_nodup (hnodup h) (hnodup h')).2 hmem
  exact hperm.eq_of_pairwise (fun _ _ _ _ hlt hgt ↦ (String.lt_asymm hlt hgt).elim) h h'

/-- A value put where it stands already changes nothing. -/
theorem insert_of_get? {m : Members α} (h : Sorted m) {key : String} {value : α}
    (hget : get? m key = some value) : insert key value m = m := by
  refine ext_of_sorted (sorted_insert h) h fun other ↦ ?_
  rw [get?_insert]
  split
  · rename_i hkey
    rw [← hkey, hget]
  · rfl

end Members

/-- A table with text keys. -/
structure Fields (α : Type) where
  members : Members α
  sorted : members.Sorted
  deriving DecidableEq

namespace Fields

variable {α : Type}

def empty : Fields α := ⟨[], List.Pairwise.nil⟩

instance : Inhabited (Fields α) := ⟨empty⟩

def get? (t : Fields α) (key : String) : Option α := t.members.get? key

def insert (t : Fields α) (key : String) (value : α) : Fields α :=
  ⟨t.members.insert key value, Members.sorted_insert t.sorted⟩

def ofList (entries : List (String × α)) : Fields α :=
  ⟨Members.ofList entries, Members.sorted_ofList entries⟩

def isEmpty (t : Fields α) : Bool := t.members.isEmpty

theorem get?_insert (t : Fields α) (key other : String) (value : α) :
    (t.insert key value).get? other = if key = other then some value else t.get? other :=
  Members.get?_insert key other value t.members

end Fields

end Depot
