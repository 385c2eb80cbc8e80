import Depot.Proofs.Chaining
import Depot.Wire.Record

/-!
# Records and the ways to spell them

A record is put together from slots, one after another, and what holds of every record is proved
slot by slot (`Regular`). The members of an object are looked at in the order in which they stand,
but this order decides only which of several errors is told: an object is read exactly if a value
can be made of its members (`decode_object_eq_ok_iff`). Hence members with other names make no
difference, and an array is read as the object that has its items under the names of the slots
(`Lenient`).
-/

set_option autoImplicit false
set_option relaxedAutoImplicit false

namespace Depot.Wire

variable {α β : Type}

/-- Where an array may end before a part, an object may lack it and means the same. -/
def Slot.Proper (f : Slot α) : Prop := ∀ a, f.short = .ok a → f.absent = .ok a

theorem Slot.Proper.required {name : String} {decode : Decoder α} :
    (Slot.required name decode).Proper := fun _ h ↦ by cases h

theorem Slot.Proper.optional {name : String} {decode : Decoder α} :
    (Slot.optional name decode).Proper := fun _ h ↦ by cases h

theorem Slot.Proper.defaulted {name : String} {decode : Decoder α} {value : α} :
    (Slot.defaulted name decode value).Proper := fun _ h ↦ h

namespace Record

variable {r : Record α} {m m' : Members Json} {items : List Json} {a : α}

/-- The names of the parts, in the order of their declaration. -/
def names (r : Record α) : List String := r.checks.map Prod.fst

/-- The items of an array are the members under some names, in their order and as far as it goes. -/
def InOrder (names : List String) (m : Members Json) (items : List Json) : Prop :=
  ∀ (i : Nat) (name : String), names[i]? = some name → Members.get? m name = items[i]?

theorem InOrder.of_append {names names' : List String} (h : InOrder (names ++ names') m items) :
    InOrder names m items ∧ InOrder names' m (items.drop names.length) := by
  refine ⟨fun i name hi ↦ ?_, fun i name hi ↦ ?_⟩
  · have hlt := (List.getElem?_eq_some_iff.1 hi).1
    exact h i name (by rw [List.getElem?_append_left hlt, hi])
  · rw [List.getElem?_drop]
    exact h (names.length + i) name (by rw [List.getElem?_append_right (Nat.le_add_right _ _),
      Nat.add_sub_cancel_left, hi])

/-! ## Slot by slot -/

/-- What the parts of a record have to do with its names. -/
structure Regular (r : Record α) : Prop where
  /-- The members that a value was made of are acceptable. -/
  checked : ∀ m a, r.ofMembers m = .ok a →
    ∀ c ∈ r.checks, ∀ j, Members.get? m c.1 = some j → c.2 j = .ok ()
  /-- No member with another name is looked at. -/
  known : ∀ m m', (∀ name ∈ r.names, Members.get? m name = Members.get? m' name) →
    r.ofMembers m = r.ofMembers m'
  /-- What is made of items can be made of members. -/
  ofMembers : ∀ m items a rest, InOrder r.names m items → r.ofItems items = .ok (a, rest) →
    r.ofMembers m = .ok a ∧ rest = items.drop r.names.length
  /-- What is made of members can be made of items, if there are enough of them. -/
  ofItems : ∀ m items a, InOrder r.names m items → r.names.length ≤ items.length →
    r.ofMembers m = .ok a → r.ofItems items = .ok (a, items.drop r.names.length)

theorem Regular.ofSlot {f : Slot α} (hf : f.Proper) : (Record.ofSlot f).Regular where
  checked m a h c hc j hj := by
    obtain rfl := List.mem_singleton.1 hc
    simp only [Record.ofSlot, hj] at h ⊢
    rw [h]
    rfl
  known m m' h := by
    simp only [Record.ofSlot, h f.name List.mem_cons_self]
  ofMembers m items a rest hitems h := by
    have hget : Members.get? m f.name = items[0]? := hitems 0 f.name rfl
    cases items with
    | nil =>
      obtain ⟨b, hb, hrest⟩ := map_eq_ok_iff.1 h
      cases hrest
      simp only [Record.ofSlot, hget]
      exact ⟨hf _ hb, rfl⟩
    | cons j items =>
      obtain ⟨b, hb, hrest⟩ := map_eq_ok_iff.1 h
      cases hrest
      simp only [Record.ofSlot, hget]
      exact ⟨hb, rfl⟩
  ofItems m items a hitems hlength h := by
    have hget : Members.get? m f.name = items[0]? := hitems 0 f.name rfl
    cases items with
    | nil => exact absurd hlength (Nat.not_succ_le_zero 0)
    | cons j items =>
      simp only [Record.ofSlot, hget] at h
      exact map_eq_ok_iff.2 ⟨a, h, rfl⟩

theorem Regular.map {f : α → β} (hr : r.Regular) : (r.map f).Regular where
  checked m b h := by
    obtain ⟨a, ha, -⟩ := map_eq_ok_iff.1 h
    exact hr.checked m a ha
  known m m' h := congrArg (Except.map f) (hr.known m m' h)
  ofMembers m items b rest hitems h := by
    obtain ⟨p, hp, hb⟩ := map_eq_ok_iff.1 h
    cases hb
    obtain ⟨ha, hrest⟩ := hr.ofMembers m items p.1 p.2 hitems hp
    exact ⟨map_eq_ok_iff.2 ⟨p.1, ha, rfl⟩, hrest⟩
  ofItems m items b hitems hlength h := by
    obtain ⟨a, ha, rfl⟩ := map_eq_ok_iff.1 h
    exact map_eq_ok_iff.2 ⟨_, hr.ofItems m items a hitems hlength ha, rfl⟩

theorem names_and (r : Record (α → β)) (f : Slot α) : (r.and f).names = r.names ++ [f.name] := by
  simp [names, Record.and, ofSlot]

theorem Regular.and {r : Record (α → β)} (hr : r.Regular) {f : Slot α} (hf : f.Proper) :
    (r.and f).Regular where
  checked m b h c hc j hj := by
    obtain ⟨g, hg, h⟩ := bind_eq_ok_iff.1 h
    obtain ⟨a, ha, -⟩ := bind_eq_ok_iff.1 h
    rcases List.mem_append.1 hc with hc | hc
    · exact hr.checked m g hg c hc j hj
    · exact (Regular.ofSlot hf).checked m a ha c hc j hj
  known m m' h := by
    have hg := hr.known m m' fun name hname ↦
      h name (by rw [names_and]; exact List.mem_append_left _ hname)
    have ha := (Regular.ofSlot hf).known m m' fun name hname ↦
      h name (by rw [names_and]; exact List.mem_append_right _ hname)
    simp only [Record.and, hg, ha]
  ofMembers m items b rest hitems h := by
    rw [names_and] at hitems ⊢
    obtain ⟨hfront, hlast⟩ := hitems.of_append
    obtain ⟨⟨g, behind⟩, hg, h⟩ := bind_eq_ok_iff.1 h
    obtain ⟨⟨a, end'⟩, ha, h⟩ := bind_eq_ok_iff.1 h
    cases h
    obtain ⟨hgm, rfl⟩ := hr.ofMembers m items g behind hfront hg
    obtain ⟨ham, rfl⟩ := (Regular.ofSlot hf).ofMembers m _ a _ hlast ha
    refine ⟨bind_eq_ok_iff.2 ⟨g, hgm, bind_eq_ok_iff.2 ⟨a, ham, rfl⟩⟩, ?_⟩
    rw [List.drop_drop, List.length_append]
    rfl
  ofItems m items b hitems hlength h := by
    rw [names_and] at hitems hlength ⊢
    rw [List.length_append] at hlength ⊢
    obtain ⟨hfront, hlast⟩ := hitems.of_append
    obtain ⟨g, hgm, h⟩ := bind_eq_ok_iff.1 h
    obtain ⟨a, ham, h⟩ := bind_eq_ok_iff.1 h
    cases h
    have hg := hr.ofItems m items g hfront (Nat.le_of_add_right_le hlength) hgm
    have ha := (Regular.ofSlot hf).ofItems m (items.drop r.names.length) a hlast
      (by rw [List.length_drop]; exact Nat.le_sub_of_add_le' hlength) ham
    rw [List.drop_drop] at ha
    exact bind_eq_ok_iff.2 ⟨_, hg, bind_eq_ok_iff.2 ⟨_, ha, rfl⟩⟩

/-- A value is made of members. -/
def Makes (r : Record α) (m : Members Json) (a : α) : Prop := r.ofMembers m = .ok a

theorem Makes.found {f : Slot α} {j : Json} (hget : Members.get? m f.name = some j)
    (hj : f.decode j = .ok a) : Makes (ofSlot f) m a := by
  simp only [Makes, ofSlot, hget, hj]

theorem Makes.absent {f : Slot α} (hget : Members.get? m f.name = none) (ha : f.absent = .ok a) :
    Makes (ofSlot f) m a := by
  simp only [Makes, ofSlot, hget, ha]

theorem Makes.map {f : α → β} (h : Makes r m a) : Makes (r.map f) m (f a) :=
  map_eq_ok_iff.2 ⟨a, h, rfl⟩

theorem Makes.and {r : Record (α → β)} {f : Slot α} {g : α → β} (hg : Makes r m g)
    (ha : Makes (ofSlot f) m a) : Makes (r.and f) m (g a) :=
  bind_eq_ok_iff.2 ⟨g, hg, bind_eq_ok_iff.2 ⟨a, ha, rfl⟩⟩

/-! ## What a record is read from -/

theorem check_eq_ok {checks : List (String × (Json → Except Mismatch Unit))}
    (h : ∀ p ∈ m, ∀ c ∈ checks, c.1 = p.1 → c.2 p.2 = .ok ()) : check checks m = .ok () := by
  induction m with
  | nil => rfl
  | cons p rest ih =>
    obtain ⟨key, j⟩ := p
    have hrest := ih fun p hp ↦ h p (List.mem_cons_of_mem _ hp)
    rw [check]
    split
    · exact hrest
    · rename_i c hc
      have hname : c.1 = key := by simpa using List.find?_some hc
      rw [h (key, j) List.mem_cons_self c (List.mem_of_find?_eq_some hc) hname]
      exact hrest

/-- An object is read if a value can be made of its members, in whatever order they are looked
at. -/
theorem Regular.decode_object_eq_ok_iff (hr : r.Regular) (hm : m.Sorted) :
    r.decode (.object m) = .ok a ↔ r.ofMembers m = .ok a := by
  rw [decode]
  constructor
  · intro h
    split at h
    · contradiction
    · exact h
  · intro h
    have hcheck : check r.checks m = .ok () := check_eq_ok fun p hp c hc hname ↦
      hr.checked m a h c hc p.2 ((Members.get?_eq_some_iff_mem hm).2 (hname ▸ hp))
    rw [hcheck]
    exact h

/-- An object whose names are in order is read if a value can be made of its members. -/
theorem Regular.decode_object (hr : r.Regular) (keys : List String) (hm : m.map Prod.fst = keys)
    (hkeys : keys.Pairwise (· < ·)) (h : r.Makes m a) : r.decode (.object m) = .ok a :=
  (hr.decode_object_eq_ok_iff (List.pairwise_map.1 (hm ▸ hkeys))).2 h

theorem decode_array_eq_ok_iff :
    r.decode (.array items) = .ok a ↔ r.ofItems items = .ok (a, []) := by
  rw [decode]
  split
  · rename_i h
    simp [h]
  · rename_i h
    simp [h]
  · rename_i h
    simp [h]

/-- A record does not care how it is spelled. -/
structure Lenient (r : Record α) : Prop where
  /-- Members with other names make no difference. -/
  unknown : ∀ m m' a, Members.Sorted m → Members.Sorted m' →
    (∀ name ∈ r.names, Members.get? m name = Members.get? m' name) →
    (r.decode (.object m) = .ok a ↔ r.decode (.object m') = .ok a)
  /-- An array that is read is read as the object of its items. -/
  array : ∀ items m a, Members.Sorted m → InOrder r.names m items →
    r.decode (.array items) = .ok a → r.decode (.object m) = .ok a
  /-- An object that is read is read from the array of its known members too, if it has them all. -/
  complete : ∀ items m a, Members.Sorted m → InOrder r.names m items →
    items.length = r.names.length → r.decode (.object m) = .ok a → r.decode (.array items) = .ok a

theorem Regular.lenient (hr : r.Regular) : r.Lenient where
  unknown m m' a hm hm' h := by
    rw [hr.decode_object_eq_ok_iff hm, hr.decode_object_eq_ok_iff hm', hr.known m m' h]
  array items m a hm hitems h := by
    rw [decode_array_eq_ok_iff] at h
    exact (hr.decode_object_eq_ok_iff hm).2 (hr.ofMembers m items a [] hitems h).1
  complete items m a hm hitems hlength h := by
    have hmembers := (hr.decode_object_eq_ok_iff hm).1 h
    have htaken := hr.ofItems m items a hitems (Nat.le_of_eq hlength.symm) hmembers
    rw [decode_array_eq_ok_iff, htaken, ← hlength, List.drop_length]

end Record
end Depot.Wire
