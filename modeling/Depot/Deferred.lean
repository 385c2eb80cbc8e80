import Depot.Table

/-!
Results that are fetched later. Work is registered under a handle and runs at its own pace; its
result waits under the handle until it is fetched or has waited too long. Work that never comes back
takes its handle with it.
-/

set_option autoImplicit false
set_option relaxedAutoImplicit false

namespace Depot

/-- Why a handle gives no result. -/
inductive HandleFault where
  | notFound (handle : String)
  | notReady (handle : String)
  deriving DecidableEq, Repr

def HandleFault.message : HandleFault → String
  | notFound handle => s!"async result {handle} not found"
  | notReady handle => s!"async result {handle} is not ready"

/-- A result on its way. Its worker puts the value down, notes the time, and says last that the
result is ready; whoever asks for it looks at this first. -/
structure Task (α : Type) where
  value? : Option α := none
  since? : Option Nat := none
  ready : Bool := false
  deriving DecidableEq, Repr

namespace Task

variable {α : Type}

def deposit (value : α) (t : Task α) : Task α := { t with value? := some value }

/-- Notes the time, once. -/
def stamp (now : Nat) (t : Task α) : Task α := { t with since? := some (t.since?.getD now) }

def publish (t : Task α) : Task α := { t with ready := true }

/-- What a task is once its worker is done with it. -/
def complete (value : α) (now : Nat) (t : Task α) : Task α := ((t.deposit value).stamp now).publish

end Task

/-- Registered work by handle. -/
structure Deferred (α : Type) where
  tasks : Table String (Task α)

namespace Deferred

variable {α : Type}

def empty : Deferred α := ⟨.empty⟩

instance : Inhabited (Deferred α) := ⟨empty⟩

/-- A handle shows what it is for, and a token that makes it different from all others. -/
def handle (label token : String) : String := label ++ "." ++ token

/-- Registers work that has begun. -/
def submit (d : Deferred α) (handle : String) : Deferred α := ⟨d.tasks.insert handle {}⟩

/-- What a worker does to the task under its handle; nobody sees it where the handle is gone. -/
def update (d : Deferred α) (handle : String) (f : Task α → Task α) : Deferred α :=
  match d.tasks.get? handle with
  | some t => ⟨d.tasks.insert handle (f t)⟩
  | none => d

/-- The work under a handle has come back with a value. -/
def complete (d : Deferred α) (handle : String) (value : α) (now : Nat) : Deferred α :=
  ((d.update handle (.deposit value)).update handle (.stamp now)).update handle .publish

/-- The work under a handle will never come back. -/
def abandon (d : Deferred α) (handle : String) : Deferred α := ⟨d.tasks.erase handle⟩

/-- How work ended: with a value, or not at all. -/
def settle (d : Deferred α) (handle : String) (value? : Option α) (now : Nat) : Deferred α :=
  match value? with
  | some value => d.complete handle value now
  | none => d.abandon handle

def isReady (d : Deferred α) (handle : String) : Except HandleFault Bool :=
  match d.tasks.get? handle with
  | some t => .ok t.ready
  | none => .error (.notFound handle)

/-- Takes what is under a handle; the handle is gone then. -/
def take (d : Deferred α) (handle : String) : Except HandleFault α × Deferred α :=
  match d.tasks.get? handle with
  | none => (.error (.notFound handle), d)
  | some t =>
    let r := match t.value? with
      | some value => .ok value
      | none => .error (.notFound handle)
    (r, ⟨d.tasks.erase handle⟩)

/-- Takes a result that is ready. Work that still runs stays registered. -/
def fetch (d : Deferred α) (handle : String) : Except HandleFault α × Deferred α :=
  match d.isReady handle with
  | .error f => (.error f, d)
  | .ok false => (.error (.notReady handle), d)
  | .ok true => d.take handle

def size (d : Deferred α) : Nat := d.tasks.size

def isEmpty (d : Deferred α) : Bool := d.tasks.isEmpty

/-- Whether a task outlives a sweep: work that is not ready always does, a result until it has
waited as long as it may. -/
def outlives (ttl now : Nat) (t : Task α) : Bool :=
  match t.since? with
  | some since => !t.ready || decide (now - since < ttl)
  | none => true

/-- Drops the results that have waited as long as they may. -/
def evict (d : Deferred α) (ttl now : Nat) : Deferred α :=
  ⟨d.tasks.filter fun _ t ↦ outlives ttl now t⟩

/-- How many results a sweep takes. -/
def evicted (d : Deferred α) (ttl now : Nat) : Nat := d.size - (d.evict ttl now).size

/-! ## What is under a handle -/

theorem token_eq_of_handle_eq {label label' token token' : String}
    (hlength : token.length = token'.length) (h : handle label token = handle label' token') :
    token = token' := by
  have hchars := congrArg String.toList h
  simp only [handle, String.toList_append] at hchars
  rw [← String.length_toList, ← String.length_toList] at hlength
  exact String.toList_inj.1 (List.append_inj_right' hchars hlength)

variable (d : Deferred α) (handle other : String)

theorem get?_submit : (d.submit handle).tasks.get? other =
    if handle = other then some {} else d.tasks.get? other :=
  Table.get?_insert _ _ _ _

theorem get?_update (f : Task α → Task α) : (d.update handle f).tasks.get? other =
    if handle = other then (d.tasks.get? other).map f else d.tasks.get? other := by
  unfold update
  cases h : d.tasks.get? handle with
  | none =>
    by_cases heq : handle = other
    · subst heq
      simp [h]
    · simp [heq]
  | some t =>
    by_cases heq : handle = other
    · subst heq
      simp [h]
    · simp [heq, Table.get?_insert_of_ne]

theorem size_update (f : Task α → Task α) : (d.update handle f).size = d.size := by
  unfold update
  cases h : d.tasks.get? handle with
  | none => rfl
  | some t => exact Table.size_insert_of_some h _

theorem get?_complete (value : α) (now : Nat) : (d.complete handle value now).tasks.get? other =
    if handle = other then (d.tasks.get? other).map (Task.complete value now)
    else d.tasks.get? other := by
  unfold complete
  simp only [get?_update]
  split
  · simp only [Option.map_map]
    rfl
  · rfl

theorem get?_abandon : (d.abandon handle).tasks.get? other =
    if handle = other then none else d.tasks.get? other :=
  Table.get?_erase _ _ _

theorem get?_settle_of_ne {handle other : String} (hne : handle ≠ other) (value? : Option α)
    (now : Nat) : (d.settle handle value? now).tasks.get? other = d.tasks.get? other := by
  cases value? with
  | none => exact (get?_abandon d handle other).trans (if_neg hne)
  | some value => exact (get?_complete d handle other value now).trans (if_neg hne)

/-- Work that ends leaves nothing where nothing was registered. -/
theorem get?_settle_of_none {other : String} (h : d.tasks.get? other = none)
    (value? : Option α) (now : Nat) : (d.settle handle value? now).tasks.get? other = none := by
  cases value? with
  | none => rw [settle, get?_abandon, h, ite_self]
  | some value => rw [settle, get?_complete, h, Option.map_none, ite_self]

/-- What becomes of a task that nobody has worked on yet. -/
theorem get?_settle_self {handle : String} (h : d.tasks.get? handle = some {}) (value? : Option α)
    (now : Nat) : (d.settle handle value? now).tasks.get? handle =
      value?.map fun value ↦ ⟨some value, some now, true⟩ := by
  cases value? with
  | none => exact (get?_abandon d handle handle).trans (if_pos rfl)
  | some value => rw [settle, get?_complete, if_pos rfl, h]; rfl

/-! ## What a handle gives -/

variable {d : Deferred α} {handle : String}

theorem isReady_of_none (h : d.tasks.get? handle = none) :
    d.isReady handle = .error (.notFound handle) := by
  rw [isReady, h]

theorem isReady_of_some {t : Task α} (h : d.tasks.get? handle = some t) :
    d.isReady handle = .ok t.ready := by
  rw [isReady, h]

theorem take_of_none (h : d.tasks.get? handle = none) :
    d.take handle = (.error (.notFound handle), d) := by
  rw [take, h]

/-- A value that is there is given out, and its handle is gone. -/
theorem take_of_some {value : α} {since? : Option Nat} {ready : Bool}
    (h : d.tasks.get? handle = some ⟨some value, since?, ready⟩) :
    d.take handle = (.ok value, d.abandon handle) := by
  rw [take, h]
  rfl

theorem fetch_of_none (h : d.tasks.get? handle = none) :
    d.fetch handle = (.error (.notFound handle), d) := by
  rw [fetch, isReady_of_none h]

theorem fetch_of_not_ready {t : Task α} (h : d.tasks.get? handle = some t)
    (hready : t.ready = false) : d.fetch handle = (.error (.notReady handle), d) := by
  rw [fetch, isReady_of_some h, hready]

theorem fetch_of_ready {t : Task α} (h : d.tasks.get? handle = some t) (hready : t.ready = true) :
    d.fetch handle = d.take handle := by
  rw [fetch, isReady_of_some h, hready]

variable {d' : Deferred α}

theorem isReady_congr (h : d.tasks.get? handle = d'.tasks.get? handle) :
    d.isReady handle = d'.isReady handle := by
  rw [isReady, h, isReady]

theorem fetch_congr (h : d.tasks.get? handle = d'.tasks.get? handle) :
    (d.fetch handle).1 = (d'.fetch handle).1 := by
  rw [fetch, isReady_congr h, fetch, take, h, take]
  cases d'.isReady handle with
  | error f => rfl
  | ok ready =>
    cases ready with
    | false => rfl
    | true =>
      cases d'.tasks.get? handle with
      | none => rfl
      | some t => cases t.value? <;> rfl

/-! ## What is left -/

variable {other : String} {t : Task α}

theorem get?_take_eq_some_iff : (d.take handle).2.tasks.get? other = some t ↔
    d.tasks.get? other = some t ∧ other ≠ handle := by
  have herase : (d.tasks.erase handle).get? other = some t ↔
      d.tasks.get? other = some t ∧ other ≠ handle := by
    rw [Table.get?_erase]
    by_cases heq : handle = other
    · simp [heq]
    · simp [heq, Ne.symm heq]
  rw [← herase, take]
  cases h : d.tasks.get? handle with
  | none => rw [Table.erase_of_none h]
  | some t => rfl

/-- A fetch that finds nothing ready changes nothing. -/
theorem fetch_snd_of_not_ready (h : ∀ t, d.tasks.get? handle = some t → t.ready = false) :
    (d.fetch handle).2 = d := by
  cases ht : d.tasks.get? handle with
  | none => rw [fetch_of_none ht]
  | some t => rw [fetch_of_not_ready ht (h t ht)]

/-- A fetch takes nothing but its own result, and that only when it is ready. -/
theorem get?_fetch_eq_some_iff : (d.fetch handle).2.tasks.get? other = some t ↔
    d.tasks.get? other = some t ∧ (other = handle → t.ready = false) := by
  by_cases hready : ∃ t, d.tasks.get? handle = some t ∧ t.ready = true
  · obtain ⟨t', ht', hready⟩ := hready
    rw [fetch_of_ready ht' hready, get?_take_eq_some_iff]
    refine and_congr_right fun ht ↦ ⟨fun hne heq ↦ absurd heq hne, fun hnot ↦ ?_⟩
    rintro rfl
    obtain rfl := Option.some.inj (ht'.symm.trans ht)
    exact absurd hready (by simp [hnot rfl])
  · have hnot : ∀ t, d.tasks.get? handle = some t → t.ready = false :=
      fun t ht ↦ Bool.eq_false_iff.2 fun h ↦ hready ⟨t, ht, h⟩
    rw [fetch_snd_of_not_ready hnot]
    refine ⟨fun ht ↦ ⟨ht, ?_⟩, And.left⟩
    rintro rfl
    exact hnot t ht

theorem get?_take_of_ne (hne : handle ≠ other) :
    (d.take handle).2.tasks.get? other = d.tasks.get? other :=
  Option.ext fun _ ↦ get?_take_eq_some_iff.trans ⟨And.left, fun h ↦ ⟨h, Ne.symm hne⟩⟩

theorem get?_fetch_of_ne (hne : handle ≠ other) :
    (d.fetch handle).2.tasks.get? other = d.tasks.get? other :=
  Option.ext fun _ ↦ get?_fetch_eq_some_iff.trans
    ⟨And.left, fun h ↦ ⟨h, fun heq ↦ absurd heq (Ne.symm hne)⟩⟩

theorem get?_evict_eq_some_iff {ttl now : Nat} : (d.evict ttl now).tasks.get? other = some t ↔
    d.tasks.get? other = some t ∧ outlives ttl now t = true := by
  rw [evict, Table.get?_filter, Option.filter_eq_some_iff]

/-- Work that is not ready outlives every sweep. -/
theorem outlives_of_not_ready {ttl now : Nat} (h : t.ready = false) :
    outlives ttl now t = true := by
  unfold outlives
  split
  · simp [h]
  · rfl

end Deferred
end Depot
