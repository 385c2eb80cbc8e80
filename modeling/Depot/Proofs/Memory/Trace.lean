import Depot.Proofs.Memory.Deed
import Depot.Proofs.Run

/-!
# Runs of a bucket

A run is a list of requests on the collections of one bucket, handled one after another. A request
that fails leaves the bucket as it was; one that is answered leaves it as its deed says. The clock
counts the versions that were drawn: as long as it has room for a run (`HasRoom`), every version in
the bucket is at least one and at most the clock (`Numbered`), and the next one is past all of them.
`numbered_before` carries both along a run.
-/

set_option autoImplicit false
set_option relaxedAutoImplicit false

namespace Depot.Memory

/-- A call on a collection of a bucket at a time. -/
structure Request where
  keyspace : Keyspace
  now : Nat
  call : Call
  deriving DecidableEq, Repr

/-- The document that a request is about. -/
def Request.location (q : Request) : Location := ⟨q.keyspace, q.call.id⟩

namespace Bucket

def answer (b : Bucket) (q : Request) : Except Fault (q.call.Answer × Bucket) :=
  b.step q.keyspace q.now q.call

/-- What a request does, if it is answered. -/
def deed? (b : Bucket) (q : Request) : Option Deed :=
  match b.answer q with
  | .ok (a, _) => some (.of q.call a)
  | .error _ => none

/-- The bucket after a request. -/
def handle (b : Bucket) (q : Request) : Bucket :=
  match b.answer q with
  | .ok (_, b') => b'
  | .error _ => b

/-- The version that a request draws, if it draws one. -/
def drawn? (b : Bucket) (q : Request) : Option UInt64 := (b.deed? q).bind Deed.version?

/-- The bucket that step `i` of a run finds. -/
abbrev before (b : Bucket) (run : List Request) (i : Nat) : Bucket := stateAt handle b run i

/-- How many versions a run draws. -/
def draws (b : Bucket) : List Request → Nat
  | [] => 0
  | q :: rest => (b.drawn? q).toList.length + (b.handle q).draws rest

variable {b : Bucket} {q : Request} {run : List Request}

/-! ## Requests -/

theorem answered_of_deed? {d : Deed} (h : b.deed? q = some d) :
    ∃ a, b.answer q = .ok (a, b.handle q) ∧ .of q.call a = d := by
  unfold deed? at h
  unfold handle
  cases hanswer : b.answer q with
  | error f => simp [hanswer] at h
  | ok p =>
    rw [hanswer] at h
    exact ⟨p.1, rfl, Option.some.inj h⟩

theorem deed?_of_answered {a : q.call.Answer} {b' : Bucket} (h : b.answer q = .ok (a, b')) :
    b.deed? q = some (.of q.call a) ∧ b.handle q = b' := by
  unfold deed? handle
  rw [h]
  exact ⟨rfl, rfl⟩

/-- An answered request leaves what its deed says. -/
theorem follows_of_deed? {d : Deed} (h : b.deed? q = some d) :
    Follows b q.location q.now d (b.handle q) := by
  obtain ⟨a, hanswer, rfl⟩ := answered_of_deed? h
  exact follows_of_step hanswer

/-- A request that fails changes nothing. -/
theorem handle_of_deed?_eq_none (h : b.deed? q = none) : b.handle q = b := by
  unfold deed? at h
  unfold handle
  cases hanswer : b.answer q with
  | error f => rfl
  | ok p => simp [hanswer] at h

theorem handle_others {other : Location} (hne : q.location ≠ other) :
    (b.handle q).documents.get? other = b.documents.get? other := by
  cases hdeed : b.deed? q with
  | none => rw [handle_of_deed?_eq_none hdeed]
  | some d => exact (follows_of_deed? hdeed).others other hne

theorem eq_nextCas_of_drawn? {cas : UInt64} (h : b.drawn? q = some cas) : cas = b.nextCas := by
  obtain ⟨d, hdeed, hversion⟩ := Option.bind_eq_some_iff.1 h
  exact (follows_of_deed? hdeed).version cas hversion

theorem clock_handle (b : Bucket) (q : Request) :
    (b.handle q).clock = (b.drawn? q).getD b.clock := by
  unfold drawn?
  cases hdeed : b.deed? q with
  | none =>
    rw [handle_of_deed?_eq_none hdeed]
    rfl
  | some d => exact (follows_of_deed? hdeed).clock

/-- The documents after a request: where it gave a version the document has that version, and
otherwise what is there was there, but for its lock. -/
theorem entry_handle {l : Location} {e : Entry}
    (h : (b.handle q).documents.get? l = some e) :
    b.drawn? q = some e.cas ∨
      ∃ until?, b.documents.get? l = some { e with lockedUntil? := until? } := by
  by_cases hl : q.location = l
  · cases hdeed : b.deed? q with
    | none =>
      rw [handle_of_deed?_eq_none hdeed] at h
      exact Or.inr ⟨e.lockedUntil?, h⟩
    | some d =>
      have happly := hl ▸ (follows_of_deed? hdeed).document
      rw [happly] at h
      cases hversion : d.version? with
      | some cas =>
        rw [Deed.cas_of_apply h hversion]
        exact Or.inl (by rw [drawn?, hdeed]; exact hversion)
      | none =>
        cases hold : b.documents.get? l with
        | none =>
          rw [hold, Deed.apply_none_of_version?_eq_none hversion] at h
          cases h
        | some old =>
          have hkept : ∃ until?, d.apply q.now (some old) =
              some { old with lockedUntil? := until? } := Deed.apply_of_version?_eq_none hversion
          obtain ⟨until?, hkept⟩ := hkept
          rw [hold, hkept] at h
          cases h
          exact Or.inr ⟨old.lockedUntil?, rfl⟩
  · rw [handle_others hl] at h
    exact Or.inr ⟨e.lockedUntil?, h⟩

/-! ## The clock -/

/-- The clock can count all versions that a run draws. -/
def HasRoom (b : Bucket) (run : List Request) : Prop := b.clock.toNat + b.draws run < UInt64.size

/-- Every version in the bucket is one that the clock has given. -/
def Numbered (b : Bucket) : Prop :=
  ∀ l e, b.documents.get? l = some e → 0 < e.cas.toNat ∧ e.cas.toNat ≤ b.clock.toNat

theorem toNat_nextCas (h : b.clock.toNat + 1 < UInt64.size) :
    b.nextCas.toNat = b.clock.toNat + 1 := by
  rw [nextCas, UInt64.toNat_add]
  exact Nat.mod_eq_of_lt h

/-- A version that is drawn while there is room is one more than the clock. -/
theorem toNat_of_drawn? {cas : UInt64} (hroom : b.HasRoom (q :: run))
    (h : b.drawn? q = some cas) : cas.toNat = b.clock.toNat + 1 := by
  have hdraws : b.draws (q :: run) = 1 + (b.handle q).draws run := by
    rw [draws, h]
    rfl
  rw [HasRoom, hdraws] at hroom
  rw [eq_nextCas_of_drawn? h]
  exact toNat_nextCas (by omega)

theorem toNat_clock_handle (hroom : b.HasRoom (q :: run)) :
    (b.handle q).clock.toNat = b.clock.toNat + (b.drawn? q).toList.length := by
  rw [clock_handle]
  cases hdrawn : b.drawn? q with
  | none => rfl
  | some cas => exact toNat_of_drawn? hroom hdrawn

theorem HasRoom.handle (hroom : b.HasRoom (q :: run)) : (b.handle q).HasRoom run := by
  have hclock := toNat_clock_handle hroom
  rw [HasRoom, hclock, Nat.add_assoc]
  exact hroom

theorem Numbered.handle (hnumbered : b.Numbered) (hroom : b.HasRoom (q :: run)) :
    (b.handle q).Numbered := by
  intro l e he
  have hclock := toNat_clock_handle hroom
  rcases entry_handle he with hdrawn | ⟨until?, hold⟩
  · have hcas := toNat_of_drawn? hroom hdrawn
    rw [hdrawn] at hclock
    simp only [Option.toList_some, List.length_singleton] at hclock
    omega
  · have hbounds := hnumbered l _ hold
    simp only at hbounds
    omega

/-- Along a run for which there was room, versions stay numbered and the rest of the run has
room. -/
theorem numbered_before (hnumbered : b.Numbered) (hroom : b.HasRoom run) (i : Nat) :
    (b.before run i).Numbered ∧ (b.before run i).HasRoom (run.drop i) := by
  induction run generalizing b i with
  | nil =>
    cases i <;> exact ⟨hnumbered, hroom⟩
  | cons q rest ih =>
    cases i with
    | zero =>
      rw [before, stateAt_zero]
      exact ⟨hnumbered, hroom⟩
    | succ i =>
      rw [before, stateAt_cons_succ]
      exact ih (hnumbered.handle hroom) hroom.handle i

/-- The same at a step of the run. -/
theorem numbered_before_cons (hnumbered : b.Numbered) (hroom : b.HasRoom run) {i : Nat}
    (h : run[i]? = some q) :
    (b.before run i).Numbered ∧ (b.before run i).HasRoom (q :: run.drop (i + 1)) := by
  obtain ⟨hi, hq⟩ := List.getElem?_eq_some_iff.1 h
  have hbefore := numbered_before hnumbered hroom i
  rw [List.drop_eq_getElem_cons hi, hq] at hbefore
  exact hbefore

/-- So many versions every new clock can draw before it starts over. -/
def roomOfNew : Nat := UInt64.size - 2 * UInt32.size

/-- A bucket as it was created. -/
def IsNew (b : Bucket) : Prop := ∃ name replicas seed, b = create name replicas seed

theorem IsNew.numbered (h : b.IsNew) : b.Numbered := by
  obtain ⟨name, replicas, seed, rfl⟩ := h
  intro l e he
  cases he

/-- A new clock shows at most what its seed can, and one more. -/
theorem IsNew.toNat_clock_le (h : b.IsNew) : b.clock.toNat ≤ UInt32.size := by
  obtain ⟨name, replicas, seed, rfl⟩ := h
  have hseed := seed.clock.toNat_lt_size
  have hone : (1 : UInt64).toNat = 1 := rfl
  simp only [create, UInt64.toNat_add, UInt32.toNat_toUInt64, UInt32.size] at hseed ⊢
  omega

theorem IsNew.add_one_lt (h : b.IsNew) {n : Nat} (hn : n < roomOfNew) :
    b.clock.toNat + n + 1 < UInt64.size := by
  have hclock := h.toNat_clock_le
  simp only [roomOfNew, UInt64.size, UInt32.size] at *
  omega

theorem IsNew.hasRoom (h : b.IsNew) (hdraws : b.draws run < roomOfNew) : b.HasRoom run :=
  Nat.lt_of_succ_lt (h.add_one_lt hdraws)

end Bucket
end Depot.Memory
