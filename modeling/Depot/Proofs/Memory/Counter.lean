import Depot.Proofs.Memory.Hub
import Depot.Proofs.Text.Utf8

/-!
# Counters

A document is a counter when its content is a numeral, with blanks around it or without
(`IsCount`, `counter?_eq_some_iff`); what counting writes is such a content
(`counter?_of_digitBytes`). A key that holds nothing counts as zero, and so `count?` says what a key
counts at a time. Reading, locking and unlocking keep it (`count?_apply_of_spares`), counting adds
to it (`Stands.apply_wrote`), and what an increment comes to is told by it and by the lock alone
(`step_increment_of_some`, `step_increment_of_none`).
-/

set_option autoImplicit false
set_option relaxedAutoImplicit false

namespace Depot.Memory

/-- The content is a numeral of a number of 64 bits, with blanks around it or without. -/
def IsCount (content : Bytes) (n : UInt64) : Prop :=
  ∃ front numeral back, content = Text.encodeChars (front ++ numeral ++ back) ∧
    (∀ c ∈ front, Text.isBlank c = true) ∧ (∀ c ∈ back, Text.isBlank c = true) ∧
    Text.Names numeral n.toNat

variable {e : Entry} {e? : Option Entry} {n : UInt64} {now t : Nat}

theorem Entry.counter?_eq_some_iff : e.counter? = some n ↔ IsCount e.content n := by
  constructor
  · intro h
    obtain ⟨m, hm, rfl⟩ := Option.map_eq_some_iff.1 h
    obtain ⟨text, htext, hnumeral⟩ := Option.bind_eq_some_iff.1 hm
    have hcontent := Text.decodeChars_eq_ok_iff.1 (toOption_eq_some_iff.1 htext)
    obtain ⟨hnames, hlt⟩ := Text.numeralBelow?_eq_some_iff.1 hnumeral
    obtain ⟨front, back, hfront, hback, hsplit⟩ := Text.exists_trim text
    refine ⟨front, Text.trim text, back, hsplit ▸ hcontent, hfront, hback, ?_⟩
    rwa [UInt64.toNat_ofNat_of_lt' hlt]
  · rintro ⟨front, numeral, back, hcontent, hfront, hback, hnames⟩
    have htrim := Text.trim_around hnames hfront hback
    have hnumeral := Text.numeralBelow?_eq_some_iff.2 ⟨hnames, n.toNat_lt⟩
    rw [counter?, Text.decodeChars_eq_ok_iff.2 hcontent]
    change (Text.numeralBelow? Text.limit64 (Text.trim _)).map UInt64.ofNat = some n
    rw [htrim, Text.limit64, hnumeral, Option.map_some, UInt64.ofNat_toNat]

/-- What counting writes is read back as the same number. -/
theorem Entry.counter?_of_digitBytes (h : e.content = Text.digitBytes n.toNat) :
    e.counter? = some n := by
  refine counter?_eq_some_iff.2 ⟨[], Text.writeNumeral n.toNat, [], ?_, nofun, nofun,
    Text.names_writeNumeral n.toNat⟩
  rw [h, List.nil_append, List.append_nil, Text.encodeChars_writeNumeral]

/-! ## What a key counts -/

/-- What a document counts at a time, if it is a counter. Where there is none it is zero. -/
def count? (t : Nat) (e? : Option Entry) : Option UInt64 :=
  (e?.filter fun e ↦ !e.isExpired t).elim (some 0) Entry.counter?

/-- What a key counts as long as nobody writes it: zero if it holds nothing at any of the times, the
number if it holds a numeral, and nothing if it holds anything else. -/
inductive Holds (e? : Option Entry) (times : Nat → Prop) : Option UInt64 → Prop
  | absent (hgone : ∀ e, e? = some e → ∀ t, times t → e.isExpired t = true) :
      Holds e? times (some 0)
  | counter {e : Entry} {n : UInt64} (he : e? = some e)
      (hlasts : ∀ t, times t → e.isExpired t = false) (hcount : IsCount e.content n) :
      Holds e? times (some n)
  | other {e : Entry} (he : e? = some e) (hlasts : ∀ t, times t → e.isExpired t = false)
      (hcount : ∀ n, ¬ IsCount e.content n) : Holds e? times none

theorem count?_of_expired (h : ∀ e, e? = some e → e.isExpired t = true) :
    count? t e? = some 0 := by
  have hnone : (e?.filter fun e ↦ !e.isExpired t) = none :=
    Option.filter_eq_none_iff.2 fun e he ↦ by simp [h e he]
  rw [count?, hnone]
  rfl

theorem count?_of_lasts (h : e.isExpired t = false) : count? t (some e) = e.counter? := by
  have hsome : ((some e).filter fun e ↦ !e.isExpired t) = some e := by simp [h]
  rw [count?, hsome]
  rfl

theorem Holds.count? {times : Nat → Prop} {n? : Option UInt64} (h : Holds e? times n?)
    (ht : times t) : count? t e? = n? := by
  cases h with
  | absent hgone => exact count?_of_expired fun e he ↦ hgone e he t ht
  | counter he hlasts hcount =>
    rw [he, count?_of_lasts (hlasts t ht), Entry.counter?_eq_some_iff.2 hcount]
  | other he hlasts hcount =>
    rw [he, count?_of_lasts (hlasts t ht)]
    exact Option.eq_none_iff_forall_ne_some.2 fun n hn ↦ hcount n (Entry.counter?_eq_some_iff.1 hn)

/-- Neither the version nor the lock of a document makes a difference. -/
theorem count?_of_eq {e' : Entry} (hcontent : e'.content = e.content)
    (hdeadline : e'.expiresAt? = e.expiresAt?) : count? t (some e') = count? t (some e) := by
  have hcounter : e'.counter? = e.counter? := by rw [Entry.counter?, Entry.counter?, hcontent]
  have hexpired : e'.isExpired t = e.isExpired t := congrArg (·.any (· ≤ t)) hdeadline
  simp only [count?, Option.filter_some, hexpired]
  split
  · exact hcounter
  · rfl

/-- The deed neither writes nor touches nor removes the document. -/
def Deed.spares : Deed → Bool
  | looked => true
  | locked .. => true
  | unlocked => true
  | _ => false

/-- Then only its version and its lock may have changed. -/
theorem Deed.apply_of_spares {d : Deed} (h : d.spares = true) (e : Entry) : ∃ cas until?,
    d.apply now (some e) = some { e with cas, lockedUntil? := until? } := by
  cases d with
  | looked => exact ⟨e.cas, e.lockedUntil?, rfl⟩
  | locked time cas => exact ⟨cas, _, rfl⟩
  | unlocked => exact ⟨e.cas, none, rfl⟩
  | _ => cases h

theorem Deed.apply_none_of_spares {d : Deed} (h : d.spares = true) : d.apply now none = none := by
  cases d with
  | wrote content expiry? cas => cases h
  | _ => rfl

theorem count?_apply_of_spares {d : Deed} (h : d.spares = true) :
    count? t (d.apply now e?) = count? t e? := by
  cases e? with
  | none => rw [Deed.apply_none_of_spares h]
  | some e =>
    obtain ⟨cas, until?, happly⟩ := d.apply_of_spares h e
    rw [happly]
    exact count?_of_eq rfl rfl

/-- Counting leaves a document that counts what was answered, forever. -/
theorem count?_apply_wrote (cas : UInt64) :
    count? t ((Deed.wrote (Text.digitBytes n.toNat) none cas).apply now e?) = some n :=
  (count?_of_lasts rfl).trans (Entry.counter?_of_digitBytes rfl)

/-! ## Adding up -/

/-- The sum of a number and all that was added to it, modulo two to the 64. -/
def total (n : UInt64) (gains : List UInt64) : UInt64 :=
  .ofNat (gains.foldl (fun sum delta ↦ sum + delta.toNat) n.toNat)

theorem total_nil (n : UInt64) : total n [] = n := UInt64.ofNat_toNat

theorem total_concat (n : UInt64) (gains : List UInt64) (delta : UInt64) :
    total n (gains ++ [delta]) = total n gains + delta := by
  rw [total, total, List.foldl_append, List.foldl_cons, List.foldl_nil, UInt64.ofNat_add,
    UInt64.ofNat_toNat]

/-- A key counts what it held at the start and all that was added since: at the given times as long
as nothing was added, and at all times once something was; then it holds the decimal digits of the
sum. -/
structure Stands (e? : Option Entry) (times : Nat → Prop) (start? : Option UInt64)
    (gains : List UInt64) : Prop where
  count : ∀ t, (gains = [] → times t) → count? t e? = start?.map (total · gains)
  content : gains ≠ [] → ∀ n, start? = some n →
    e?.map Entry.content = some (Text.digitBytes (total n gains).toNat)

section

variable {times : Nat → Prop} {start? : Option UInt64} {gains : List UInt64}

theorem Holds.stands (h : Holds e? times start?) : Stands e? times start? [] where
  count := fun t ht ↦ by
    have hsame : start?.map (total · []) = start? := by
      simp only [total_nil, Option.map_id_fun', id_eq]
    rw [hsame]
    exact h.count? (ht rfl)
  content := fun hne ↦ absurd rfl hne

theorem Stands.apply_of_spares {d : Deed} (h : Stands e? times start? gains)
    (hspares : d.spares = true) : Stands (d.apply now e?) times start? gains where
  count := fun t ht ↦ (count?_apply_of_spares hspares).trans (h.count t ht)
  content := fun hne n hn ↦ by
    rw [← h.content hne n hn]
    cases e? with
    | none => rw [Deed.apply_none_of_spares hspares]
    | some e =>
      obtain ⟨cas, until?, happly⟩ := d.apply_of_spares hspares e
      rw [happly]
      rfl

theorem Stands.apply_wrote {n : UInt64} (delta cas : UInt64) (now : Nat) (e? : Option Entry) :
    Stands ((Deed.wrote (Text.digitBytes (total n gains + delta).toNat) none cas).apply now e?)
      times (some n) (gains ++ [delta]) where
  count := fun t _ ↦ by
    rw [count?_apply_wrote, Option.map_some, total_concat]
  content := fun _ m hm ↦ by
    obtain rfl := Option.some.inj hm
    rw [total_concat]
    rfl

end

/-! ## Increments -/

namespace Bucket

variable {b : Bucket} {k : Keyspace} {id : String}

/-- Without a lock, an increment adds to what the key counts. -/
theorem nextCount_of_unlocked {l : Location} (delta : UInt64)
    (hunlocked : ∀ e, b.live? l now = some e → ¬ e.LockedAt now) :
    b.nextCount l { delta, initial? := some delta } now =
      (count? now (b.documents.get? l)).elim
        (.error (.invalidArgument "document value is not a counter")) fun n ↦ .ok (n + delta) := by
  have hcount : count? now (b.documents.get? l) =
      (b.live? l now).elim (some 0) Entry.counter? := rfl
  rw [hcount]
  cases he : b.live? l now with
  | none =>
    have hnext : b.nextCount l { delta, initial? := some delta } now = .ok delta := by
      simp only [nextCount, he]
    rw [hnext]
    exact congrArg Except.ok (UInt64.zero_add delta).symm
  | some e =>
    rw [nextCount_of_live? he, Entry.isLocked_eq_false_iff.2 (hunlocked e he)]
    rfl

theorem step_increment_of_some (delta : UInt64)
    (hunlocked : ∀ e, b.live? ⟨k, id⟩ now = some e → ¬ e.LockedAt now)
    (hcount : count? now (b.documents.get? ⟨k, id⟩) = some n) :
    b.step k now (.increment id { delta, initial? := some delta }) =
      .ok (⟨n + delta, b.nextCas, (b.mutation id).token⟩,
        b.store ⟨k, id⟩ (Text.digitBytes (n + delta).toNat) none now) := by
  have hnext := nextCount_of_unlocked delta hunlocked
  rw [hcount] at hnext
  exact increment_eq_ok_iff.2 ⟨n + delta, hnext, rfl, rfl⟩

theorem step_increment_of_none (delta : UInt64)
    (hunlocked : ∀ e, b.live? ⟨k, id⟩ now = some e → ¬ e.LockedAt now)
    (hcount : count? now (b.documents.get? ⟨k, id⟩) = none) :
    b.step k now (.increment id { delta, initial? := some delta }) =
      .error (.invalidArgument "document value is not a counter") := by
  have hnext := nextCount_of_unlocked delta hunlocked
  rw [hcount] at hnext
  have hstep : b.step k now (.increment id { delta, initial? := some delta }) =
      b.increment ⟨k, id⟩ { delta, initial? := some delta } now := rfl
  rw [hstep, increment, hnext]
  rfl

end Bucket
end Depot.Memory
