import Depot.Proofs.Memory.Hub

/-!
# The numbers that a bucket gives

A bucket has two kinds of counter for all its collections: the clock, from which every call that
changes a document takes its version, and one sequence for each partition, from which every mutation
takes its token. Locking and touching with a read take a version and no token; looking, unlocking,
failing and connecting take nothing.

What an answered call took is its `Stamp`, which can be told from the call and its answer. One step
of a bucket moves its counters as the stamp says and not otherwise (`counts_of_step`), and a
document that changes its version gets that of the stamp (`entry_of_step`). So the stamps of a run,
in order, are a `Ledger` of the bucket: their versions and, partition by partition, their tokens are
consecutive, and the documents that are there carry different versions. `ledger_before` carries this
from the connection that opens the bucket along every run over which the clock does not start over.
-/

set_option autoImplicit false
set_option relaxedAutoImplicit false

namespace Depot

/-- What an answered call took from the counters of its bucket for a document. -/
structure Stamp where
  id : String
  cas : UInt64
  token? : Option Token
  deriving DecidableEq, Repr

/-- The stamp of an answered call, as its answer shows it. -/
def Call.stamp? : (c : Call) → c.Answer → Option Stamp
  | .get .., _ => none
  | .contains .., _ => none
  | .insert id _ _, m => some ⟨id, m.cas, some m.token⟩
  | .upsert id _ _, m => some ⟨id, m.cas, some m.token⟩
  | .replace id _ _, m => some ⟨id, m.cas, some m.token⟩
  | .remove id _, m => some ⟨id, m.cas, some m.token⟩
  | .touch id _ _, m => some ⟨id, m.cas, some m.token⟩
  | .getAndLock id _ _, r => some ⟨id, r.cas, none⟩
  | .getAndTouch id _ _, r => some ⟨id, r.cas, none⟩
  | .unlock .., _ => none
  | .getAllReplicas .., _ => none
  | .getAnyReplica .., _ => none
  | .increment id _, n => some ⟨id, n.cas, some n.token⟩

/-- Neither a read nor an unlock takes anything. -/
theorem Call.stamp?_of_isRead {c : Call} (h : c.isRead = true) (a : c.Answer) :
    c.stamp? a = none := by
  cases c <;> first | rfl | contradiction

namespace Memory

theorem Deed.version?_of (c : Call) (a : c.Answer) :
    (Deed.of c a).version? = (c.stamp? a).map Stamp.cas := by
  cases c <;> rfl

namespace Bucket

variable {b b' : Bucket} {k : Keyspace} {l : Location} {now : Nat} {id : String}

/-! ## One step -/

/-- How the counters of a bucket move under a stamp for a document. -/
structure Counts (b : Bucket) (id : String) (stamp? : Option Stamp) (b' : Bucket) : Prop where
  name : b'.name = b.name
  uuid : b'.uuid = b.uuid
  taken : ∀ s, stamp? = some s → s.id = id ∧ s.cas = b.nextCas
  clock : b'.clock = (stamp?.map Stamp.cas).getD b.clock
  token : ∀ t, stamp?.bind Stamp.token? = some t → t = (b.mutation id).token
  sequences : b'.sequences =
    if (stamp?.bind Stamp.token?).isSome then (b.advance id).sequences else b.sequences

theorem counts_none (hname : b'.name = b.name) (huuid : b'.uuid = b.uuid)
    (hclock : b'.clock = b.clock) (hsequences : b'.sequences = b.sequences) :
    Counts b id none b' :=
  ⟨hname, huuid, nofun, hclock, nofun, hsequences⟩

theorem counts_version (hname : b'.name = b.name) (huuid : b'.uuid = b.uuid)
    (hclock : b'.clock = b.nextCas) (hsequences : b'.sequences = b.sequences) :
    Counts b id (some ⟨id, b.nextCas, none⟩) b' where
  name := hname
  uuid := huuid
  taken := fun _ h ↦ Option.some.inj h ▸ ⟨rfl, rfl⟩
  clock := hclock
  token := nofun
  sequences := hsequences

theorem counts_mutation (hname : b'.name = b.name) (huuid : b'.uuid = b.uuid)
    (hclock : b'.clock = b.nextCas) (hsequences : b'.sequences = (b.advance id).sequences) :
    Counts b id (some ⟨id, b.nextCas, some (b.mutation id).token⟩) b' where
  name := hname
  uuid := huuid
  taken := fun _ h ↦ Option.some.inj h ▸ ⟨rfl, rfl⟩
  clock := hclock
  token := fun _ h ↦ (Option.some.inj h).symm
  sequences := hsequences

/-- An answered call moves the counters as its stamp says. -/
theorem counts_of_step {c : Call} {a : c.Answer} (h : b.step k now c = .ok (a, b')) :
    Counts b c.id (c.stamp? a) b' := by
  cases c with
  | get id o =>
    obtain ⟨r, _, hr⟩ := map_eq_ok_iff.1 h
    cases hr
    exact counts_none rfl rfl rfl rfl
  | contains id timeout? =>
    cases h
    exact counts_none rfl rfl rfl rfl
  | getAllReplicas id timeout? =>
    obtain ⟨e, _, he⟩ := map_eq_ok_iff.1 h
    cases he
    exact counts_none rfl rfl rfl rfl
  | getAnyReplica id timeout? =>
    obtain ⟨e, _, he⟩ := map_eq_ok_iff.1 h
    cases he
    exact counts_none rfl rfl rfl rfl
  | insert id content o =>
    obtain ⟨_, rfl, rfl⟩ := insert_eq_ok_iff.1 h
    exact counts_mutation rfl rfl rfl rfl
  | upsert id content o =>
    obtain ⟨_, rfl, rfl⟩ := upsert_eq_ok_iff.1 h
    exact counts_mutation rfl rfl rfl rfl
  | replace id content o =>
    obtain ⟨_, _, rfl, rfl⟩ := replace_eq_ok_iff.1 h
    exact counts_mutation rfl rfl rfl rfl
  | increment id o =>
    obtain ⟨n, _, rfl, rfl⟩ := increment_eq_ok_iff.1 h
    exact counts_mutation rfl rfl rfl rfl
  | remove id o =>
    obtain ⟨_, _, rfl, rfl⟩ := remove_eq_ok_iff.1 h
    exact counts_mutation rfl rfl rfl rfl
  | touch id expiry timeout? =>
    obtain ⟨e, _, rfl, rfl⟩ := touch_eq_ok_iff.1 h
    exact counts_mutation rfl rfl rfl rfl
  | getAndLock id time timeout? =>
    obtain ⟨e, _, rfl, rfl⟩ := getAndLock_eq_ok_iff.1 h
    exact counts_version rfl rfl rfl rfl
  | getAndTouch id expiry timeout? =>
    obtain ⟨e, _, rfl, rfl⟩ := getAndTouch_eq_ok_iff.1 h
    exact counts_version rfl rfl rfl rfl
  | unlock id cas timeout? =>
    obtain ⟨b₁, hunlock, hb⟩ := map_eq_ok_iff.1 h
    cases hb
    obtain ⟨e, _, _, _, rfl⟩ := unlock_eq_ok_iff.1 hunlock
    exact counts_none rfl rfl rfl rfl

/-- A document after a call has the version that the call took, or it was there with the version
that it has. -/
theorem entry_of_step {c : Call} {a : c.Answer} (h : b.step k now c = .ok (a, b')) {e : Entry}
    (he : b'.documents.get? l = some e) :
    l = ⟨k, c.id⟩ ∧ (c.stamp? a).map Stamp.cas = some e.cas ∨
      ∃ old, b.documents.get? l = some old ∧ old.cas = e.cas := by
  obtain ⟨hdeed, hhandle⟩ := deed?_of_answered (q := ⟨k, now, c⟩) h
  by_cases hl : l = ⟨k, c.id⟩
  · rw [← hhandle] at he
    rcases entry_handle he with hdrawn | ⟨until?, hold⟩
    · rw [drawn?, hdeed, Option.bind_some, Deed.version?_of] at hdrawn
      exact .inl ⟨hl, hdrawn⟩
    · exact .inr ⟨_, hold, rfl⟩
  · rw [(follows_of_step h).others l (Ne.symm hl)] at he
    exact .inr ⟨e, he, rfl⟩

/-! ## The ledger of a bucket -/

/-- The tokens that were handed out for the documents of a partition, in order. -/
def tokensOf (partition : UInt16) (stamps : List Stamp) : List Token :=
  (stamps.filter fun s ↦ Partition.ofId s.id = partition).filterMap Stamp.token?

theorem tokensOf_append (q : UInt16) (stamps more : List Stamp) :
    tokensOf q (stamps ++ more) = tokensOf q stamps ++ tokensOf q more := by
  simp only [tokensOf, List.filter_append, List.filterMap_append]

theorem length_tokensOf_le (q : UInt16) (stamps : List Stamp) :
    (tokensOf q stamps).length ≤ stamps.length :=
  Nat.le_trans (List.length_filterMap_le _ _) (List.length_filter_le _ _)

theorem tokensOf_singleton (q : UInt16) (s : Stamp) :
    tokensOf q [s] = if Partition.ofId s.id = q then s.token?.toList else [] := by
  unfold tokensOf
  by_cases hq : Partition.ofId s.id = q
  · rw [if_pos hq, List.filter_cons_of_pos (by simpa using hq)]
    cases htoken : s.token? with
    | none => simp [htoken]
    | some t => simp [htoken]
  · rw [if_neg hq, List.filter_cons_of_neg (by simpa using hq)]
    rfl

theorem mem_tokensOf {stamps : List Stamp} {s : Stamp} {t : Token} (hs : s ∈ stamps)
    (ht : s.token? = some t) : t ∈ tokensOf (Partition.ofId s.id) stamps :=
  List.mem_filterMap.2 ⟨s, List.mem_filter.2 ⟨hs, by simp⟩, ht⟩

/-- An entry of a list with one more at its end is one of the list, or the last. -/
theorem getElem?_concat_cases {α : Type} {xs : List α} {x y : α} {n : Nat}
    (h : (xs ++ [x])[n]? = some y) : xs[n]? = some y ∨ n = xs.length ∧ y = x := by
  rcases Nat.lt_trichotomy n xs.length with hlt | rfl | hgt
  · rw [List.getElem?_append_left hlt] at h
    exact .inl h
  · rw [List.getElem?_concat_length] at h
    exact .inr ⟨rfl, (Option.some.inj h).symm⟩
  · have hlength : (xs ++ [x]).length ≤ n := by
      rw [List.length_append, List.length_singleton]
      exact hgt
    rw [List.getElem?_eq_none hlength] at h
    cases h

/-- The stamps that a bucket has given since it was created under a name with a seed: all numbers
follow one another, and the documents that are there carry different ones. -/
structure Ledger (bucket : String) (seed : Seed) (stamps : List Stamp) (b : Bucket) : Prop where
  name : b.name = bucket
  uuid : b.uuid = seed.uuid
  clock : b.clock.toNat = seed.clock.toNat + 1 + stamps.length
  sequences : ∀ q, (b.sequences q).toNat = (tokensOf q stamps).length
  versions : ∀ n s, stamps[n]? = some s →
    s.cas.toNat = seed.clock.toNat + 1 + (n + 1) ∧ s.cas ≠ 0
  tokens : ∀ q n t, (tokensOf q stamps)[n]? = some t →
    t = ⟨bucket, q, seed.uuid, .ofNat (n + 1)⟩ ∧ t.sequence.toNat = n + 1
  rising : stamps.Pairwise fun s s' ↦ s.cas < s'.cas ∧
    ∀ t t', s.token? = some t → s'.token? = some t' → t.partition = t'.partition →
      t.sequence < t'.sequence
  bounded : ∀ l e, b.documents.get? l = some e → e.cas ≤ b.clock
  apart : ∀ l l' e e', l ≠ l' → b.documents.get? l = some e → b.documents.get? l' = some e' →
    e.cas ≠ e'.cas

variable {bucket : String} {seed : Seed} {stamps : List Stamp}

theorem toNat_clock_create (bucket : String) (replicas : Nat) (seed : Seed) :
    (create bucket replicas seed).clock.toNat = seed.clock.toNat + 1 := by
  have hseed := seed.clock.toNat_lt_size
  have hone : (1 : UInt64).toNat = 1 := rfl
  simp only [create, UInt64.toNat_add, UInt32.toNat_toUInt64, UInt32.size] at hseed ⊢
  omega

theorem ledger_create (bucket : String) (replicas : Nat) (seed : Seed) :
    Ledger bucket seed [] (create bucket replicas seed) where
  name := rfl
  uuid := rfl
  clock := toNat_clock_create bucket replicas seed
  sequences := fun _ ↦ rfl
  versions := nofun
  tokens := nofun
  rising := .nil
  bounded := nofun
  apart := nofun

/-- The place of a token in its partition, and the partition that it names. -/
theorem Ledger.token_le (h : Ledger bucket seed stamps b) {s : Stamp} {t : Token} (hs : s ∈ stamps)
    (ht : s.token? = some t) :
    t.partition = Partition.ofId s.id ∧ t.sequence ≤ b.sequences (Partition.ofId s.id) := by
  obtain ⟨n, hn, hget⟩ := List.mem_iff_getElem.1 (mem_tokensOf hs ht)
  obtain ⟨heq, hsequence⟩ := h.tokens _ n t (List.getElem?_eq_some_iff.2 ⟨hn, hget⟩)
  refine ⟨by rw [heq], UInt64.le_iff_toNat_le.2 ?_⟩
  rw [hsequence, h.sequences]
  exact hn

/-- While there is room, the place of the next token is one past those that were handed out. -/
theorem Ledger.toNat_nextSequence (h : Ledger bucket seed stamps b)
    (hroom : stamps.length + 1 < UInt64.size) (id : String) :
    (b.nextSequence id).toNat = (tokensOf (Partition.ofId id) stamps).length + 1 := by
  have hlength := length_tokensOf_le (Partition.ofId id) stamps
  have hone : (1 : UInt64).toNat = 1 := rfl
  rw [nextSequence, UInt64.toNat_add, h.sequences, hone]
  exact Nat.mod_eq_of_lt (by rw [UInt64.size] at hroom; omega)

/-- A bucket whose counters stay and whose documents keep their versions keeps its ledger. -/
theorem Ledger.keep (h : Ledger bucket seed stamps b) (hcounts : Counts b id none b')
    (hentry : ∀ l e, b'.documents.get? l = some e →
      ∃ old, b.documents.get? l = some old ∧ old.cas = e.cas) :
    Ledger bucket seed stamps b' := by
  have hclock : b'.clock = b.clock := hcounts.clock
  have hsequences : b'.sequences = b.sequences := hcounts.sequences
  refine ⟨hcounts.name.trans h.name, hcounts.uuid.trans h.uuid, ?_, ?_, h.versions, h.tokens,
    h.rising, fun l e he ↦ ?_, fun l l' e e' hne he he' ↦ ?_⟩
  · rw [hclock]
    exact h.clock
  · rw [hsequences]
    exact h.sequences
  · obtain ⟨old, hold, hcas⟩ := hentry l e he
    rw [hclock, ← hcas]
    exact h.bounded l old hold
  · obtain ⟨old, hold, hcas⟩ := hentry l e he
    obtain ⟨old', hold', hcas'⟩ := hentry l' e' he'
    rw [← hcas, ← hcas']
    exact h.apart l l' old old' hne hold hold'

/-- The tokens after one more stamp: the last one of its partition is the next in it. -/
theorem Ledger.tokens_push (h : Ledger bucket seed stamps b) {s : Stamp}
    (hcounts : Counts b id (some s) b') (hroom : stamps.length + 1 < UInt64.size) (q : UInt16) :
    (b'.sequences q).toNat = (tokensOf q (stamps ++ [s])).length ∧
      ∀ n t, (tokensOf q (stamps ++ [s]))[n]? = some t →
        t = ⟨bucket, q, seed.uuid, .ofNat (n + 1)⟩ ∧ t.sequence.toNat = n + 1 := by
  obtain ⟨hid, -⟩ := hcounts.taken s rfl
  have hsequences := hcounts.sequences
  have htoken := hcounts.token
  simp only [Option.bind_some] at hsequences htoken
  rw [tokensOf_append, tokensOf_singleton, hid]
  cases ht : s.token? with
  | none =>
    simp only [ht, Option.isSome_none, Bool.false_eq_true, if_false] at hsequences
    have hnone : (if Partition.ofId id = q then (none : Option Token).toList else []) = [] := by
      split <;> rfl
    rw [hnone, List.append_nil, hsequences]
    exact ⟨h.sequences q, h.tokens q⟩
  | some t =>
    simp only [ht, Option.isSome_some, if_true] at hsequences
    rw [hsequences]
    by_cases hq : Partition.ofId id = q
    · subst hq
      have hnext := h.toNat_nextSequence hroom id
      rw [if_pos rfl, Option.toList_some]
      refine ⟨?_, fun n t' ht' ↦ ?_⟩
      · have hmoved : (b.advance id).sequences (Partition.ofId id) = b.nextSequence id := if_pos rfl
        rw [List.length_append, List.length_singleton, hmoved, hnext]
      · rcases getElem?_concat_cases ht' with hold | ⟨rfl, rfl⟩
        · exact h.tokens _ n t' hold
        · rw [htoken t' ht, ← hnext, UInt64.ofNat_toNat, mutation, h.name, h.uuid]
          exact ⟨rfl, rfl⟩
    · have hothers : (b.advance id).sequences q = b.sequences q := if_neg (Ne.symm hq)
      rw [if_neg hq, List.append_nil, hothers]
      exact ⟨h.sequences q, h.tokens q⟩

/-- While there is room, the version of one more stamp is one past those that were given. -/
theorem Ledger.toNat_cas (h : Ledger bucket seed stamps b) {s : Stamp}
    (hcounts : Counts b id (some s) b')
    (hroom : seed.clock.toNat + 1 + (stamps.length + 1) < UInt64.size) :
    s.cas.toNat = seed.clock.toNat + 1 + (stamps.length + 1) := by
  have hclock := h.clock
  rw [(hcounts.taken s rfl).2, toNat_nextCas (by omega)]
  omega

/-- One more stamp has a higher version than each before it, and its token, if it has one, a higher
place than each of the same partition. -/
theorem Ledger.below_next (h : Ledger bucket seed stamps b) {s s' : Stamp}
    (hcounts : Counts b id (some s) b')
    (hroom : seed.clock.toNat + 1 + (stamps.length + 1) < UInt64.size) (hs' : s' ∈ stamps) :
    s'.cas < s.cas ∧ ∀ t t', s'.token? = some t → s.token? = some t' →
      t.partition = t'.partition → t.sequence < t'.sequence := by
  have hnext := h.toNat_cas hcounts hroom
  obtain ⟨n, hn, hget⟩ := List.mem_iff_getElem.1 hs'
  have hversion := (h.versions n s' (List.getElem?_eq_some_iff.2 ⟨hn, hget⟩)).1
  refine ⟨UInt64.lt_iff_toNat_lt.2 (by omega), fun t t' ht ht' hpartition ↦ ?_⟩
  obtain ⟨hof, hle⟩ := h.token_le hs' ht
  have hlast : t' = (b.mutation id).token := hcounts.token t' ht'
  have hsame : Partition.ofId s'.id = Partition.ofId id := by
    rw [← hof, hpartition, hlast]
    rfl
  have hafter : t'.sequence.toNat = (tokensOf (Partition.ofId id) stamps).length + 1 := by
    rw [hlast]
    exact h.toNat_nextSequence (by omega) id
  have hle := UInt64.le_iff_toNat_le.1 hle
  rw [hsame, h.sequences] at hle
  exact UInt64.lt_iff_toNat_lt.2 (by omega)

/-- The documents of a bucket carry different versions also after one of them got a version past
the clock. -/
theorem Ledger.apart_next (h : Ledger bucket seed stamps b) {cas : UInt64} (hpast : b.clock < cas)
    (hentry : ∀ l e, b'.documents.get? l = some e → l = ⟨k, id⟩ ∧ cas = e.cas ∨
      ∃ old, b.documents.get? l = some old ∧ old.cas = e.cas)
    {l l' : Location} {e e' : Entry} (hne : l ≠ l') (he : b'.documents.get? l = some e)
    (he' : b'.documents.get? l' = some e') : e.cas ≠ e'.cas := by
  have hlt : ∀ l old, b.documents.get? l = some old → old.cas < cas := fun l old hold ↦
    UInt64.lt_of_le_of_lt (h.bounded l old hold) hpast
  rcases hentry l e he with ⟨hl, heq⟩ | ⟨old, hold, heq⟩
  · rcases hentry l' e' he' with ⟨hl', -⟩ | ⟨old', hold', heq'⟩
    · exact absurd (hl.trans hl'.symm) hne
    · rw [← heq, ← heq']
      exact (UInt64.ne_of_lt (hlt l' old' hold')).symm
  · rcases hentry l' e' he' with ⟨-, heq'⟩ | ⟨old', hold', heq'⟩
    · rw [← heq, ← heq']
      exact UInt64.ne_of_lt (hlt l old hold)
    · rw [← heq, ← heq']
      exact h.apart l l' old old' hne hold hold'

/-- A bucket that gives one more stamp has one more line in its ledger. -/
theorem Ledger.push (h : Ledger bucket seed stamps b) {s : Stamp}
    (hcounts : Counts b id (some s) b')
    (hentry : ∀ l e, b'.documents.get? l = some e → l = ⟨k, id⟩ ∧ s.cas = e.cas ∨
      ∃ old, b.documents.get? l = some old ∧ old.cas = e.cas)
    (hroom : seed.clock.toNat + 1 + (stamps.length + 1) < UInt64.size) :
    Ledger bucket seed (stamps ++ [s]) b' := by
  have hclock : b'.clock = s.cas := hcounts.clock
  have hnext := h.toNat_cas hcounts hroom
  have htokens := h.tokens_push hcounts (by omega)
  have hpast : b.clock < s.cas := by
    have hold := h.clock
    exact UInt64.lt_iff_toNat_lt.2 (by omega)
  refine ⟨hcounts.name.trans h.name, hcounts.uuid.trans h.uuid, ?_, fun q ↦ (htokens q).1,
    fun n s' hs' ↦ ?_, fun q ↦ (htokens q).2, ?_, fun l e he ↦ ?_,
    fun _ _ _ _ hne he he' ↦ h.apart_next hpast hentry hne he he'⟩
  · rw [hclock, hnext, List.length_append, List.length_singleton]
  · rcases getElem?_concat_cases hs' with hold | ⟨rfl, rfl⟩
    · exact h.versions n s' hold
    · refine ⟨hnext, fun hzero ↦ ?_⟩
      have hpositive := UInt64.lt_iff_toNat_lt.1 hpast
      rw [hzero] at hpositive
      exact absurd hpositive (Nat.not_lt_zero _)
  · refine List.pairwise_append.2 ⟨h.rising, List.pairwise_singleton _ _, fun s' hs' s'' hs'' ↦ ?_⟩
    rw [List.mem_singleton.1 hs'']
    exact h.below_next hcounts hroom hs'
  · rw [hclock]
    rcases hentry l e he with ⟨-, heq⟩ | ⟨old, hold, heq⟩
    · exact heq ▸ UInt64.le_refl _
    · exact heq ▸ UInt64.le_of_lt (UInt64.lt_of_le_of_lt (h.bounded l old hold) hpast)

/-- An answered call adds its stamp to the ledger, if it has one. -/
theorem Ledger.step (h : Ledger bucket seed stamps b) {c : Call} {a : c.Answer}
    (hstep : b.step k now c = .ok (a, b'))
    (hroom : seed.clock.toNat + 1 + (stamps ++ (c.stamp? a).toList).length < UInt64.size) :
    Ledger bucket seed (stamps ++ (c.stamp? a).toList) b' := by
  have hcounts := counts_of_step hstep
  have hentry := fun l e ↦ entry_of_step (l := l) (e := e) hstep
  cases hstamp : c.stamp? a with
  | none =>
    rw [hstamp] at hcounts
    simp only [hstamp, Option.map_none, reduceCtorEq, and_false, false_or] at hentry
    rw [Option.toList_none, List.append_nil]
    exact h.keep hcounts fun l e he ↦ hentry l e he
  | some s =>
    rw [hstamp] at hcounts hroom
    simp only [hstamp, Option.map_some, Option.some.injEq] at hentry
    rw [Option.toList_some, List.length_append, List.length_singleton] at hroom
    exact h.push hcounts (fun l e he ↦ hentry l e he) hroom

end Bucket

/-! ## Runs -/

namespace Hub

open Bucket

/-- The stamp that an action gets from the bucket at a site, if it gets one. -/
def stampAt? (p : Policy) (site : Site) (h : Hub) : Action → Option Stamp
  | .connect _ => none
  | .call link now c =>
    match h.place? link c.id, h.answer? p link now c with
    | some place, some (.answer a) => if place.site = site then c.stamp? a else none
    | _, _ => none

/-- The stamps that a run gets from the bucket at a site, in order. -/
def stamps (p : Policy) (site : Site) (h : Hub) : List Action → List Stamp
  | [] => []
  | action :: rest => (h.stampAt? p site action).toList ++ (h.act p action).stamps p site rest

variable {p : Policy} {h : Hub} {site : Site} {b : Bucket} {bucket : String} {seed : Seed}
  {given : List Stamp}

theorem stamps_append (p : Policy) (site : Site) (h : Hub) (run more : List Action) :
    h.stamps p site (run ++ more) = h.stamps p site run ++ (h.after p run).stamps p site more := by
  induction run generalizing h with
  | nil => rfl
  | cons action run ih =>
    rw [List.cons_append, stamps, ih, stamps, List.append_assoc]
    rfl

theorem length_stamps_take_le (p : Policy) (site : Site) (h : Hub) (run : List Action) (i : Nat) :
    (h.stamps p site (run.take i)).length ≤ (h.stamps p site run).length := by
  have happend := stamps_append p site h (run.take i) (run.drop i)
  rw [List.take_append_drop] at happend
  rw [happend, List.length_append]
  exact Nat.le_add_right _ _

theorem stampAt?_eq_none {link now : Nat} {c : Call}
    (hnone : ∀ a, h.answer? p link now c = some (.answer a) → c.stamp? a = none) :
    h.stampAt? p site (.call link now c) = none := by
  rw [stampAt?]
  split
  · rename_i place a _ hanswer
    split
    · exact hnone a hanswer
    · rfl
  · rfl

/-- What an action does to the bucket at a site: nothing, without a stamp, or it is an answered
call there. -/
theorem bucket_act_cases (hb : h.store.get? site = some b) (action : Action) :
    (h.act p action).store.get? site = some b ∧ h.stampAt? p site action = none ∨
      ∃ k now c a b', b.step k now c = .ok (a, b') ∧
        (h.act p action).store.get? site = some b' ∧ h.stampAt? p site action = c.stamp? a := by
  cases action with
  | connect args =>
    refine .inl ⟨?_, rfl⟩
    rcases store_connect p h args with hstore | ⟨other, hstore⟩
    · rw [hstore]
      exact hb
    · rw [hstore]
      exact Store.get?_ensure_of_some hb
  | call link now c =>
    rcases act_call_cases p h link now c with
      ⟨hnone, _, hact⟩ | ⟨place, b₁, b', a, hplace, hb₁, hstep, hanswer, _, hact⟩
    · rw [hact]
      exact .inl ⟨hb, stampAt?_eq_none fun a ha ↦ absurd ha (hnone a)⟩
    · have hstamp : h.stampAt? p site (.call link now c) =
          if place.site = site then c.stamp? a else none := by
        rw [stampAt?, hplace, hanswer]
      by_cases hsite : place.site = site
      · subst hsite
        obtain rfl := Option.some.inj (hb.symm.trans hb₁)
        refine .inr ⟨place.collection.keyspace, now, c, a, b', hstep, ?_, hstamp.trans (if_pos rfl)⟩
        rw [hact, Table.get?_insert_self]
      · refine .inl ⟨?_, hstamp.trans (if_neg hsite)⟩
        rw [hact, Table.get?_insert_of_ne _ hsite, hb]

/-- An action adds its stamp to the ledger of a bucket. -/
theorem ledger_act (hb : h.store.get? site = some b) (hledger : Ledger bucket seed given b)
    (action : Action)
    (hroom : seed.clock.toNat + 1 + (given ++ (h.stampAt? p site action).toList).length <
      UInt64.size) :
    ∃ b', (h.act p action).store.get? site = some b' ∧
      Ledger bucket seed (given ++ (h.stampAt? p site action).toList) b' := by
  rcases bucket_act_cases (p := p) hb action with
    ⟨hsame, hstamp⟩ | ⟨k, now, c, a, b', hstep, hb', hstamp⟩
  · rw [hstamp, Option.toList_none, List.append_nil]
    exact ⟨b, hsame, hledger⟩
  · rw [hstamp] at hroom ⊢
    exact ⟨b', hb', hledger.step hstep hroom⟩

/-- A run adds its stamps to the ledger of a bucket. -/
theorem ledger_after (hb : h.store.get? site = some b) (hledger : Ledger bucket seed given b)
    (run : List Action)
    (hroom : seed.clock.toNat + 1 + (given ++ h.stamps p site run).length < UInt64.size) :
    ∃ b', (h.after p run).store.get? site = some b' ∧
      Ledger bucket seed (given ++ h.stamps p site run) b' := by
  induction run generalizing h b given with
  | nil =>
    rw [stamps, List.append_nil]
    exact ⟨b, hb, hledger⟩
  | cons action run ih =>
    rw [stamps, ← List.append_assoc] at hroom ⊢
    have hfirst : seed.clock.toNat + 1 + (given ++ (h.stampAt? p site action).toList).length <
        UInt64.size := by
      rw [List.length_append] at hroom
      omega
    obtain ⟨b', hb', hledger'⟩ := ledger_act hb hledger action hfirst
    exact ih hb' hledger' hroom

/-- An action that moves no counter: it connects, or it is a call that is not answered, reads or
unlocks. -/
def Quiet (p : Policy) (h : Hub) : Action → Prop
  | .connect _ => True
  | .call link now c => c.isRead = true ∨ (∃ id cas timeout?, c = .unlock id cas timeout?) ∨
      ∀ a, h.answer? p link now c ≠ some (.answer a)

theorem stampAt?_of_quiet {action : Action} (hquiet : h.Quiet p action) :
    h.stampAt? p site action = none := by
  cases action with
  | connect args => rfl
  | call link now c =>
    refine stampAt?_eq_none fun a ha ↦ ?_
    rcases hquiet with hread | ⟨id, cas, timeout?, rfl⟩ | hnone
    · exact Call.stamp?_of_isRead hread a
    · rfl
    · exact absurd ha (hnone a)

/-- The counters of a bucket stay under an action that gets no stamp from it. -/
theorem counters_of_stampAt? (hb : h.store.get? site = some b) {action : Action}
    (hstamp : h.stampAt? p site action = none) :
    ∃ b', (h.act p action).store.get? site = some b' ∧
      b'.clock = b.clock ∧ b'.sequences = b.sequences := by
  rcases bucket_act_cases (p := p) hb action with
    ⟨hsame, -⟩ | ⟨k, now, c, a, b', hstep, hb', hgiven⟩
  · exact ⟨b, hsame, rfl, rfl⟩
  · have hcounts := counts_of_step hstep
    rw [← hgiven, hstamp] at hcounts
    exact ⟨b', hb', hcounts.clock, hcounts.sequences⟩

/-- The connection that finds no bucket at its site creates it with the next seed. -/
theorem get?_of_opens {args : Link.Args} {k : Collection}
    (hk : Store.collectionOf? args = some k) (haccepts : p.accepts args = true)
    (hnone : h.store.get? k.site = none) :
    (h.act p (.connect args)).store.get? k.site =
      some (.create k.site.bucket p.replicas (p.seeds h.store.size)) := by
  have hact : (h.act p (.connect args)).store = ((backend p).establish args h.store).2 := rfl
  have habsent : h.store.contains k.site = false := by simp [Table.contains, hnone]
  rcases Store.establish_cases p args h.store with
    ⟨k', hk', -, hestablish⟩ | ⟨hrefused, _, _⟩
  · obtain rfl := Option.some.inj (hk.symm.trans hk')
    rw [hact, hestablish, Store.ensure, habsent]
    exact Table.get?_insert_self _ _ _
  · rcases hrefused with hcontra | hcontra
    · rw [hk] at hcontra
      contradiction
    · rw [haccepts] at hcontra
      contradiction

/-- The numbers that a bucket gives have neither gaps nor repeats. Take the connection that creates
a bucket, and any run of actions after it, over all links and collections, that gets fewer stamps
than there is room for. At every step the stamps given so far are the ledger of the bucket; and a
step that connects, reads, unlocks or is not answered moves no counter. -/
theorem ledger_before (p : Policy) (h : Hub) {args : Link.Args} {k : Collection}
    (hk : Store.collectionOf? args = some k) (haccepts : p.accepts args = true)
    (hnone : h.store.get? k.site = none) (run : List Action)
    (hdraws : ((h.act p (.connect args)).stamps p k.site run).length < roomOfNew) (i : Nat) :
    ∃ b, ((h.act p (.connect args)).before p run i).store.get? k.site = some b ∧
      Ledger k.site.bucket (p.seeds h.store.size)
        ((h.act p (.connect args)).stamps p k.site (run.take i)) b ∧
      ∀ action, run[i]? = some action →
        ((h.act p (.connect args)).before p run i).Quiet p action →
        ∃ b', ((h.act p (.connect args)).before p run (i + 1)).store.get? k.site = some b' ∧
          b'.clock = b.clock ∧ b'.sequences = b.sequences := by
  have hopened := get?_of_opens hk haccepts hnone
  have hseed := (p.seeds h.store.size).clock.toNat_lt_size
  have htaken := length_stamps_take_le p k.site (h.act p (.connect args)) run i
  have hroom : (p.seeds h.store.size).clock.toNat + 1 +
      ((h.act p (.connect args)).stamps p k.site (run.take i)).length < UInt64.size := by
    simp only [roomOfNew, UInt64.size, UInt32.size] at *
    omega
  have hnew := ledger_create k.site.bucket p.replicas (p.seeds h.store.size)
  obtain ⟨b, hb, hledger⟩ := ledger_after hopened hnew (run.take i) hroom
  refine ⟨b, hb, hledger, fun action haction hquiet ↦ ?_⟩
  rw [before_succ haction]
  exact counters_of_stampAt? hb (stampAt?_of_quiet hquiet)

/-- A clock that starts at five, and a bucket that marks its tokens with seven. -/
def fromFive : Policy := { seeds := fun _ ↦ ⟨7, 5⟩ }

/-- A document is locked, refused to a writer, released over a second link and counted up. -/
def lockThenCount : List Action :=
  [.call 0 0 (.insert "a" [49] {}), .call 0 1 (.getAndLock "a" 0 none),
    .call 0 2 (.upsert "a" [50] {}), .connect ⟨"v", "", "b", "cb://h", none, none⟩,
    .call 1 3 (.unlock "a" 8 none), .call 1 4 (.increment "a" { delta := 1 })]

theorem ledger_before_lockThenCount :
    let args : Link.Args := ⟨"u", "", "b", "couchbase://h", none, none⟩
    let opened := empty.act fromFive (.connect args)
    let given : List Stamp := [⟨"a", 7, some ⟨"b", Partition.ofId "a", 7, 1⟩⟩, ⟨"a", 8, none⟩,
      ⟨"a", 9, some ⟨"b", Partition.ofId "a", 7, 2⟩⟩]
    Store.collectionOf? args = some ⟨⟨"h", "b"⟩, .default⟩ ∧ fromFive.accepts args = true ∧
      empty.store.get? ⟨"h", "b"⟩ = none ∧
      opened.stamps fromFive ⟨"h", "b"⟩ lockThenCount = given ∧ given.length < roomOfNew ∧
      ∃ b, (opened.before fromFive lockThenCount 6).store.get? ⟨"h", "b"⟩ = some b ∧
        Ledger "b" ⟨7, 5⟩ given b := by
  intro args opened given
  have hgiven : opened.stamps fromFive ⟨"h", "b"⟩ lockThenCount = given := by decide +kernel
  have hroom : given.length < roomOfNew := by decide
  have hk : Store.collectionOf? args = some ⟨⟨"h", "b"⟩, .default⟩ := by decide +kernel
  obtain ⟨b, hb, hledger, -⟩ :=
    ledger_before fromFive empty hk rfl rfl lockThenCount (hgiven ▸ hroom) 6
  have htake : lockThenCount.take 6 = lockThenCount := rfl
  rw [htake, hgiven] at hledger
  exact ⟨hk, rfl, rfl, hgiven, hroom, b, hb, hledger⟩

end Hub
end Memory
end Depot
