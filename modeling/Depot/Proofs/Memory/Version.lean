import Depot.Proofs.Memory.Trace

/-!
# Versions against lost updates

A caller who has seen a version of a document may name it in a replace or remove, and then expects
that nothing happened to the document in between. The reason why this holds is that versions are
given by one clock for the whole bucket. A document that was seen with a version either still is
what it was then, but for its lock (`Keeps`), or whatever stands in its place, also after a removal
or after its deadline, has a later version (`Past`). A step that gives the document a version leads
from the first to the second, and nothing leads back (`keeps_or_past_handle`, `past_handle`).
`no_update_lost` is the statement on runs.
-/

set_option autoImplicit false
set_option relaxedAutoImplicit false

namespace Depot

namespace Call

/-- The versions of its document that an answer shows. -/
def versions : (c : Call) → c.Answer → List UInt64
  | get .., r => [r.cas]
  | contains .., _ => []
  | insert .., m => [m.cas]
  | upsert .., m => [m.cas]
  | replace .., m => [m.cas]
  | remove .., m => [m.cas]
  | touch .., m => [m.cas]
  | getAndLock .., r => [r.cas]
  | getAndTouch .., r => [r.cas]
  | unlock .., _ => []
  | getAllReplicas .., copies => copies.map Copy.cas
  | getAnyReplica .., copy => [copy.cas]
  | increment .., n => [n.cas]

/-- The version that a replace or remove names. -/
def named? : Call → Option UInt64
  | replace _ _ o => o.cas?
  | remove _ o => o.cas?
  | _ => none

def isRemove : Call → Bool
  | remove .. => true
  | _ => false

end Call

namespace Memory

theorem lt_of_deadline? {now t : Nat} {expiry? : Option Nat} (h : deadline? now expiry? = some t) :
    now < t := by
  obtain ⟨span, hspan, rfl⟩ := Option.map_eq_some_iff.1 h
  have hpos := (Option.filter_eq_some_iff.1 hspan).2
  simp only [ne_eq, decide_not, Bool.not_eq_true', decide_eq_false_iff_not] at hpos
  omega

/-- A lifetime that begins now has not ended. -/
theorem isExpired_of_deadline? {now : Nat} {e : Entry} {expiry? : Option Nat}
    (h : e.expiresAt? = deadline? now expiry?) : e.isExpired now = false := by
  unfold Entry.isExpired
  rw [h]
  cases hdeadline : deadline? now expiry? with
  | none => rfl
  | some t =>
    have hlt := lt_of_deadline? hdeadline
    simp only [Option.any_some, decide_eq_false_iff_not]
    omega

/-- Only the version of a document opens it to those who name one. -/
theorem Entry.cas_of_checkMutable {e : Entry} {now : Nat} {cas : UInt64} (hne : cas ≠ 0)
    (h : e.checkMutable (some cas) now = .ok ()) : e.cas = cas := by
  have hsome : (some cas).filter (· ≠ 0) = some cas := by simp [hne]
  unfold checkMutable at h
  simp only [hsome, reduceCtorEq, false_or, Option.some.injEq] at h
  by_cases hcas : cas = e.cas
  · exact hcas.symm
  · rw [if_neg hcas, if_neg hcas] at h
    split at h <;> cases h

namespace Bucket

variable {b : Bucket} {q : Request} {l : Location} {run rest : List Request} {v : UInt64}

/-- The request is no remove, and its answer shows the version `v` of its document. -/
def Shows (b : Bucket) (q : Request) (v : UInt64) : Prop :=
  q.call.isRemove = false ∧ ∃ a b', b.answer q = .ok (a, b') ∧ v ∈ q.call.versions a

/-- The request is a replace or remove that names the version `v`, and it succeeds. -/
def Uses (b : Bucket) (q : Request) (v : UInt64) : Prop :=
  q.call.named? = some v ∧ ∃ a b', b.answer q = .ok (a, b')

/-! ## What is there after a version was shown -/

theorem live?_write {e : UInt64 → Entry} {now : Nat}
    (h : (e b.nextCas).isExpired now = false) :
    (b.write l e).live? l now = some (e b.nextCas) :=
  live?_eq_some_iff.2 ⟨Table.get?_insert_self _ _ _, h⟩

theorem live?_advance (b : Bucket) (id : String) (l : Location) (now : Nat) :
    (b.advance id).live? l now = b.live? l now := rfl

theorem live?_store (b : Bucket) (l : Location) (content : Bytes) (expiry? : Option Nat)
    (now : Nat) : (b.store l content expiry? now).live? l now =
      some ⟨content, b.nextCas, deadline? now expiry?, none⟩ := by
  rw [store, live?_advance]
  exact live?_write (isExpired_of_deadline? rfl)

/-- An answer that shows a version, but for that of a remove, shows that of the document which it
leaves behind. -/
theorem live?_of_shows (h : b.Shows q v) :
    ∃ e, (b.handle q).live? q.location q.now = some e ∧ e.cas = v := by
  obtain ⟨hremove, a, b', hanswer, hv⟩ := h
  rw [(deed?_of_answered hanswer).2]
  obtain ⟨k, now, c⟩ := q
  change b.step k now c = .ok (a, b') at hanswer
  change ∃ e, b'.live? ⟨k, c.id⟩ now = some e ∧ e.cas = v
  cases c with
  | get id o =>
    obtain ⟨r, hget, hr⟩ := map_eq_ok_iff.1 hanswer
    cases hr
    obtain ⟨e, he, content, _, rfl⟩ := get_eq_ok_iff.1 hget
    exact ⟨e, he, (List.mem_singleton.1 hv).symm⟩
  | contains id timeout? => cases hv
  | insert id content o =>
    obtain ⟨_, rfl, rfl⟩ := insert_eq_ok_iff.1 hanswer
    exact ⟨_, live?_store b _ _ _ _, (List.mem_singleton.1 hv).symm⟩
  | upsert id content o =>
    obtain ⟨_, rfl, rfl⟩ := upsert_eq_ok_iff.1 hanswer
    exact ⟨_, live?_store b _ _ _ _, (List.mem_singleton.1 hv).symm⟩
  | replace id content o =>
    obtain ⟨_, _, rfl, rfl⟩ := replace_eq_ok_iff.1 hanswer
    exact ⟨_, live?_store b _ _ _ _, (List.mem_singleton.1 hv).symm⟩
  | increment id o =>
    obtain ⟨n, _, rfl, rfl⟩ := increment_eq_ok_iff.1 hanswer
    exact ⟨_, live?_store b _ _ _ _, (List.mem_singleton.1 hv).symm⟩
  | remove id o => cases hremove
  | touch id expiry timeout? =>
    obtain ⟨e, _, rfl, rfl⟩ := touch_eq_ok_iff.1 hanswer
    have hlive := live?_write (b := b) (l := ⟨k, id⟩)
      (e := fun cas ↦ { e with cas, expiresAt? := deadline? now (some expiry) })
      (isExpired_of_deadline? rfl)
    exact ⟨_, hlive, (List.mem_singleton.1 hv).symm⟩
  | getAndLock id time timeout? =>
    obtain ⟨e, ⟨he, _⟩, rfl, rfl⟩ := getAndLock_eq_ok_iff.1 hanswer
    have hlive := (live?_eq_some_iff.1 he).2
    exact ⟨_, live?_write hlive, (List.mem_singleton.1 hv).symm⟩
  | getAndTouch id expiry timeout? =>
    obtain ⟨e, _, rfl, rfl⟩ := getAndTouch_eq_ok_iff.1 hanswer
    exact ⟨_, live?_write (isExpired_of_deadline? rfl), (List.mem_singleton.1 hv).symm⟩
  | unlock id cas timeout? => cases hv
  | getAllReplicas id timeout? =>
    obtain ⟨e, hfind, he⟩ := map_eq_ok_iff.1 hanswer
    cases he
    obtain ⟨copy, hcopy, rfl⟩ := List.mem_map.1 hv
    refine ⟨e, find_eq_ok_iff.1 hfind, ?_⟩
    rcases List.mem_cons.1 hcopy with rfl | hcopy
    · rfl
    · rw [List.eq_of_mem_replicate hcopy]
  | getAnyReplica id timeout? =>
    obtain ⟨e, hfind, he⟩ := map_eq_ok_iff.1 hanswer
    cases he
    exact ⟨e, find_eq_ok_iff.1 hfind, (List.mem_singleton.1 hv).symm⟩

/-- A version that is used is the one that the document has. -/
theorem live?_of_uses (hne : v ≠ 0) (h : b.Uses q v) :
    (∃ e, b.live? q.location q.now = some e ∧ e.cas = v) ∧ b.drawn? q = some b.nextCas := by
  obtain ⟨hnamed, a, b', hanswer⟩ := h
  rw [drawn?, (deed?_of_answered hanswer).1]
  obtain ⟨k, now, c⟩ := q
  change b.step k now c = .ok (a, b') at hanswer
  change c.named? = some v at hnamed
  cases c with
  | replace id content o =>
    obtain ⟨e, ⟨he, hcheck⟩, rfl, rfl⟩ := replace_eq_ok_iff.1 hanswer
    change o.cas? = some v at hnamed
    rw [hnamed] at hcheck
    exact ⟨⟨e, he, Entry.cas_of_checkMutable hne hcheck⟩, rfl⟩
  | remove id o =>
    obtain ⟨e, ⟨he, hcheck⟩, rfl, rfl⟩ := remove_eq_ok_iff.1 hanswer
    change o.cas? = some v at hnamed
    rw [hnamed] at hcheck
    exact ⟨⟨e, he, Entry.cas_of_checkMutable hne hcheck⟩, rfl⟩
  | _ => cases hnamed

/-! ## What becomes of it -/

/-- The document at `l` is `e`, whatever its lock. -/
def Keeps (b : Bucket) (l : Location) (e : Entry) : Prop :=
  ∃ until?, b.documents.get? l = some { e with lockedUntil? := until? }

/-- The version `v` was given, and what is at `l` has a later one. -/
def Past (b : Bucket) (l : Location) (v : UInt64) : Prop :=
  v.toNat ≤ b.clock.toNat ∧ ∀ e, b.documents.get? l = some e → v.toNat < e.cas.toNat

/-- A document with the version `v` is not past it. -/
theorem Past.not_live? {e : Entry} {now : Nat} (h : b.Past l v) (he : b.live? l now = some e) :
    e.cas ≠ v := by
  rintro rfl
  exact Nat.lt_irrefl _ (h.2 e (live?_eq_some_iff.1 he).1)

/-- No version comes back. -/
theorem past_handle (hroom : b.HasRoom (q :: rest)) (h : b.Past l v) : (b.handle q).Past l v := by
  have hclock := toNat_clock_handle hroom
  refine ⟨by have := h.1; omega, fun e he ↦ ?_⟩
  rcases entry_handle he with hdrawn | ⟨until?, hold⟩
  · have hcas := toNat_of_drawn? hroom hdrawn
    have hle := h.1
    omega
  · have hlt := h.2 _ hold
    exact hlt

/-- Where a request gives its document a version, what was shown before is past. -/
theorem past_of_drawn? {cas : UInt64} (hroom : b.HasRoom (q :: rest)) (hl : q.location = l)
    (hdrawn : b.drawn? q = some cas) (hle : v.toNat ≤ b.clock.toNat) : (b.handle q).Past l v := by
  have hclock := toNat_clock_handle hroom
  refine ⟨by omega, fun e he ↦ ?_⟩
  obtain ⟨d, hdeed, hversion⟩ := Option.bind_eq_some_iff.1 hdrawn
  have happly := hl ▸ (follows_of_deed? hdeed).document
  rw [he] at happly
  rw [Deed.cas_of_apply happly.symm hversion, toNat_of_drawn? hroom hdrawn]
  omega

/-- The request does no more to the document at `l` than look at it or unlock it. -/
def Spares (b : Bucket) (q : Request) (l : Location) : Prop :=
  q.location = l → ∀ d, b.deed? q = some d → d = .looked ∨ d = .unlocked

/-- A document is spared and kept, or its version is past. -/
theorem keeps_or_past_handle {e : Entry} (hnumbered : b.Numbered) (hroom : b.HasRoom (q :: rest))
    (h : b.Keeps l e) :
    (b.handle q).Keeps l e ∧ b.Spares q l ∨ (b.handle q).Past l e.cas := by
  obtain ⟨until?, hentry⟩ := h
  by_cases hl : q.location = l
  · cases hdeed : b.deed? q with
    | none =>
      rw [handle_of_deed?_eq_none hdeed]
      refine Or.inl ⟨⟨until?, hentry⟩, fun _ d hd ↦ ?_⟩
      rw [hdeed] at hd
      cases hd
    | some d =>
      cases hversion : d.version? with
      | some cas =>
        have hdrawn : b.drawn? q = some cas := by
          rw [drawn?, hdeed]
          exact hversion
        exact Or.inr (past_of_drawn? hroom hl hdrawn (hnumbered l _ hentry).2)
      | none =>
        have happly := hl ▸ (follows_of_deed? hdeed).document
        have hkept : ∃ later?, d.apply q.now (some { e with lockedUntil? := until? }) =
            some { e with lockedUntil? := later? } := Deed.apply_of_version?_eq_none hversion
        obtain ⟨later?, hkept⟩ := hkept
        rw [hentry, hkept] at happly
        refine Or.inl ⟨⟨later?, happly⟩, fun _ d' hd ↦ ?_⟩
        obtain rfl : d = d' := Option.some.inj (hdeed.symm.trans hd)
        exact Deed.looked_or_unlocked_of_version? hversion
  · refine Or.inl ⟨⟨until?, ?_⟩, fun h ↦ absurd h hl⟩
    rw [handle_others hl, hentry]

/-! ## Along a run -/

/-- Once the version is past it stays so. -/
theorem past_before (hnumbered : b.Numbered) (hroom : b.HasRoom run) {i j : Nat} (hij : i ≤ j)
    (h : (b.before run i).Past l v) : (b.before run j).Past l v := by
  refine stateAt_induction (P := fun _ (b' : Bucket) ↦ b'.Past l v) h ?_ (fun m _ _ hm ↦ hm) hij
  intro m q _ hq hm
  exact past_handle (numbered_before_cons hnumbered hroom hq).2 hm

/-- A document that step `i` finds as `e` is spared by all steps up to `j` and found by `j` as it
was, or its version is past by then. -/
theorem keeps_or_past_before {e : Entry} (hnumbered : b.Numbered) (hroom : b.HasRoom run)
    {i j : Nat} (hij : i ≤ j) (h : (b.before run i).Keeps l e) :
    ((b.before run j).Keeps l e ∧
        ∀ m q, i ≤ m → m < j → run[m]? = some q → (b.before run m).Spares q l) ∨
      (b.before run j).Past l e.cas := by
  refine stateAt_induction (P := fun j (b' : Bucket) ↦ (b'.Keeps l e ∧
    ∀ m q, i ≤ m → m < j → run[m]? = some q → (b.before run m).Spares q l) ∨ b'.Past l e.cas)
    (Or.inl ⟨h, fun m q him hmi ↦ absurd hmi (by omega)⟩) ?_ ?_ hij
  · intro k q _ hq hk
    obtain ⟨hnumbered', hroom'⟩ := numbered_before_cons hnumbered hroom hq
    rcases hk with ⟨hkeeps, hspared⟩ | hpast
    · rcases keeps_or_past_handle hnumbered' hroom' hkeeps with ⟨hkept, hspares⟩ | hpast
      · refine Or.inl ⟨hkept, fun m r him hmk hr ↦ ?_⟩
        by_cases hlast : m = k
        · subst hlast
          rw [hq] at hr
          cases hr
          exact hspares
        · exact hspared m r him (by omega) hr
      · exact Or.inr hpast
    · exact Or.inr (past_handle hroom' hpast)
  · intro k _ hnone hk
    rcases hk with ⟨hkeeps, hspared⟩ | hpast
    · refine Or.inl ⟨hkeeps, fun m r him hmk hr ↦ ?_⟩
      by_cases hlast : m = k
      · subst hlast
        rw [hnone] at hr
        cases hr
      · exact hspared m r him (by omega) hr
    · exact Or.inr hpast

/-- No answer shows the version zero, which names none. -/
theorem ne_zero_of_shows (hnumbered : (b.handle q).Numbered) (h : b.Shows q v) : v ≠ 0 := by
  obtain ⟨e, he, rfl⟩ := live?_of_shows h
  intro hzero
  have hpos := (hnumbered _ e (live?_eq_some_iff.1 he).1).1
  rw [hzero] at hpos
  exact Nat.lt_irrefl _ hpos

/-- No update is lost. In a run on a new bucket whose clock does not run over, let step `i` answer
with the version `v` of a document. Whenever a later step names `v` in a replace or remove of that
document and succeeds, the document is live then as it was live after step `i`, with the same
content and the same deadline, and no step in between did more to it than look or unlock: none
wrote, touched, locked or removed it. And of all steps that name `v` for this document, before or
after step `i`, at most one succeeds. -/
theorem no_update_lost (hnew : b.IsNew) (hdraws : b.draws run < roomOfNew) {i : Nat}
    (hq : run[i]? = some q) (hshown : (b.before run i).Shows q v) :
    (∀ j r, i < j → run[j]? = some r → r.location = q.location → (b.before run j).Uses r v →
      (∃ e e', (b.before run (i + 1)).live? q.location q.now = some e ∧
        (b.before run j).live? q.location r.now = some e' ∧
        e'.content = e.content ∧ e'.expiresAt? = e.expiresAt?) ∧
      ∀ m s d, i < m → m < j → run[m]? = some s → s.location = q.location →
        (b.before run m).deed? s = some d → d = .looked ∨ d = .unlocked) ∧
    ∀ j j' r r', run[j]? = some r → run[j']? = some r' → r.location = q.location →
      r'.location = q.location → (b.before run j).Uses r v → (b.before run j').Uses r' v →
      j = j' := by
  have hnumbered := hnew.numbered
  have hroom := hnew.hasRoom hdraws
  have hnext := stateAt_succ handle b hq
  have hnumbered' := (numbered_before hnumbered hroom (i + 1)).1
  have hne : v ≠ 0 := ne_zero_of_shows (hnext ▸ hnumbered') hshown
  constructor
  · intro j r hij hr hlocation huses
    obtain ⟨e, he, hcas⟩ := live?_of_shows hshown
    rw [← hnext] at he
    obtain ⟨⟨e', he', hcas'⟩, _⟩ := live?_of_uses hne huses
    rw [hlocation] at he'
    have hkeeps : (b.before run (i + 1)).Keeps q.location e :=
      ⟨e.lockedUntil?, (live?_eq_some_iff.1 he).1⟩
    rcases keeps_or_past_before hnumbered hroom hij hkeeps with ⟨⟨until?, hkept⟩, hspared⟩ | hpast
    · have hsame := hkept.symm.trans (live?_eq_some_iff.1 he').1
      obtain rfl := Option.some.inj hsame
      refine ⟨⟨e, _, he, he', rfl, rfl⟩, ?_⟩
      intro m s d him hmj hs hs' hdeed
      exact hspared m s him hmj hs hs' d hdeed
    · exact absurd (hcas'.trans hcas.symm) (hpast.not_live? he')
  · -- the first of two uses leaves the version past, so that there is no second
    have honce : ∀ j j' r r', j < j' → run[j]? = some r → r.location = q.location →
        r'.location = q.location → (b.before run j).Uses r v → ¬ (b.before run j').Uses r' v := by
      intro j j' r r' hjj' hr hlocation hlocation' huses huses'
      obtain ⟨⟨e, he, rfl⟩, hdrawn⟩ := live?_of_uses hne huses
      obtain ⟨⟨e', he', hcas'⟩, _⟩ := live?_of_uses hne huses'
      obtain ⟨hnumberedj, hroomj⟩ := numbered_before_cons hnumbered hroom hr
      have hle := (hnumberedj _ e (live?_eq_some_iff.1 he).1).2
      have hpast := past_of_drawn? hroomj hlocation hdrawn hle
      rw [← stateAt_succ handle b hr] at hpast
      rw [hlocation'] at he'
      exact (past_before hnumbered hroom hjj' hpast).not_live? he' hcas'
    intro j j' r r' hr hr' hlocation hlocation' huses huses'
    rcases Nat.lt_trichotomy j j' with hlt | heq | hgt
    · exact absurd huses' (honce j j' r r' hlt hr hlocation hlocation' huses)
    · exact heq
    · exact absurd huses (honce j' j r' r hgt hr' hlocation' hlocation huses')

/-- A document is inserted and locked, another one is inserted, the lock is ended, and then the
version that came with the lock is used. -/
def lockThenReplace : List Request :=
  [⟨.default, 0, .insert "a" [1] { expiry? := some 100 }⟩, ⟨.default, 5, .getAndLock "a" 50 none⟩,
    ⟨.default, 6, .insert "b" [2] {}⟩, ⟨.default, 7, .unlock "a" 3 none⟩,
    ⟨.default, 8, .replace "a" [3] { cas? := some 3 }⟩]

theorem no_update_lost_lockThenReplace :
    (create "x" 1 {}).draws lockThenReplace < roomOfNew ∧
      ((create "x" 1 {}).before lockThenReplace 1).Shows
        ⟨.default, 5, .getAndLock "a" 50 none⟩ 3 ∧
      ((create "x" 1 {}).before lockThenReplace 4).Uses
        ⟨.default, 8, .replace "a" [3] { cas? := some 3 }⟩ 3 ∧
      ∃ e e', ((create "x" 1 {}).before lockThenReplace 2).live? ⟨.default, "a"⟩ 5 = some e ∧
        ((create "x" 1 {}).before lockThenReplace 4).live? ⟨.default, "a"⟩ 8 = some e' ∧
        e'.content = e.content ∧ e'.expiresAt? = e.expiresAt? := by
  have hdraws : (create "x" 1 {}).draws lockThenReplace < roomOfNew := by decide
  have hshown : ((create "x" 1 {}).before lockThenReplace 1).Shows
      ⟨.default, 5, .getAndLock "a" 50 none⟩ 3 := ⟨rfl, _, _, rfl, by decide⟩
  have huses : ((create "x" 1 {}).before lockThenReplace 4).Uses
      ⟨.default, 8, .replace "a" [3] { cas? := some 3 }⟩ 3 := ⟨rfl, _, _, rfl⟩
  have hsame := ((no_update_lost ⟨_, _, _, rfl⟩ hdraws rfl hshown).1 4 _ (by decide) rfl rfl
    huses).1
  exact ⟨hdraws, hshown, huses, hsame⟩

end Bucket
end Memory
end Depot
