import Depot.Proofs.Memory.Hub

/-!
# Where links lead

A connection string is a scheme, `://`, the host and whatever comes behind it; the host is as long
as it can be without a slash or a question mark, and not empty (`Address.IsHost`). With the bucket,
the scope and the collection of a link it makes the collection that the link leads to
(`Store.Leads`). Reading a connection string finds its host exactly when it has one, and then there
is one only.
-/

set_option autoImplicit false
set_option relaxedAutoImplicit false

namespace Depot

theorem Text.behind?_eq_some_iff {front s rest : List Char} :
    behind? front s = some rest ↔ s = front ++ rest := by
  constructor
  · intro h
    induction front generalizing s with
    | nil =>
      rw [behind?] at h
      exact Option.some.inj h
    | cons c cs ih =>
      cases s with
      | nil => cases h
      | cons d ds =>
        rw [behind?] at h
        split at h
        · rename_i hcd
          rw [hcd, ih h]
          rfl
        · cases h
  · rintro rfl
    exact behind?_append front rest

namespace Memory

namespace Address

/-- What a connection string is made of. -/
def IsHost (connection host : String) : Prop :=
  ∃ scheme ∈ ["couchbase", "couchbases", "cb", "mem"], ∃ rest, connection.toList =
      scheme.toList ++ [':', '/', '/'] ++ (host.toList ++ rest) ∧
    host.toList ≠ [] ∧ (∀ c ∈ host.toList, c ≠ '/' ∧ c ≠ '?') ∧
    ∀ c, rest.head? = some c → c = '/' ∨ c = '?'

theorem isHostChar_iff {c : Char} : isHostChar c = true ↔ c ≠ '/' ∧ c ≠ '?' := by
  simp [isHostChar]

/-- The longest run of host characters. -/
theorem takeWhile_isHostChar_eq_iff {s host : List Char} :
    s.takeWhile isHostChar = host ↔ ∃ rest, s = host ++ rest ∧
      (∀ c ∈ host, c ≠ '/' ∧ c ≠ '?') ∧ ∀ c, rest.head? = some c → c = '/' ∨ c = '?' := by
  constructor
  · rintro rfl
    refine ⟨s.dropWhile isHostChar, List.takeWhile_append_dropWhile.symm, fun c hc ↦ ?_,
      fun c hc ↦ ?_⟩
    · exact isHostChar_iff.1 (List.all_eq_true.1 List.all_takeWhile c hc)
    · have hstop := List.head?_dropWhile_not isHostChar s
      rw [hc] at hstop
      change isHostChar c = false at hstop
      by_cases hslash : c = '/'
      · exact Or.inl hslash
      · refine Or.inr (Decidable.byContradiction fun hmark ↦ ?_)
        rw [isHostChar_iff.2 ⟨hslash, hmark⟩] at hstop
        cases hstop
  · rintro ⟨rest, rfl, hhost, hrest⟩
    have hnil : rest.takeWhile isHostChar = [] := by
      cases rest with
      | nil => rfl
      | cons c rest =>
        refine List.takeWhile_cons_of_neg fun hc ↦ ?_
        obtain ⟨hslash, hmark⟩ := isHostChar_iff.1 hc
        rcases hrest c rfl with heq | heq
        · exact hslash heq
        · exact hmark heq
    rw [List.takeWhile_append_of_pos fun c hc ↦ isHostChar_iff.2 (hhost c hc), hnil,
      List.append_nil]

/-- The host behind a scheme. -/
theorem hostBehind?_eq_some_iff {scheme host : String} {s : List Char} :
    hostBehind? scheme s = some host ↔ ∃ behind, s = scheme.toList ++ [':', '/', '/'] ++ behind ∧
      host.toList ≠ [] ∧ behind.takeWhile isHostChar = host.toList := by
  have hbehind : hostBehind? scheme s = some host ↔ ∃ behind,
      Text.behind? (scheme.toList ++ [':', '/', '/']) s = some behind ∧
        host.toList ≠ [] ∧ behind.takeWhile isHostChar = host.toList := by
    unfold hostBehind?
    cases Text.behind? (scheme.toList ++ [':', '/', '/']) s with
    | none => simp
    | some behind =>
      simp only [Option.map_some, Option.some.injEq, exists_eq_left']
      cases behind.takeWhile isHostChar with
      | nil =>
        simp only [reduceCtorEq, false_iff, not_and]
        exact fun hne heq ↦ hne heq.symm
      | cons c cs =>
        rw [Option.some.injEq]
        constructor
        · rintro rfl
          simp
        · rintro ⟨_, heq⟩
          rw [heq, String.ofList_toList]
  rw [hbehind]
  refine exists_congr fun behind ↦ ?_
  rw [Text.behind?_eq_some_iff]

/-- What stands behind a scheme does not depend on the scheme, since no scheme has a colon. -/
theorem behind_unique {scheme other : String} (hscheme : scheme ∈ schemes)
    (hother : other ∈ schemes) {behind behind' : List Char}
    (h : scheme.toList ++ [':', '/', '/'] ++ behind = other.toList ++ [':', '/', '/'] ++ behind') :
    behind = behind' := by
  have hcolon : schemes.all (fun name ↦ name.toList.all (· ≠ ':')) = true := rfl
  have hdrop : ∀ name ∈ schemes, ∀ more,
      (name.toList ++ [':', '/', '/'] ++ more).dropWhile (· ≠ ':') = ':' :: '/' :: '/' :: more := by
    intro name hname more
    have hname' := List.all_eq_true.1 (List.all_eq_true.1 hcolon name hname)
    rw [List.append_assoc, List.dropWhile_append_of_pos hname']
    rfl
  have hsame := hdrop scheme hscheme behind
  rw [h, hdrop other hother behind'] at hsame
  cases hsame
  rfl

/-- Reading a connection string finds the host that it has. -/
theorem host?_eq_some_iff {connection host : String} :
    host? connection = some host ↔ IsHost connection host := by
  have hfind : host? connection = some host ↔
      ∃ scheme ∈ schemes, hostBehind? scheme connection.toList = some host := by
    constructor
    · exact List.exists_of_findSome?_eq_some
    · rintro ⟨scheme, hscheme, hhost⟩
      cases hfound : host? connection with
      | none =>
        have hnone := List.findSome?_eq_none_iff.1 hfound scheme hscheme
        rw [hhost] at hnone
        cases hnone
      | some host' =>
        obtain ⟨other, hother, hhost'⟩ := List.exists_of_findSome?_eq_some hfound
        obtain ⟨behind, hbehind, _, htake⟩ := hostBehind?_eq_some_iff.1 hhost
        obtain ⟨behind', hbehind', _, htake'⟩ := hostBehind?_eq_some_iff.1 hhost'
        obtain rfl := behind_unique hscheme hother (hbehind.symm.trans hbehind')
        exact congrArg some (String.toList_inj.1 (htake'.symm.trans htake))
  rw [hfind, IsHost, schemes]
  refine exists_congr fun scheme ↦ and_congr_right fun _ ↦ ?_
  rw [hostBehind?_eq_some_iff]
  constructor
  · rintro ⟨behind, hs, hne, htake⟩
    obtain ⟨rest, rfl, hhost, hrest⟩ := takeWhile_isHostChar_eq_iff.1 htake
    exact ⟨rest, hs, hne, hhost, hrest⟩
  · rintro ⟨rest, hs, hne, hhost, hrest⟩
    exact ⟨_, hs, hne, takeWhile_isHostChar_eq_iff.2 ⟨rest, rfl, hhost, hrest⟩⟩

end Address

namespace Store

/-- The collection that the arguments of a link name: its host and bucket, and its scope and
collection if both are given. -/
structure Leads (args : Link.Args) (k : Collection) : Prop where
  host : Address.IsHost args.connection k.site.host
  bucket : k.site.bucket = args.bucket
  named : ∀ scope collection, args.scope? = some scope → args.collection? = some collection →
    k.keyspace = ⟨scope, collection⟩
  unnamed : args.scope? = none ∨ args.collection? = none → k.keyspace = ⟨"_default", "_default"⟩

theorem ofNames_keyspace?_iff {args : Link.Args} {keyspace : Keyspace} :
    .ofNames args.keyspace? = keyspace ↔
      (∀ scope collection, args.scope? = some scope → args.collection? = some collection →
        keyspace = ⟨scope, collection⟩) ∧
      (args.scope? = none ∨ args.collection? = none → keyspace = ⟨"_default", "_default"⟩) := by
  unfold Link.Args.keyspace?
  cases args.scope? with
  | none => simp [Keyspace.ofNames, Keyspace.default, eq_comm]
  | some scope =>
    cases args.collection? with
    | none => simp [Keyspace.ofNames, Keyspace.default, eq_comm]
    | some collection => simp [Keyspace.ofNames, eq_comm]

theorem collectionOf?_eq_some_iff {args : Link.Args} {k : Collection} :
    collectionOf? args = some k ↔ Leads args k := by
  obtain ⟨⟨host, bucket⟩, keyspace⟩ := k
  unfold collectionOf?
  rw [Option.map_eq_some_iff]
  constructor
  · rintro ⟨host', hhost, heq⟩
    cases heq
    obtain ⟨hnamed, hunnamed⟩ := ofNames_keyspace?_iff.1 rfl
    exact ⟨Address.host?_eq_some_iff.1 hhost, rfl, hnamed, hunnamed⟩
  · rintro ⟨hhost, hbucket, hnamed, hunnamed⟩
    cases hbucket
    refine ⟨host, Address.host?_eq_some_iff.2 hhost, ?_⟩
    rw [ofNames_keyspace?_iff.2 ⟨hnamed, hunnamed⟩]

end Store
end Memory
end Depot
