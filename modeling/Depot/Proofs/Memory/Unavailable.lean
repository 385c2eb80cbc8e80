import Depot.Proofs.Memory.Address
import Depot.Proofs.Memory.Hub

/-!
# Links that cannot be connected

Connecting a link fails for one of three reasons: its connection string gives no host, it does not
have the credentials that the store wants, or its host is not reached (`Policy.Excludes`). Whichever
it is, the connection is one over which nothing is answered (`establish_of_excludes`); every other
link leads to a collection (`establish_of_not_excludes`), and its bucket never answers that it is
unavailable (`perform_ne_unavailable`). Connecting changes no bucket that is there
(`get?_establish`).
-/

set_option autoImplicit false
set_option relaxedAutoImplicit false

namespace Depot

open Memory

/-- No document is the reason why nothing is available. -/
theorem Call.refusal?_ne_unavailable (e : Entry) (isLocked : Bool) (c : Call) (reason : String) :
    c.refusal? e isLocked ≠ some (.unavailable reason) := by
  cases c with
  | get id o =>
    unfold refusal? Projection.ofContent
    by_cases hproject : o.project = []
    · simp [hproject]
    · cases Json.parse e.content <;> simp [hproject]
  | replace id content o =>
    rw [refusal?]
    split
    · simp
    · cases isLocked <;> simp
  | remove id o =>
    rw [refusal?]
    split
    · simp
    · cases isLocked <;> simp
  | unlock id cas timeout? =>
    rw [refusal?]
    split
    · split <;> simp
    · simp
  | increment id o =>
    rw [refusal?]
    split
    · simp
    · split <;> simp
  | _ => cases isLocked <;> simp [refusal?]

namespace Memory

theorem Bucket.step_ne_unavailable (b : Bucket) (k : Keyspace) (now : Nat) (c : Call)
    (reason : String) : b.step k now c ≠ .error (.unavailable reason) := by
  cases he : b.live? ⟨k, c.id⟩ now with
  | some e =>
    exact fun hstep ↦ c.refusal?_ne_unavailable e _ reason ((step_eq_error_iff he).1 hstep)
  | none =>
    have habsent := step_of_absent he
    split at habsent
    · rw [habsent]
      nofun
    · obtain ⟨done, hdone⟩ := habsent
      rw [hdone]
      nofun

/-- A store does not connect links with these arguments, or does not reach what they lead to. -/
inductive Policy.Excludes (p : Policy) (args : Link.Args) : Prop
  | unreadable (h : ∀ host, ¬ Address.IsHost args.connection host)
  | refused {username password : String} (h : p.credentials? = some (username, password))
      (hdiffers : username ≠ args.username ∨ password ≠ args.password)
  | unreached {host : String} (h : Address.IsHost args.connection host)
      (hunreachable : host ∈ p.unreachable)

variable {p : Policy} {args : Link.Args} {s : Store} {k : Collection}

theorem Policy.accepts_eq_false_iff : p.accepts args = false ↔ ∃ username password,
    p.credentials? = some (username, password) ∧
      (username ≠ args.username ∨ password ≠ args.password) := by
  unfold accepts
  cases p.credentials? with
  | none => simp
  | some c =>
    obtain ⟨username, password⟩ := c
    rw [Option.all_some, Bool.and_eq_false_iff, decide_eq_false_iff_not, decide_eq_false_iff_not]
    constructor
    · intro hdiffers
      exact ⟨username, password, rfl, hdiffers⟩
    · rintro ⟨_, _, ⟨⟩, hdiffers⟩
      exact hdiffers

theorem Policy.reaches_eq_false_iff {host : String} :
    p.reaches host = false ↔ host ∈ p.unreachable := by
  simp [reaches]

/-- A link is excluded, or it leads to a collection that is reached, and its store lets it in. -/
theorem Policy.excludes_or_leads (p : Policy) (args : Link.Args) :
    p.Excludes args ∨ ∃ k, Store.Leads args k ∧ p.accepts args = true ∧
      p.reaches k.site.host = true := by
  cases hk : Store.collectionOf? args with
  | none =>
    refine .inl (.unreadable fun host hhost ↦ ?_)
    rw [Store.collectionOf?, Address.host?_eq_some_iff.2 hhost] at hk
    contradiction
  | some k =>
    have hleads := Store.collectionOf?_eq_some_iff.1 hk
    cases haccepts : p.accepts args with
    | false =>
      obtain ⟨username, password, hcredentials, hdiffers⟩ := accepts_eq_false_iff.1 haccepts
      exact .inl (.refused hcredentials hdiffers)
    | true =>
      cases hreaches : p.reaches k.site.host with
      | false => exact .inl (.unreached hleads.host (reaches_eq_false_iff.1 hreaches))
      | true => exact .inr ⟨k, hleads, rfl, hreaches⟩

namespace Store

/-- A link that is excluded gets a connection over which nothing is answered. -/
theorem establish_of_excludes (h : p.Excludes args) (s : Store) :
    ∃ reason, ((backend p).establish args s).1 = .unavailable reason := by
  rcases establish_cases p args s with ⟨k, hk, haccepts, heq⟩ | ⟨_, reason, heq⟩
  · have hleads := collectionOf?_eq_some_iff.1 hk
    rw [heq, opened]
    cases h with
    | unreadable hno => exact absurd hleads.host (hno _)
    | refused hcredentials hdiffers =>
      rw [Policy.accepts_eq_false_iff.2 ⟨_, _, hcredentials, hdiffers⟩] at haccepts
      contradiction
    | unreached hhost hunreachable =>
      have hsame : k.site.host = _ := Option.some.inj ((Address.host?_eq_some_iff.2
        hleads.host).symm.trans (Address.host?_eq_some_iff.2 hhost))
      rw [hsame, Policy.reaches_eq_false_iff.2 hunreachable]
      exact ⟨_, rfl⟩
  · exact ⟨reason, congrArg Prod.fst heq⟩

/-- Every other link leads where its arguments say. -/
theorem establish_of_not_excludes (h : ¬ p.Excludes args) (s : Store) :
    ∃ k, ((backend p).establish args s).1 = .live k ∧ Leads args k := by
  obtain ⟨k, hleads, haccepts, hreaches⟩ := (p.excludes_or_leads args).resolve_left h
  have hk := collectionOf?_eq_some_iff.2 hleads
  rcases establish_cases p args s with ⟨k', hk', _, heq⟩ | ⟨hrefused, _⟩
  · obtain rfl := Option.some.inj (hk.symm.trans hk')
    rw [heq]
    exact ⟨k, Hub.opened_eq_live_iff.2 ⟨rfl, hreaches⟩, hleads⟩
  · rcases hrefused with hnone | hrefused
    · rw [hk] at hnone
      contradiction
    · rw [haccepts] at hrefused
      contradiction

/-- A bucket never answers that it is unavailable. -/
theorem perform_ne_unavailable {b : Bucket} (hb : s.get? k.site = some b) (p : Policy) (now : Nat)
    (c : Call) (reason : String) :
    ((backend p).perform (.live k) now c s).1 ≠ .fault (.unavailable reason) := by
  cases hstep : b.step k.keyspace now c with
  | ok done =>
    rw [perform_of_step (step_of_ok hb hstep)]
    nofun
  | error f =>
    rw [perform_of_step (step_of_error hb hstep)]
    rintro ⟨⟩
    exact b.step_ne_unavailable k.keyspace now c reason hstep

/-- Connecting changes no bucket that is there, and the one that it may add is new. -/
theorem get?_establish (p : Policy) (args : Link.Args) (s : Store) (site : Site) :
    (∀ b, s.get? site = some b → ((backend p).establish args s).2.get? site = some b) ∧
      ∀ b, ((backend p).establish args s).2.get? site = some b →
        s.get? site = some b ∨ s.get? site = none ∧ b.IsNew := by
  rcases establish_cases p args s with ⟨k, _, _, heq⟩ | ⟨_, reason, heq⟩
  · rw [heq]
    exact ⟨fun b hb ↦ get?_ensure_of_some hb, fun b hb ↦ get?_ensure hb⟩
  · rw [heq]
    exact ⟨fun b hb ↦ hb, fun b hb ↦ .inl hb⟩

end Store
end Memory
end Depot
