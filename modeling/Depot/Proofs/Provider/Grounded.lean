import Depot.Proofs.Memory.Hub
import Depot.Proofs.Provider.Service
import Depot.Proofs.Provider.Verdict
import Depot.Proofs.Router.History

/-!
# Links lead to buckets

A link that could be connected leads to a collection, and its bucket is in the store from then on:
connecting puts it there, and no call takes a bucket away. So a provider on a store in memory never
asks for a bucket that is not there (`grounded_before`).
-/

set_option autoImplicit false
set_option relaxedAutoImplicit false

namespace Depot

namespace Memory.Store

variable {policy : Policy} {s s' : Store} {k : Collection}

/-- No bucket is lost. -/
def Grows (s s' : Store) : Prop := ∀ site b, s.get? site = some b → ∃ b', s'.get? site = some b'

theorem Grows.refl (s : Store) : s.Grows s := fun _ b h ↦ ⟨b, h⟩

theorem grows_perform (policy : Policy) (connection : Connection Collection) (now : Nat) (c : Call)
    (s : Store) : s.Grows ((backend policy).perform connection now c s).2 := by
  rcases perform_cases policy connection now c s with
    ⟨f, hperform⟩ | ⟨k, b, b', a, _, _, _, hperform⟩
  · rw [hperform]
    exact .refl s
  · rw [hperform]
    intro site old hold
    by_cases hsite : k.site = site
    · exact ⟨b', hsite ▸ Table.get?_insert_self _ _ _⟩
    · exact ⟨old, (Table.get?_insert_of_ne _ hsite _).trans hold⟩

/-- Connecting loses no bucket, and the bucket of a connection is there. -/
theorem grows_establish (policy : Policy) (args : Link.Args) (s : Store) :
    s.Grows ((backend policy).establish args s).2 ∧
      ∀ k, ((backend policy).establish args s).1 = .live k →
        ∃ b, ((backend policy).establish args s).2.get? k.site = some b := by
  rcases establish_cases policy args s with ⟨k, _, _, hestablish⟩ | ⟨_, reason, hestablish⟩
  · rw [hestablish]
    refine ⟨fun site b hb ↦ ⟨b, get?_ensure_of_some hb⟩, fun k' hlive ↦ ?_⟩
    obtain ⟨rfl, -⟩ := Hub.opened_eq_live_iff.1 hlive
    exact Option.isSome_iff_exists.1 (get?_ensure_self policy k.site s)
  · rw [hestablish]
    exact ⟨.refl s, nofun⟩

end Memory.Store

namespace Provider

open Memory

variable {policy : Policy} {tokens : Nat → String} {p p' : Provider Store Collection}

/-- What the links lead to is in the store. -/
def Grounded (p : Provider Store Collection) : Prop :=
  ∀ route a k, p.router.link? route = some a → a.connection = .live k →
    ∃ b, p.store.get? k.site = some b

theorem Grounded.grow (h : p.Grounded) (hrouter : p'.router = p.router)
    (hstore : p.store.Grows p'.store) : p'.Grounded := by
  intro route a k ha hlive
  rw [hrouter] at ha
  obtain ⟨b, hb⟩ := h route a k ha hlive
  exact hstore k.site b hb

theorem grounded_create (settings : Settings) : (create settings .empty).Grounded := nofun

theorem Grounded.serveHost (h : p.Grounded) (r : HostRequest) :
    (p.serveHost ⟨backend policy, tokens⟩ r).2.Grounded := by
  cases r with
  | linkPut d =>
    rw [Provider.serveHost, linkPut]
    cases hargs : Link.Args.ofDefinition d with
    | error gap =>
      rw [Router.attach, hargs]
      exact h
    | ok args =>
      rw [Router.attach_eq_ok hargs]
      obtain ⟨hgrows, hlive⟩ := Store.grows_establish policy args p.store
      intro route a k ha hk
      rw [Router.link?_insert] at ha
      split at ha
      · obtain rfl := Option.some.inj ha
        exact hlive k hk
      · obtain ⟨b, hb⟩ := h route a k ha hk
        exact hgrows k.site b hb
  | linkDel source link =>
    intro route a k ha hk
    rw [Provider.serveHost, Router.link?_detach] at ha
    split at ha
    · contradiction
    · exact h route a k ha hk
  | shutdown =>
    intro route a k ha
    cases ha
  | health => exact h
  | ready kind handle => exact h
  | fetch kind handle => cases kind <;> exact h.grow rfl (.refl _)

theorem Grounded.serveCaller (h : p.Grounded) (now : Nat) (connection : Connection Collection)
    (r : CallerRequest) :
    (p.serveCaller ⟨backend policy, tokens⟩ now connection r).2.Grounded := by
  refine h.grow (router_serveCaller _ now connection p r) ?_
  rw [store_serveCaller]
  cases r.call? with
  | none => exact .refl p.store
  | some c => exact Store.grows_perform policy connection now c p.store

/-- Whatever happens to a provider alone, its links lead to buckets. -/
theorem Grounded.step (h : p.Grounded) {e : Event Store Collection}
    (hown : ∀ s, e = .store s → s = p.store) :
    (p.step ⟨backend policy, tokens⟩ e).Grounded := by
  cases e with
  | request q now =>
    change (p.serve _ now q.method q.params? q.headers).2.Grounded
    rcases serve_cases ⟨backend policy, tokens⟩ now q.method q.params? q.headers p with
      ⟨_, heq⟩ | ⟨_, r, _, _, heq⟩ | ⟨_, r, connection, _, _, heq⟩
    · rw [heq]
      exact h
    · rw [heq]
      exact h.serveHost r
    · rw [heq]
      exact h.serveCaller now connection r
  | work mayRun now =>
    rw [Provider.step, runNext]
    split
    · exact h
    · rename_i job hjob
      refine h.grow (by rw [runJob_frame]) ?_
      rw [store_runJob]
      exact Store.grows_perform policy job.connection now _ p.store
  | sweep ttl now => exact h
  | store s =>
    obtain rfl := hown s rfl
    exact h

/-- At every step of a run of its service, the links of a provider lead to buckets. -/
theorem grounded_before (policy : Policy) (tokens : Nat → String) (engine : Rpc.Engine)
    (settings : Settings) (run : List Service.Event) (i : Nat) :
    (Service.before ⟨backend policy, tokens⟩ (.idle engine (create settings .empty)) run
      i).provider.Grounded := by
  have hstart : (stateAt (Service.step ⟨backend policy, tokens⟩)
      (.idle engine (create settings .empty)) run 0).provider.Grounded := grounded_create settings
  refine stateAt_induction (P := fun _ (s : Service Store Collection) ↦ s.provider.Grounded)
    hstart (fun m event _ _ ih ↦ ?_) (fun _ _ _ ih ↦ ih) (Nat.zero_le i)
  generalize stateAt _ _ run m = s at ih ⊢
  rw [Service.provider_step]
  exact ih.step fun _ ↦ Service.store_of_seen

end Provider
end Depot
