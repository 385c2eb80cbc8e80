import Depot.Memory.Store
import Depot.Proofs.Link.Entries

/-!
# Links without their passwords

The password of a link may come from its secrets or from its configuration, and it is the only thing
that is read there (`DiffersInPassword`). Of two links that differ in nothing else the same becomes,
up to the password itself (`ofDefinition_masked`). A report on the arguments shows the same of both,
and the store in memory, which reads a password only to let it in or turn it away, connects both in
the same way (`establish_of_masked`).
-/

set_option autoImplicit false
set_option relaxedAutoImplicit false

namespace Depot

namespace Link

/-- The arguments without the password. -/
def Args.masked (a : Args) : Args := { a with password := "" }

theorem Args.report_masked (a : Args) : a.masked.report = a.report := a.report_password ""

theorem Args.report_of_masked {a a' : Args} (h : a.masked = a'.masked) : a.report = a'.report := by
  rw [← a.report_masked, h, a'.report_masked]

theorem Args.eq_of_masked {a a' : Args} (h : a.masked = a'.masked) :
    a' = { a with password := a'.password } := by
  obtain ⟨username, password, bucket, connection, scope?, collection?⟩ := a
  obtain ⟨username', password', bucket', connection', scope?', collection?'⟩ := a'
  simp only [masked, Args.mk.injEq] at h
  obtain ⟨rfl, -, rfl, rfl, rfl, rfl⟩ := h
  rfl

/-- Two links of one name that differ at most in the secret and in the entry of the configuration
where the password is looked for. -/
structure DiffersInPassword (d d' : Definition) : Prop where
  source : d.source = d'.source
  name : d.name = d'.name
  config : ∀ key, key ≠ "password" → d.config.get? key = d'.config.get? key
  secrets : ∀ key, key ≠ "password" → d.secrets.get? key = d'.secrets.get? key

variable {d d' : Definition}

theorem DiffersInPassword.entry? (h : DiffersInPassword d d') (key : String)
    (hkey : key ≠ "password") :
    Link.entry? d.config d.secrets key = Link.entry? d'.config d'.secrets key := by
  unfold Link.entry?
  rw [h.config key hkey, h.secrets key hkey]

theorem DiffersInPassword.required (h : DiffersInPassword d d') (key place : String)
    (hkey : key ≠ "password") :
    Link.required d.config d.secrets key place = Link.required d'.config d'.secrets key place := by
  unfold Link.required
  rw [h.entry? key hkey]

/-- Of two links that differ in a password alone, the same arguments or the same gap. -/
theorem ofDefinition_masked (h : DiffersInPassword d d') {password password' : String}
    (hpassword : Says d "password" password) (hpassword' : Says d' "password" password') :
    (Args.ofDefinition d).map Args.masked = (Args.ofDefinition d').map Args.masked := by
  unfold Args.ofDefinition Args.ofEntries
  rw [required_eq_ok_iff.2 hpassword, required_eq_ok_iff.2 hpassword',
    h.required "username" _ (by decide), h.required "bucketName" _ (by decide),
    h.required "connectionString" _ (by decide), h.entry? "scopeName" (by decide),
    h.entry? "collectionName" (by decide)]
  cases Link.required d'.config d'.secrets "username" "config" with
  | error gap => rfl
  | ok username =>
    cases Link.required d'.config d'.secrets "bucketName" "config" with
    | error gap => rfl
    | ok bucket =>
      cases Link.required d'.config d'.secrets "connectionString" "config" with
      | error gap => rfl
      | ok connection => rfl

end Link

namespace Memory

variable {policy : Policy} {a a' : Link.Args}

/-- Whoever connects with these arguments is let in. -/
def Policy.LetsIn (policy : Policy) (a : Link.Args) : Prop :=
  ∀ s, ∃ opened, ((backend policy).connect a s).1 = .ok opened

theorem letsIn_iff : policy.LetsIn a ↔
    (∃ host, Address.host? a.connection = some host) ∧ policy.accepts a = true := by
  change (∀ s, ∃ opened, (Store.connect policy a s).1 = .ok opened) ↔ _
  unfold Store.connect
  cases Address.host? a.connection with
  | none => simp
  | some host => cases policy.accepts a <;> simp

/-- Two sets of arguments that differ in a password alone are connected in the same way, if both are
let in or both are turned away. -/
theorem establish_of_masked (h : a.masked = a'.masked)
    (hboth : policy.LetsIn a ↔ policy.LetsIn a') (s : Store) :
    (backend policy).establish a s = (backend policy).establish a' s := by
  rw [letsIn_iff, letsIn_iff] at hboth
  rw [Link.Args.eq_of_masked h] at hboth ⊢
  have hconnect : (backend policy).connect a s =
      (backend policy).connect { a with password := a'.password } s := by
    change Store.connect policy a s = Store.connect policy { a with password := a'.password } s
    unfold Store.connect
    cases hhost : Address.host? a.connection with
    | none => rfl
    | some host =>
      have haccepts : policy.accepts a = policy.accepts { a with password := a'.password } :=
        Bool.eq_iff_iff.2 (by simpa [hhost] using hboth)
      simp only [haccepts]
      rfl
  unfold Backend.establish
  rw [hconnect]

end Memory
end Depot
