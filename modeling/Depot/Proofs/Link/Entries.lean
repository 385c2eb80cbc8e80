import Depot.Link.Args
import Depot.Proofs.Text.Utf8

/-!
# What a link says and lacks

The text under a key of a link is that of its secret, or that of its configuration where no secret
tells one; an empty text is none (`Says`). A secret of bytes tells the text that they are the UTF-8
of, if they are (`Tells`). A link can be connected exactly when it says something
under each of the required keys, and the error of one that cannot names the first key that it lacks.
-/

set_option autoImplicit false
set_option relaxedAutoImplicit false

namespace Depot.Link

variable {d : Definition} {key text : String} {g : Gap}

/-- The secret under a key is a text, or the bytes of one, and the text is not empty. -/
def Tells (d : Definition) (key text : String) : Prop :=
  (d.secrets.get? key = some (.string text) ∨
    d.secrets.get? key = some (.bytes (Text.encode text))) ∧ text ≠ ""

/-- The text that a link has under a key: that of its secret, or that of its configuration where no
secret tells one. -/
inductive Says (d : Definition) (key text : String) : Prop
  | secret (h : Tells d key text)
  | config (hsecret : ∀ other, ¬ Tells d key other) (h : d.config.get? key = some text)
      (hne : text ≠ "")

theorem reveal?_eq_some_iff {secret : Secret} :
    secret.reveal? = some text ↔ secret = .string text ∨ secret = .bytes (Text.encode text) := by
  cases secret with
  | string other => simp [Secret.reveal?]
  | bytes content =>
    rw [Secret.reveal?, Text.decode?_eq_some_iff]
    simp [eq_comm]

theorem tells_iff :
    ((d.secrets.get? key).bind Secret.reveal?).filter (· ≠ "") = some text ↔ Tells d key text := by
  rw [Option.filter_eq_some_iff, Option.bind_eq_some_iff, decide_eq_true_iff, Tells]
  refine and_congr_left fun _ ↦ ?_
  simp only [reveal?_eq_some_iff, and_or_left, exists_or, exists_eq_right]

theorem entry?_eq_some_iff : entry? d.config d.secrets key = some text ↔ Says d key text := by
  unfold entry?
  split
  · rename_i other hother
    rw [Option.some.injEq]
    constructor
    · rintro rfl
      exact .secret (tells_iff.1 hother)
    · rintro (h | ⟨hsecret, _, _⟩)
      · exact Option.some.inj (hother.symm.trans (tells_iff.2 h))
      · exact absurd (tells_iff.1 hother) (hsecret other)
  · rename_i hnone
    have hsecret : ∀ other, ¬ Tells d key other := fun other h ↦ by
      rw [tells_iff.2 h] at hnone
      cases hnone
    rw [Option.filter_eq_some_iff, decide_eq_true_iff]
    constructor
    · rintro ⟨h, hne⟩
      exact .config hsecret h hne
    · rintro (h | ⟨_, h, hne⟩)
      · exact absurd h (hsecret text)
      · exact ⟨h, hne⟩

theorem required_eq_ok_iff {place : String} :
    required d.config d.secrets key place = .ok text ↔ Says d key text := by
  rw [← entry?_eq_some_iff, required]
  cases entry? d.config d.secrets key with
  | none => exact ⟨nofun, nofun⟩
  | some other => rw [Except.ok.injEq, Option.some.injEq]

theorem required_eq_error_iff {place : String} :
    required d.config d.secrets key place = .error g ↔
      g = ⟨key, place⟩ ∧ ∀ text, ¬ Says d key text := by
  simp only [← entry?_eq_some_iff, required]
  cases entry? d.config d.secrets key with
  | none => simp [eq_comm]
  | some other => simp

/-- The entries that every link has to have, in the order in which they are looked for, and the
place where each is said to be. -/
def requiredEntries : List (String × String) :=
  [("username", "config"), ("password", "secret"), ("bucketName", "config"),
    ("connectionString", "config")]

/-- The first of some entries that a link lacks. -/
def FirstGap (d : Definition) (g : Gap) : List (String × String) → Prop
  | [] => False
  | p :: rest => (g = ⟨p.1, p.2⟩ ∧ ∀ text, ¬ Says d p.1 text) ∨
      ∃ text, Says d p.1 text ∧ FirstGap d g rest

theorem exists_firstGap_iff (entries : List (String × String)) :
    (∃ g, FirstGap d g entries) ↔ ∃ p ∈ entries, ∀ text, ¬ Says d p.1 text := by
  induction entries with
  | nil => simp [FirstGap]
  | cons p rest ih =>
    simp only [List.mem_cons, exists_eq_or_imp, ← ih]
    by_cases htold : ∃ text, Says d p.1 text
    · obtain ⟨text, htext⟩ := htold
      constructor
      · rintro ⟨g, ⟨_, hnot⟩ | ⟨_, _, hrest⟩⟩
        · exact absurd htext (hnot text)
        · exact Or.inr ⟨g, hrest⟩
      · rintro (hnot | ⟨g, hrest⟩)
        · exact absurd htext (hnot text)
        · exact ⟨g, Or.inr ⟨text, htext, hrest⟩⟩
    · have hnot : ∀ text, ¬ Says d p.1 text := fun text h ↦ htold ⟨text, h⟩
      exact ⟨fun _ ↦ Or.inl hnot, fun _ ↦ ⟨⟨p.1, p.2⟩, Or.inl ⟨rfl, hnot⟩⟩⟩

theorem ofDefinition_eq_error_iff :
    Args.ofDefinition d = .error g ↔ FirstGap d g requiredEntries := by
  simp only [Args.ofDefinition, Args.ofEntries, bind_eq_error_iff, required_eq_ok_iff,
    required_eq_error_iff, requiredEntries, FirstGap, reduceCtorEq, and_false, exists_false]

/-- The arguments are what the link says. -/
structure Args.Describe (a : Args) (d : Definition) : Prop where
  username : Says d "username" a.username
  password : Says d "password" a.password
  bucket : Says d "bucketName" a.bucket
  connection : Says d "connectionString" a.connection
  scope : ∀ text, a.scope? = some text ↔ Says d "scopeName" text
  collection : ∀ text, a.collection? = some text ↔ Says d "collectionName" text

theorem Args.describe_of_ofDefinition {a : Args} (h : Args.ofDefinition d = .ok a) :
    a.Describe d := by
  obtain ⟨username, husername, h⟩ := bind_eq_ok_iff.1 h
  obtain ⟨password, hpassword, h⟩ := bind_eq_ok_iff.1 h
  obtain ⟨bucket, hbucket, h⟩ := bind_eq_ok_iff.1 h
  obtain ⟨connection, hconnection, h⟩ := bind_eq_ok_iff.1 h
  cases h
  exact ⟨required_eq_ok_iff.1 husername, required_eq_ok_iff.1 hpassword,
    required_eq_ok_iff.1 hbucket, required_eq_ok_iff.1 hconnection,
    fun _ ↦ entry?_eq_some_iff, fun _ ↦ entry?_eq_some_iff⟩

end Depot.Link
