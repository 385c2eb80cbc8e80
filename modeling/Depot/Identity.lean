import Depot.Fields
import Depot.Provider.Error
import Depot.Settings

/-!
Who sends a request, as its headers say. An empty header counts as none.
-/

set_option autoImplicit false
set_option relaxedAutoImplicit false

namespace Depot

structure Identity where
  source : String
  link? : Option String := none
  deriving DecidableEq, Repr

namespace Identity

def header? (headers : Fields String) (name : String) : Option String :=
  (headers.get? name).filter (· ≠ "")

def ofHeaders (s : Settings) (headers : Fields String) : Except ProviderError Identity :=
  match header? headers s.sourceHeader with
  | none => .error .missingIdentity
  | some source => .ok ⟨source, header? headers s.linkHeader⟩

variable {s : Settings} {headers : Fields String} {who : Identity}

theorem header?_eq_some_iff {name text : String} :
    header? headers name = some text ↔ headers.get? name = some text ∧ text ≠ "" := by
  rw [header?, Option.filter_eq_some_iff, decide_eq_true_iff]

theorem ofHeaders_eq_ok_iff : ofHeaders s headers = .ok who ↔
    header? headers s.sourceHeader = some who.source ∧
      header? headers s.linkHeader = who.link? := by
  obtain ⟨source, link?⟩ := who
  rw [ofHeaders]
  cases header? headers s.sourceHeader with
  | none => simp
  | some named => simp

end Identity
end Depot
