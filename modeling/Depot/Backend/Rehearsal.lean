import Depot.Backend.Basic

/-!
A store made to fail. Calls with a planned name end with a fault or do not end at all, whatever the
store would say; all others, and connecting itself, go through.
-/

set_option autoImplicit false
set_option relaxedAutoImplicit false

namespace Depot.Backend

/-- How a planned call ends. -/
inductive Mishap where
  | fault (fault : Fault)
  | crash
  deriving DecidableEq, Repr

/-- What happens to calls, by their names. -/
abbrev Plan := List (String × Mishap)

def Plan.find? (p : Plan) (c : Call) : Option Mishap :=
  (List.find? (fun m ↦ m.1 = c.name) p).map Prod.snd

variable {σ κ : Type}

/-- The same store under a plan. Even a connection to nothing is one to make fail. -/
def rehearse (b : Backend σ κ) (plan : Plan) : Backend σ (Connection κ) where
  connect args s :=
    match b.connect args s with
    | (.ok opened, s') => (.ok ⟨opened.ready, .live opened.connection⟩, s')
    | (.error f, s') => (.error f, s')
  call key now c s :=
    match plan.find? c with
    | some (.fault f) => (.fault f, s)
    | some .crash => (.crash, s)
    | none => b.perform key now c s

end Depot.Backend
