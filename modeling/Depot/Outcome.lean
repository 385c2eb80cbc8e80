import Depot.Wire.Variant

/-!
Outcomes of typed operations as callers get them: an answer under `ok`, or an error under `err`.
-/

set_option autoImplicit false
set_option relaxedAutoImplicit false

namespace Depot.Outcome

variable {ε α : Type}

def toJson (ofAnswer : α → Json) (ofError : ε → Json) : Except ε α → Json
  | .ok a => Wire.tagged "ok" (ofAnswer a)
  | .error e => Wire.tagged "err" (ofError e)

def ofJson (answer : Wire.Decoder α) (error : Wire.Decoder ε) : Wire.Decoder (Except ε α) :=
  Wire.variant [("ok", .carrying fun j ↦ (answer j).map .ok),
    ("err", .carrying fun j ↦ (error j).map .error)]

/-- A reader of outcomes reads back what it is written by, if the readers of its parts do. -/
theorem ofJson_toJson {ofAnswer : α → Json} {ofError : ε → Json} {answer : Wire.Decoder α}
    {error : Wire.Decoder ε} (ha : ∀ a, answer (ofAnswer a) = .ok a)
    (he : ∀ e, error (ofError e) = .ok e) (r : Except ε α) :
    ofJson answer error (toJson ofAnswer ofError r) = .ok r := by
  cases r with
  | ok a =>
    change (answer (ofAnswer a)).map Except.ok = _
    rw [ha]
    rfl
  | error e =>
    change (error (ofError e)).map Except.error = _
    rw [he]
    rfl

end Depot.Outcome
