import Depot.Wire.Decoder

/-!
Records: values with named parts. A record is read from an object, where unknown members are passed
over, or from an array of its parts in the order of their declaration. In an object the parts that
are there are looked at first, in the order of their keys, and only then is a missing one reported,
in the order of declaration.
-/

set_option autoImplicit false
set_option relaxedAutoImplicit false

namespace Depot.Wire

/-- One named part: how it is read, what stands for it when an object lacks it, and what stands for
it when an array ends before it. -/
structure Slot (α : Type) where
  name : String
  decode : Decoder α
  absent : Except Mismatch α
  short : Except Mismatch α

namespace Slot

variable {α : Type}

/-- A part that must be there. -/
def required (name : String) (decode : Decoder α) : Slot α :=
  ⟨name, decode, .error (.missing name), .error .shape⟩

/-- A part that an object may lack, but no array may end before. -/
def optional (name : String) (decode : Decoder α) : Slot (Option α) :=
  ⟨name, option decode, .ok none, .error .shape⟩

/-- A part with a value of its own for when it is not given. -/
def defaulted (name : String) (decode : Decoder α) (value : α) : Slot α :=
  ⟨name, decode, .ok value, .ok value⟩

end Slot

/-- How the parts of a record are looked at and put together. -/
structure Record (α : Type) where
  /-- The known names, and whether what stands under one is acceptable. -/
  checks : List (String × (Json → Except Mismatch Unit))
  ofMembers : Members Json → Except Mismatch α
  /-- Takes the parts from the front and gives back what is left. -/
  ofItems : List Json → Except Mismatch (α × List Json)

namespace Record

variable {α β : Type}

/-- A record of one part. -/
def ofSlot (f : Slot α) : Record α where
  checks := [(f.name, fun j ↦ (f.decode j).map fun _ ↦ ())]
  ofMembers members :=
    match Members.get? members f.name with
    | some j => f.decode j
    | none => f.absent
  ofItems
    | [] => f.short.map fun a ↦ (a, [])
    | j :: rest => (f.decode j).map fun a ↦ (a, rest)

def map (f : α → β) (r : Record α) : Record β where
  checks := r.checks
  ofMembers members := (r.ofMembers members).map f
  ofItems items := (r.ofItems items).map fun p ↦ (f p.1, p.2)

/-- The parts of one record, then one part more. -/
def and (r : Record (α → β)) (f : Slot α) : Record β where
  checks := r.checks ++ (ofSlot f).checks
  ofMembers members := do
    let g ← r.ofMembers members
    let a ← (ofSlot f).ofMembers members
    .ok (g a)
  ofItems items := do
    let (g, rest) ← r.ofItems items
    let (a, rest) ← (ofSlot f).ofItems rest
    .ok (g a, rest)

/-- Looks at the known members in the order in which they stand. -/
def check (checks : List (String × (Json → Except Mismatch Unit))) :
    Members Json → Except Mismatch Unit
  | [] => .ok ()
  | (key, j) :: rest =>
    match checks.find? fun c ↦ c.1 = key with
    | none => check checks rest
    | some c =>
      match c.2 j with
      | .error e => .error e
      | .ok () => check checks rest

def decode (r : Record α) : Decoder α
  | .object members =>
    match check r.checks members with
    | .error e => .error e
    | .ok () => r.ofMembers members
  | .array items =>
    match r.ofItems items with
    | .error e => .error e
    | .ok (a, []) => .ok a
    | .ok (_, _ :: _) => .error .shape
  | _ => .error .shape

end Record
end Depot.Wire
