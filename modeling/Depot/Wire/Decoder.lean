import Depot.Json.Basic

/-!
Typed values out of JSON values. A decoder says why it refuses: a named member is missing, or the
value has another form than the wanted one. Every decoder of this module has the writer beside it
that it reads back.
-/

set_option autoImplicit false
set_option relaxedAutoImplicit false

namespace Depot.Wire

/-- Why a value is refused. -/
inductive Mismatch where
  | missing (field : String)
  | shape
  deriving DecidableEq, Repr

def Mismatch.message : Mismatch → String
  | .missing field => s!"missing field `{field}`"
  | .shape => "value of another form"

abbrev Decoder (α : Type) := Json → Except Mismatch α

variable {α : Type}

/-- A value that a partial reader accepts. -/
def accept (a? : Option α) : Except Mismatch α :=
  match a? with
  | some a => .ok a
  | none => .error .shape

def value : Decoder Json := .ok

def unit : Decoder Unit
  | .null => .ok ()
  | _ => .error .shape

def bool : Decoder Bool
  | .bool b => .ok b
  | _ => .error .shape

def text : Decoder String
  | .text s => .ok s
  | _ => .error .shape

/-- A whole number under a limit; a double is none, whatever its value. -/
def below? (limit : Nat) (j : Json) : Option Nat :=
  (j.toUInt64?.map UInt64.toNat).filter (· < limit)

def uint64 : Decoder UInt64 := fun j ↦ accept j.toUInt64?

def uint16 : Decoder UInt16 := fun j ↦ accept ((below? UInt16.size j).map UInt16.ofNat)

def byte : Decoder UInt8 := fun j ↦ accept ((below? UInt8.size j).map UInt8.ofNat)

def option (decode : Decoder α) : Decoder (Option α)
  | .null => .ok none
  | j => (decode j).map some

/-- Reads items until one is refused. -/
def items (decode : Decoder α) : List Json → Except Mismatch (List α)
  | [] => .ok []
  | j :: rest =>
    match decode j with
    | .error e => .error e
    | .ok a => (items decode rest).map (a :: ·)

def list (decode : Decoder α) : Decoder (List α)
  | .array js => items decode js
  | _ => .error .shape

/-- Bytes are an array of small numbers; a string is none. -/
def bytes : Decoder (List UInt8) := list byte

/-- Reads the values of members until one is refused. -/
def memberValues (decode : Decoder α) : Members Json → Except Mismatch (Members α)
  | [] => .ok []
  | (key, j) :: rest =>
    match decode j with
    | .error e => .error e
    | .ok a => (memberValues decode rest).map ((key, a) :: ·)

/-- An object whose members all have values of one kind. -/
def fields (decode : Decoder α) : Decoder (Fields α)
  | .object members => (memberValues decode members).map Fields.ofList
  | _ => .error .shape

/-! ## The writers -/

def ofOption (write : α → Json) : Option α → Json
  | none => .null
  | some a => write a

def ofUInt16 (n : UInt16) : Json := .ofUInt64 n.toUInt64

def ofBytes (s : List UInt8) : Json := .array (s.map fun b ↦ .ofUInt64 b.toUInt64)

def ofFields (write : α → Json) (t : Fields α) : Json :=
  .object (t.members.map fun p ↦ (p.1, write p.2))

@[simp] theorem uint64_ofUInt64 (n : UInt64) : uint64 (.ofUInt64 n) = .ok n := by
  simp [uint64, Json.toUInt64?_ofUInt64, accept]

@[simp] theorem uint16_ofUInt16 (n : UInt16) : uint16 (ofUInt16 n) = .ok n := by
  have h : n.toNat < UInt16.size := n.toNat_lt_size
  simp only [uint16, below?, ofUInt16, Json.toUInt64?_ofUInt64, Option.map_some,
    UInt16.toNat_toUInt64, Option.filter_some, h, decide_true, if_true, UInt16.ofNat_toNat, accept]

@[simp] theorem byte_ofUInt64 (b : UInt8) : byte (.ofUInt64 b.toUInt64) = .ok b := by
  have h : b.toNat < UInt8.size := b.toNat_lt_size
  simp only [byte, below?, Json.toUInt64?_ofUInt64, Option.map_some, UInt8.toNat_toUInt64,
    Option.filter_some, h, decide_true, if_true, UInt8.ofNat_toNat, accept]

theorem items_map {decode : Decoder α} {write : α → Json} (h : ∀ a, decode (write a) = .ok a)
    (l : List α) : items decode (l.map write) = .ok l := by
  induction l with
  | nil => rfl
  | cons a rest ih => simp [items, h, ih, Except.map]

theorem option_ofOption {decode : Decoder α} {write : α → Json}
    (h : ∀ a, decode (write a) = .ok a) (hn : ∀ a, write a ≠ .null) (a? : Option α) :
    option decode (ofOption write a?) = .ok a? := by
  cases a? with
  | none => rfl
  | some a =>
    simp only [ofOption]
    unfold option
    split
    · rename_i e
      exact absurd e (hn a)
    · rw [h]
      rfl

@[simp] theorem option_uint64 (n? : Option UInt64) :
    option uint64 (ofOption .ofUInt64 n?) = .ok n? :=
  option_ofOption uint64_ofUInt64 (fun n e ↦ by simp [Json.ofUInt64] at e) n?

theorem memberValues_map {decode : Decoder α} {write : α → Json}
    (h : ∀ a, decode (write a) = .ok a) (m : Members α) :
    memberValues decode (m.map fun p ↦ (p.1, write p.2)) = .ok m := by
  induction m with
  | nil => rfl
  | cons p rest ih => simp [memberValues, h, ih, Except.map]

theorem fields_ofFields {decode : Decoder α} {write : α → Json}
    (h : ∀ a, decode (write a) = .ok a) (t : Fields α) :
    fields decode (ofFields write t) = .ok t := by
  have hlist : Fields.ofList t.members = t := by
    simp only [Fields.ofList, Members.ofList_of_sorted t.sorted]
  rw [ofFields, fields, memberValues_map h]
  exact congrArg Except.ok hlist

@[simp] theorem bytes_ofBytes (s : List UInt8) : bytes (ofBytes s) = .ok s :=
  items_map byte_ofUInt64 s

end Depot.Wire
