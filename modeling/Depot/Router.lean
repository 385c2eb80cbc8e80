import Depot.Backend.Basic
import Depot.Identity
import Depot.Table

/-!
The routing table: which connection serves which link of which caller. Every caller that has a link
has a table of links of its own, and a caller without links has none. A link that could not be
connected is in the table like any other, and its calls fail one by one.
-/

set_option autoImplicit false
set_option relaxedAutoImplicit false

namespace Depot

/-- A caller and the name of one of its links. -/
structure Route where
  source : String
  link : String
  deriving DecidableEq, Repr

/-- What a link was attached with, and what came of it. -/
structure Attached (κ : Type) where
  args : Link.Args
  connection : Connection κ

/-- The links of every caller, by their names. -/
abbrev Router (κ : Type) := Table String (Table String (Attached κ))

namespace Router

variable {σ κ : Type}

/-- Connects a link and puts it in the place of an earlier one. Only a link that lacks an entry is
refused, before anything is connected. -/
def attach (b : Backend σ κ) (d : Link.Definition) (r : Router κ) (s : σ) :
    Except ProviderError (Router κ × σ) :=
  match Link.Args.ofDefinition d with
  | .error gap => .error (.ofGap gap)
  | .ok args =>
    let (connection, s) := b.establish args s
    let links := (Table.get? r d.source).getD .empty
    .ok (Table.insert r d.source (links.insert d.name ⟨args, connection⟩), s)

/-- Forgets a link, and with its last link a caller; an unknown one is no error. -/
def detach (r : Router κ) (route : Route) : Router κ :=
  match Table.get? r route.source with
  | none => r
  | some links =>
    let rest := links.erase route.link
    if rest.isEmpty then Table.erase r route.source else Table.insert r route.source rest

/-- Forgets all links. -/
def clear : Router κ := Table.empty

/-- The link of a caller that names none: the default one, or else the only one. -/
def implied? (links : Table String (Attached κ)) (defaultLink : String) : Option (Attached κ) :=
  match links.get? defaultLink with
  | some a => some a
  | none => links.only?

def find? (r : Router κ) (defaultLink : String) (who : Identity) : Option (Attached κ) :=
  (Table.get? r who.source).bind fun links ↦
    match who.link? with
    | some link => links.get? link
    | none => implied? links defaultLink

/-- The connection that serves a caller. -/
def resolve (r : Router κ) (defaultLink : String) (who : Identity) :
    Except ProviderError (Connection κ) :=
  match r.find? defaultLink who with
  | some a => .ok a.connection
  | none => .error (.unlinkedSource who.source)

def link? (r : Router κ) (route : Route) : Option (Attached κ) :=
  (Table.get? r route.source).bind (·.get? route.link)

def args? (r : Router κ) (route : Route) : Option Link.Args := (r.link? route).map (·.args)

def isLinked (r : Router κ) (source : String) : Bool := Table.contains r source

/-- How many links there are, of all callers together. -/
def linkCount (r : Router κ) : Nat := r.entries.foldr (fun p n ↦ p.2.size + n) 0

end Router
end Depot
