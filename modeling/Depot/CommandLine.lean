import Depot.Settings.File
import Depot.Text.Cut
import Depot.Text.Numeral

/-!
The command line. An option's value stands behind it or is attached to it. A value that stands
behind is looked at only when the next option begins or the line ends, so an argument that nobody
knows is refused before it.
-/

set_option autoImplicit false
set_option relaxedAutoImplicit false

namespace Depot

/-- How much is reported while the provider runs. -/
inductive Level where
  | off
  | error
  | warn
  | info
  | debug
  | trace
  deriving DecidableEq, Repr

namespace Level

def name : Level → String
  | off => "OFF"
  | error => "ERROR"
  | warn => "WARN"
  | info => "INFO"
  | debug => "DEBUG"
  | trace => "TRACE"

def all : List Level := [off, error, warn, info, debug, trace]

/-- The level of a name, in whatever case of its letters. -/
def ofName? (s : String) : Option Level :=
  all.find? fun l ↦ l.name.toList.map Char.toLower = s.toList.map Char.toLower

end Level

/-- What the command line says. -/
structure CommandLine where
  config? : Option String := none
  readinessMillis? : Option UInt64 := none
  ttlSecs? : Option UInt64 := none
  level : Level := .info
  deriving DecidableEq, Repr

namespace CommandLine

/-- Options with a value. -/
inductive Key where
  | config
  | readiness
  | ttl
  | level
  deriving DecidableEq, Repr

/-- Why the program does not start. -/
inductive Refusal where
  | help
  | version
  | unknown
  | missingValue
  | badValue
  | repeated
  | surplusValue
  deriving DecidableEq, Repr

/-- Asking for help or for the version is no failure. -/
def Refusal.exitCode : Refusal → UInt32
  | help => 0
  | version => 0
  | _ => 2

/-- What a long name stands for: an option with a value, or a question that ends the program. -/
def longNames : List (String × (Key ⊕ Refusal)) :=
  [("config", .inl .config), ("readiness-timeout-ms", .inl .readiness),
    ("result-ttl-secs", .inl .ttl), ("log-level", .inl .level), ("help", .inr .help),
    ("version", .inr .version)]

/-- What a letter stands for. -/
def letters : List (Char × (Key ⊕ Refusal)) :=
  [('c', .inl .config), ('h', .inr .help), ('V', .inr .version)]

def number (value : String) : Except Refusal UInt64 :=
  match Text.numeralBelow? Text.limit64 value.toList with
  | some n => .ok (.ofNat n)
  | none => .error .badValue

/-- Puts the value of an option into the command line. -/
def set (line : CommandLine) (value : String) : Key → Except Refusal CommandLine
  | .config => if value = "" then .error .missingValue else .ok { line with config? := some value }
  | .readiness => (number value).map fun n ↦ { line with readinessMillis? := some n }
  | .ttl => (number value).map fun n ↦ { line with ttlSecs? := some n }
  | .level =>
    match Level.ofName? value with
    | some level => .ok { line with level }
    | none => .error .badValue

/-- What has been read so far. -/
structure Progress where
  line : CommandLine := {}
  /-- The options that were given. -/
  given : List Key := []
  /-- The last option if its value was not looked at yet, with the value if it has come. -/
  pending? : Option (Key × Option String) := none

namespace Progress

def accept (p : Progress) (key : Key) (value : String) : Except Refusal Progress :=
  if key ∈ p.given then .error .repeated
  else (p.line.set value key).map fun line ↦ { p with line, given := key :: p.given }

/-- Looks at the value that was put off. -/
def settle (p : Progress) : Except Refusal Progress :=
  match p.pending? with
  | none => .ok p
  | some (_, none) => .error .missingValue
  | some (key, some value) => { p with pending? := none }.accept key value

/-- Begins an option or answers a question. -/
def begin (p : Progress) (attached? : Option String) : Key ⊕ Refusal → Except Refusal Progress
  | .inl key => do
    let p ← p.settle
    match attached? with
    | some value => p.accept key value
    | none => .ok { p with pending? := some (key, none) }
  | .inr question => do
    let _ ← p.settle
    .error question

/-- An argument that begins with two dashes. -/
def long (p : Progress) (body : List Char) : Except Refusal Progress :=
  let (name, attached?) := match Text.cutAt? '=' body with
    | some (name, value) => (name, some (String.ofList value))
    | none => (body, none)
  match longNames.find? (fun n ↦ n.1.toList = name), attached? with
  | none, _ => .error .unknown
  | some (_, .inr _), some _ => .error .surplusValue
  | some (_, what), attached? => p.begin attached? what

/-- An argument that begins with one dash. What follows the letter of an option is its value. -/
def short (p : Progress) (letter : Char) (tail : List Char) : Except Refusal Progress :=
  match letters.find? (fun l ↦ l.1 = letter) with
  | none => .error .unknown
  | some (_, what) =>
    let attached? := match tail with
      | [] => none
      | '=' :: value => some (String.ofList value)
      | value => some (String.ofList value)
    p.begin attached? what

/-- An argument without dashes, or one dash alone: the value of the option before it. -/
def plain (p : Progress) (value : String) : Except Refusal Progress :=
  match p.pending? with
  | some (key, none) => .ok { p with pending? := some (key, some value) }
  | _ => .error .unknown

end Progress

/-- Reads the arguments in their order. Behind two dashes alone nothing may follow. -/
def scan : List String → Progress → Except Refusal CommandLine
  | [], p => p.settle.map (·.line)
  | arg :: rest, p => do
    match arg.toList with
    | ['-', '-'] => if rest = [] then p.settle.map (·.line) else .error .unknown
    | '-' :: '-' :: body => scan rest (← p.long body)
    | '-' :: letter :: tail => scan rest (← p.short letter tail)
    | _ => scan rest (← p.plain arg)

def parse (args : List String) : Except Refusal CommandLine := scan args {}

/-- Settings with what the command line says on top. -/
def override (line : CommandLine) (s : Settings) : Settings :=
  { s with
    readinessMillis := line.readinessMillis?.getD s.readinessMillis
    ttlSecs? := line.ttlSecs? <|> s.ttlSecs? }

/-- The settings of a run, given the content of the file that the command line names. -/
def settings (line : CommandLine) (content? : Option Bytes) : Except Settings.FileFault Settings :=
  match line.config? with
  | none => .ok (line.override {})
  | some path => (Settings.load path content?).map line.override

end CommandLine
end Depot
