import Depot.CommandLine
import Depot.Memory.Store
import Depot.Session
import Depot.Uuid

/-!
The program: a provider over a store in memory, served on standard input and output.
-/

set_option autoImplicit false
set_option relaxedAutoImplicit false

namespace Depot.Main

open Memory (Collection Seed Store)

/-- A random word. -/
def draw : IO UInt64 := do
  let high ← IO.rand 0 0xffffffff
  let low ← IO.rand 0 0xffffffff
  return .ofNat (high <<< 32 + low)

def seed (stem : UInt64) (n : Nat) : Seed :=
  ⟨Uuid.word stem (2 * n), (Uuid.word stem (2 * n + 1)).toUInt32⟩

def ground (seeds tokens : UInt64) : Ground Store Collection :=
  ⟨Memory.backend { seeds := seed seeds }, Uuid.nth tokens⟩

def readSettings (line : CommandLine) : IO (Except Settings.FileFault Settings) := do
  match line.config? with
  | none => return line.settings none
  | some path =>
    let content? ← try some <$> IO.FS.readBinFile path catch _ => pure none
    return line.settings (content?.map (·.toList))

/-- The most that is read at a time. -/
def readLimit : Nat := 65536

def send (out : IO.FS.Stream) (responses : List Rpc.Response) : IO Unit := do
  for r in responses do
    out.write ⟨(Session.output r).toArray⟩
  out.flush

/-- Serves until the input ends, the framing breaks, nobody reads any more or the host asks for the
end. No more is read than the next frame surely needs, so that no response waits for input that may
never come. Work for the background runs as soon as the responses are out. -/
partial def loop (g : Ground Store Collection) (inp out : IO.FS.Stream) (clock : IO Nat)
    (before : Nat) (s : Session Store Collection) : IO Session.Reason := do
  let input ← inp.read (.ofNat (min s.wanted readLimit))
  let now ← clock
  let s := { s with provider := s.provider.advance before now }
  let (responses, s) :=
    if input.isEmpty then s.close g now else s.feed g now input.toList
  try send out responses catch e => return .writeError (toString e)
  if input.isEmpty || s.provider.stopped || s.ended?.isSome then return s.reason
  let provider := s.provider.runAll g (← clock) fun _ ↦ true
  loop g inp out clock now { s with provider }

def serve (settings : Settings) : IO Session.Reason := do
  let g := ground (← draw) (← draw)
  let start ← IO.monoNanosNow
  let clock := do return (← IO.monoNanosNow) - start
  loop g (← IO.getStdin) (← IO.getStdout) clock 0 { provider := .create settings Table.empty }

def usage : String :=
  "Usage: depot [-c PATH] [--readiness-timeout-ms N] [--result-ttl-secs N] [--log-level LEVEL]"

def run (args : List String) : IO UInt32 := do
  match CommandLine.parse args with
  | .error refusal =>
    (if refusal.exitCode = 0 then IO.println else IO.eprintln) usage
    return refusal.exitCode
  | .ok line =>
    match ← readSettings line with
    | .error fault =>
      IO.eprintln s!"Failed to load provider settings: {fault.message}"
      return 1
    | .ok settings =>
      let _ ← serve settings
      return 0

end Depot.Main

def main (args : List String) : IO UInt32 := Depot.Main.run args
