import Depot.Outcome
import Depot.Provider.Request
import Depot.Router
import Depot.Rpc.Engine

/-!
The provider. It serves one request after another: first the caller is identified, then the
parameters are read, then the caller's link is looked up, and only then is anything done. Work for
the background is put in a queue with the connection that was found for it.
-/

set_option autoImplicit false
set_option relaxedAutoImplicit false

namespace Depot

/-- What a provider runs on: a store, and tokens that make handles different from one another. -/
structure Ground (σ κ : Type) where
  backend : Backend σ κ
  tokens : Nat → String

/-- Work in the background, with the connection of the caller who asked for it. -/
structure Job (κ : Type) where
  handle : String
  connection : Connection κ
  work : Background

structure Provider (σ κ : Type) where
  settings : Settings
  store : σ
  router : Router κ
  readings : Deferred (Except DocumentError ReadResult)
  mutations : Deferred (Except DocumentError Receipt)
  /-- Work that was asked for and has not run yet. -/
  jobs : List (Job κ)
  /-- How many handles were issued. -/
  issued : Nat
  /-- Whether the host asked for the end. -/
  stopped : Bool

namespace Provider

variable {σ κ : Type}

def create (settings : Settings) (store : σ) : Provider σ κ :=
  ⟨settings, store, .empty, .empty, .empty, [], 0, false⟩

def healthy : String := "provider healthy"

def shutdownAck : String := "ack"

def identify (p : Provider σ κ) (headers : Fields String) : Except ProviderError Identity :=
  Identity.ofHeaders p.settings headers

/-- The connection of a caller. -/
def resolve (p : Provider σ κ) (who : Identity) : Except ProviderError (Connection κ) :=
  p.router.resolve p.settings.defaultLink who

/-! ## Serving -/

/-- What is answered to an operation that came back, or did not. -/
def reply {ε α : Type} (ofAnswer : α → Json) (ofError : ε → Json) :
    Option (Except ε α) → Except ProviderError Json
  | some outcome => .ok (Outcome.toJson ofAnswer ofError outcome)
  | none => .error .crashed

def linkPut (g : Ground σ κ) (d : Link.Definition) (p : Provider σ κ) :
    Except ProviderError Json × Provider σ κ :=
  match p.router.attach g.backend d p.store with
  | .error e => (.error e, p)
  | .ok (router, store) => (.ok .null, { p with router, store })

def document (g : Ground σ κ) (now : Nat) (connection : Connection κ) (op : Document.Operation)
    (p : Provider σ κ) : Except ProviderError Json × Provider σ κ :=
  let (r, store) := op.run g.backend connection now p.store
  (reply op.answerJson DocumentError.toJson r, { p with store })

def keyValue (g : Ground σ κ) (now : Nat) (connection : Connection κ) (op : KeyValue.Operation)
    (p : Provider σ κ) : Except ProviderError Json × Provider σ κ :=
  let (r, store) := KeyValue.Operation.run g.backend connection now p.store op
  (reply op.answerJson StoreError.toJson r, { p with store })

/-- Registers work for the background and answers its handle; the store is not touched. -/
def background (g : Ground σ κ) (connection : Connection κ) (work : Background)
    (p : Provider σ κ) : Except ProviderError Json × Provider σ κ :=
  let handle := Deferred.handle work.label (g.tokens p.issued)
  let job : Job κ := ⟨handle, connection, work⟩
  let p := { p with issued := p.issued + 1, jobs := p.jobs ++ [job] }
  (.ok (.text handle),
    match work with
    | .read .. => { p with readings := p.readings.submit handle }
    | .write _ => { p with mutations := p.mutations.submit handle })

def isReady (p : Provider σ κ) : ResultKind → String → Except HandleFault Bool
  | .reading, handle => p.readings.isReady handle
  | .mutation, handle => p.mutations.isReady handle

/-- Takes a result out of the registry of its kind. -/
def fetch (p : Provider σ κ) : ResultKind → String → Except HandleFault Json × Provider σ κ
  | .reading, handle =>
    let (r, readings) := p.readings.fetch handle
    (r.map (Outcome.toJson ReadResult.toJson DocumentError.toJson), { p with readings })
  | .mutation, handle =>
    let (r, mutations) := p.mutations.fetch handle
    (r.map (Outcome.toJson Receipt.toJson DocumentError.toJson), { p with mutations })

/-- Ends the provider: no link is left, and the host is told. -/
def shutdown (p : Provider σ κ) : Provider σ κ := { p with router := .clear, stopped := true }

/-- Serves a request of the host. -/
def serveHost (g : Ground σ κ) (p : Provider σ κ) :
    HostRequest → Except ProviderError Json × Provider σ κ
  | .linkPut d => p.linkPut g d
  | .linkDel source link => (.ok .null, { p with router := p.router.detach ⟨source, link⟩ })
  | .health => (.ok (.text healthy), p)
  | .shutdown => (.ok (.text shutdownAck), p.shutdown)
  | .ready kind handle =>
    ((p.isReady kind handle).map Json.bool |>.mapError ProviderError.ofHandleFault, p)
  | .fetch kind handle =>
    let (r, p) := p.fetch kind handle
    (r.mapError ProviderError.ofHandleFault, p)

/-- Serves a request of a caller over the connection that was found. -/
def serveCaller (g : Ground σ κ) (now : Nat) (connection : Connection κ) (p : Provider σ κ) :
    CallerRequest → Except ProviderError Json × Provider σ κ
  | .document op => p.document g now connection op
  | .background work => p.background g connection work
  | .keyValue op => p.keyValue g now connection op

/-- The parameters of a method; absent ones are null. -/
def readParams {α : Type} (params : Wire.Decoder α) (params? : Option Json) :
    Except ProviderError α :=
  (params (params?.getD .null)).mapError ProviderError.ofMismatch

/-- Serves a method of the host. -/
def hostMethod (g : Ground σ κ) (params : Wire.Decoder HostRequest) (params? : Option Json)
    (p : Provider σ κ) : Except ProviderError Json × Provider σ κ :=
  match readParams params params? with
  | .error e => (.error e, p)
  | .ok r => p.serveHost g r

/-- Serves a method of callers: identity, parameters and link come before any effect. -/
def callerMethod (g : Ground σ κ) (now : Nat) (params : Wire.Decoder CallerRequest)
    (params? : Option Json) (headers : Fields String) (p : Provider σ κ) :
    Except ProviderError Json × Provider σ κ :=
  match p.identify headers with
  | .error e => (.error e, p)
  | .ok who =>
    match readParams params params? with
    | .error e => (.error e, p)
    | .ok r =>
      match p.resolve who with
      | .error e => (.error e, p)
      | .ok connection => p.serveCaller g now connection r

/-- Serves a method, by its name. -/
def serve (g : Ground σ κ) (now : Nat) (method : String) (params? : Option Json)
    (headers : Fields String) (p : Provider σ κ) : Except ProviderError Json × Provider σ κ :=
  match Method.ofName? method with
  | none => (.error (.methodNotFound method), p)
  | some (.host params) => p.hostMethod g params params?
  | some (.caller params) => p.callerMethod g now params params? headers

def respond (id : UInt64) : Except ProviderError Json → Rpc.Response
  | .ok result => .success id result
  | .error e => .failure id e.toRpc

/-- How a provider answers messages. Notifications are passed over. -/
def handler (g : Ground σ κ) (now : Nat) : Rpc.Handler (Provider σ κ) where
  onRequest r p :=
    let (answer, p) := p.serve g now r.method r.params? r.headers
    (respond r.id answer, p)
  onNotification _ p := p

/-! ## Background -/

/-- Carries out one piece of work and puts down its result. -/
def runJob (g : Ground σ κ) (now : Nat) (job : Job κ) (p : Provider σ κ) : Provider σ κ :=
  match job.work with
  | .read id o =>
    let (r, store) := (Document.Operation.get id o).run g.backend job.connection now p.store
    { p with store, readings := p.readings.settle job.handle r now }
  | .write (.insert id d o) =>
    let (r, store) := (Document.Operation.insert id d o).run g.backend job.connection now p.store
    { p with store, mutations := p.mutations.settle job.handle r now }
  | .write (.upsert id d o) =>
    let (r, store) := (Document.Operation.upsert id d o).run g.backend job.connection now p.store
    { p with store, mutations := p.mutations.settle job.handle r now }
  | .write (.replace id d o) =>
    let (r, store) := (Document.Operation.replace id d o).run g.backend job.connection now p.store
    { p with store, mutations := p.mutations.settle job.handle r now }
  | .write (.remove id o) =>
    let (r, store) := (Document.Operation.remove id o).run g.backend job.connection now p.store
    { p with store, mutations := p.mutations.settle job.handle r now }

/-- Carries out the first piece of queued work that a condition lets through. -/
def runNext (g : Ground σ κ) (now : Nat) (mayRun : Job κ → Bool) (p : Provider σ κ) :
    Provider σ κ :=
  match p.jobs.find? mayRun with
  | none => p
  | some job => runJob g now job { p with jobs := p.jobs.eraseP mayRun }

/-- Carries out all queued work that a condition lets through, one piece after another. -/
def runAll (g : Ground σ κ) (now : Nat) (mayRun : Job κ → Bool) (p : Provider σ κ) :
    Provider σ κ :=
  Nat.repeat (runNext g now mayRun) (p.jobs.countP mayRun) p

/-- Drops results that nobody fetched in time. -/
def sweep (ttl now : Nat) (p : Provider σ κ) : Provider σ κ :=
  { p with readings := p.readings.evict ttl now, mutations := p.mutations.evict ttl now }

/-- What time does to a provider: at every multiple of the interval results are swept, until the
end. The last sweep takes all that the ones before it would have taken. -/
def advance (before now : Nat) (p : Provider σ κ) : Provider σ κ :=
  match p.settings.ttl? with
  | none => p
  | some ttl =>
    let interval := p.settings.sweepSecs * Settings.nanosPerSec
    let last := now / interval * interval
    if !p.stopped && before < last then p.sweep ttl last else p

end Provider
end Depot
