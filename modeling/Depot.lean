import Depot.Backend.Rehearsal
import Depot.Main
import Depot.Proofs.Memory.Trace
import Depot.Proofs.Memory.Version
import Depot.Proofs.Memory.Hub
import Depot.Proofs.Memory.Exclusion
import Depot.Proofs.Memory.Address
import Depot.Proofs.Memory.LastWrite
import Depot.Proofs.Memory.Untouched
import Depot.Proofs.Deferred.Office
import Depot.Proofs.Provider.Methods
import Depot.Proofs.Provider.Failure
import Depot.Proofs.Deferred.Delivery
import Depot.Proofs.Deferred.Eviction
import Depot.Proofs.Router.History
import Depot.Proofs.Router.Reach
import Depot.Proofs.Provider.Gate
import Depot.Proofs.Provider.Effect
import Depot.Proofs.Provider.Background
import Depot.Proofs.Memory.Related
import Depot.Proofs.Memory.Isolation
import Depot.Proofs.Memory.Expiry
import Depot.Proofs.Memory.Counter
import Depot.Proofs.Memory.Unavailable
import Depot.Proofs.Rpc.Framing
import Depot.Proofs.Json.Shape
import Depot.Proofs.Json.Number
import Depot.Proofs.Json.RoundTrip
import Depot.Proofs.Rpc.Codec
import Depot.Proofs.Rpc.Matching
import Depot.Proofs.Rpc.Header
import Depot.Proofs.Rpc.Conservation
import Depot.Proofs.Rpc.ErrorMember
import Depot.Proofs.Provider.Service
import Depot.Proofs.Provider.Alike
import Depot.Proofs.Provider.Lockstep
import Depot.Proofs.Provider.Verdict
import Depot.Proofs.Provider.Discretion
import Depot.Proofs.Provider.Answered
import Depot.Proofs.Memory.Projection
import Depot.Proofs.Memory.Numbering
import Depot.Proofs.Provider.Grounded
import Depot.Proofs.Provider.Views
import Depot.Proofs.Provider.Calls
import Depot.Proofs.Provider.Counters
import Depot.Proofs.Provider.Unavailable
import Depot.Proofs.Link.Redacted
import Depot.Proofs.Provider.Secrecy
import Depot.Proofs.Rpc.Grammar
import Depot.Proofs.Rpc.Stream
import Depot.Proofs.Rpc.Endings
import Depot.Proofs.Memory.Looks
import Depot.Proofs.Provider.Lifetimes
import Depot.Proofs.Wire.Record
import Depot.Proofs.Wire.Faithful
import Depot.Proofs.Provider.Session
