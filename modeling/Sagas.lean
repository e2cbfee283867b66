import Sagas.Binary64
import Sagas.Binary64.Decimal
import Sagas.Binary64.Shortest
import Sagas.Bus
import Sagas.Commit
import Sagas.Coordinator
import Sagas.Correlation.Rule
import Sagas.Correlation.RuleSet
import Sagas.Demo.Node
import Sagas.Demo.Record
import Sagas.Demo.Rig
import Sagas.Demo.Rule
import Sagas.Demo.Scenario
import Sagas.Demo.Script
import Sagas.Demo.Slot
import Sagas.Demo.Tally
import Sagas.Dictionary
import Sagas.Document
import Sagas.Error
import Sagas.Invocation
import Sagas.Journal
import Sagas.Json
import Sagas.Json.Parser
import Sagas.Json.Printer
import Sagas.Json.Reading
import Sagas.Lens
import Sagas.Lock.Key
import Sagas.Lock.Table
import Sagas.Lock.Wait
import Sagas.Message
import Sagas.Pool
import Sagas.Program
import Sagas.Proofs.Accepted
import Sagas.Proofs.Binding
import Sagas.Proofs.Cause
import Sagas.Proofs.Causes
import Sagas.Proofs.Change.Account
import Sagas.Proofs.Change.Interleaving
import Sagas.Proofs.Coercion.Coherence
import Sagas.Proofs.Coercion.Identifier
import Sagas.Proofs.Coercion.Numeral
import Sagas.Proofs.Committing
import Sagas.Proofs.Contract
import Sagas.Proofs.Copies
import Sagas.Proofs.Course
import Sagas.Proofs.Crew
import Sagas.Proofs.Data
import Sagas.Proofs.Declaration
import Sagas.Proofs.Dispatch
import Sagas.Proofs.Documents
import Sagas.Proofs.Failure
import Sagas.Proofs.Index.History
import Sagas.Proofs.Index.Message
import Sagas.Proofs.Isolation.Message
import Sagas.Proofs.Isolation.Partition
import Sagas.Proofs.Isolation.Plan
import Sagas.Proofs.Lock.Crew
import Sagas.Proofs.Lock.Deadlock
import Sagas.Proofs.Lock.Exclusion
import Sagas.Proofs.Lock.Keyring
import Sagas.Proofs.Lock.NoConflict
import Sagas.Proofs.Lock.Owner
import Sagas.Proofs.Lock.Pool
import Sagas.Proofs.Lock.Protocol
import Sagas.Proofs.Lock.Tenure
import Sagas.Proofs.Lock.Traffic
import Sagas.Proofs.Lock.Waiting
import Sagas.Proofs.Lookup
import Sagas.Proofs.Muted
import Sagas.Proofs.Ownership.Frame
import Sagas.Proofs.Ownership.Message
import Sagas.Proofs.Plan
import Sagas.Proofs.Pool.Accounts
import Sagas.Proofs.Pool.Shift
import Sagas.Proofs.Pool.Steps
import Sagas.Proofs.Processing
import Sagas.Proofs.Property.Building
import Sagas.Proofs.Property.Route
import Sagas.Proofs.Race.Convergence
import Sagas.Proofs.Race.Initiator
import Sagas.Proofs.Race.Interleaving
import Sagas.Proofs.Registration
import Sagas.Proofs.Retry.Exits
import Sagas.Proofs.Retry.Pace
import Sagas.Proofs.RoundTrip.Creation
import Sagas.Proofs.RoundTrip.Loading
import Sagas.Proofs.RoundTrip.Return
import Sagas.Proofs.RoundTrip.Surroundings
import Sagas.Proofs.RoundTrip.Values
import Sagas.Proofs.Rules
import Sagas.Proofs.Single
import Sagas.Proofs.Stages
import Sagas.Proofs.Startup
import Sagas.Proofs.Statistics.Balance
import Sagas.Proofs.Statistics.Phase
import Sagas.Proofs.Statistics.Prompt
import Sagas.Proofs.Store.Atomicity
import Sagas.Proofs.Store.Calls
import Sagas.Proofs.Store.Chain
import Sagas.Proofs.Store.Consistency
import Sagas.Proofs.Store.Instances
import Sagas.Proofs.Store.Order
import Sagas.Proofs.Store.Scan
import Sagas.Proofs.Store.Token
import Sagas.Proofs.Store.Writes
import Sagas.Proofs.Succession
import Sagas.Proofs.Tasks
import Sagas.Proofs.Unset
import Sagas.Proofs.World
import Sagas.Property
import Sagas.Registry
import Sagas.RuleCache
import Sagas.Saga
import Sagas.Scalar
import Sagas.Scalar.Codec
import Sagas.Scalar.Coerce
import Sagas.Settings
import Sagas.Sorted
import Sagas.Stats
import Sagas.Store
import Sagas.Text.Blank
import Sagas.Text.Numeral
import Sagas.Text.Quoted
import Sagas.Text.Reader
import Sagas.Text.Unprintable
import Sagas.Timestamp
import Sagas.Uuid
import Sagas.Uuid.Fault
import Sagas.Word
import Sagas.World
import Sagas.WritePlan
import Sagas.Proofs.Settings.Acceptance
