import Sagas.Lock.Table
import Sagas.RuleCache
import Sagas.Settings
import Sagas.Store

/-!
# The surroundings in memory

A world answers the requests of programs from an in-memory store, an in-memory lock table, a rule
cache and a supply of identifiers, counts statistics, and keeps a journal of what passes.
-/

namespace Sagas

structure World (B : Type) where
  store : Store
  locks : Lock.Table
  /-- How long messages wait for their keys, in milliseconds. -/
  lockTimeout : Nat
  lockInterval : Nat
  cache : RuleCache B
  /-- The identifiers for new instances, in turn. -/
  supply : Nat → Uuid
  /-- How many of them are used up. -/
  drawn : Nat
  sequences : Dictionary String Nat
  stats : Stats
  /-- Whether the worker pool is shut down. -/
  closed : Bool
  /-- The latest entry first. -/
  journal : List Entry

namespace World

variable {B : Type}

/-- The simulated time, in milliseconds since the start of 1970, from which a world draws. -/
def birth : Nat := 1750000000000

/-- An empty world that waits for locks as the settings say. -/
def start (settings : Settings) : World B :=
  ⟨.empty, .empty, settings.lockTimeout.ceilMillis, settings.lockPollInterval.ceilMillis, .empty,
    Uuid.timeOrdered birth, 1, .empty, .zero, false, []⟩

def record (w : World B) (entry : Entry) : World B :=
  { w with journal := entry :: w.journal }

/-- The entries since the journal was last cleared, the earliest first. -/
def entries (w : World B) : List Entry :=
  w.journal.reverse

def clearJournal (w : World B) : World B :=
  { w with journal := [] }

def isCancelled (w : World B) : CancelToken → Bool
  | .fixed fired => fired
  | .pool => w.closed

/-- Stops the worker pool for good. -/
def shutDown (w : World B) : World B :=
  if w.closed then w else { (w.record (.log .shuttingDown)) with closed := true }

def draw (w : World B) (sequence : String) : Nat × World B :=
  let n := (w.sequences.get? sequence).getD 0
  (n, { w with sequences := w.sequences.insert sequence (n + 1) })

def rules (w : World B) (saga : SagaType B) : Except ConfigError (RuleSet B) × World B :=
  let w := if w.cache.builds saga then w.record (.log (.buildingRules saga.name)) else w
  let (answer, cache) := w.cache.get saga
  (answer, { w with cache })

def acquire (w : World B) (key : String) (token : CancelToken) : Bool × World B :=
  let cancellation : Lock.Cancellation := if w.isCancelled token then .already else .never
  let (taken, locks) := w.locks.acquire .attempt w.lockTimeout w.lockInterval cancellation key
  (taken, { w with locks })

/-- What a request does and answers, without its journal entry. A world processes no messages; what
it runs has them in place. -/
def perform : Program.Answering B (World B)
  | .find dataType property value, w => (.ok (w.store.find dataType property value), w)
  | .insert document values, w =>
    let (answer, store) := w.store.insert document values
    (answer, { w with store })
  | .update document values, w =>
    let (answer, store) := w.store.update document values
    (answer, { w with store })
  | .delete document, w =>
    let (answer, store) := w.store.delete document
    (answer, { w with store })
  | .acquire key token, w =>
    let (taken, w) := w.acquire key token
    (.ok taken, w)
  | .release key, w =>
    let (held, locks) := w.locks.release key
    (.ok held, { w with locks })
  | .rules saga, w => w.rules saga
  | .freshId, w => (w.supply w.drawn, { w with drawn := w.drawn + 1 })
  | .draw sequence, w => w.draw sequence
  | .count counter, w => ((), { w with stats := w.stats.record counter })
  | .note entry, w => ((), w.record entry)
  | .shutdown, w => ((), w.shutDown)
  | .send _, w => (.error .shutdown, w)

/-- The journal entry of a call that has returned. -/
def entryOf? : (request : Request B) → Reply request → Option Entry
  | .find dataType property value, answer =>
    some (.find dataType property value (answer.map (Option.map Document.metadata)))
  | .insert document values, answer => some (.insert document values (answer.map (·.revision)))
  | .update document values, answer => some (.update document values (answer.map (·.revision)))
  | .delete document, answer => some (.delete document answer)
  | .acquire key _, answer => some (.acquire key answer)
  | .release key, answer => some (.release key answer)
  | _, _ => none

/-- Enters the call and its answer into the journal. -/
def enter (request : Request B) (reply : Reply request) (w : World B) : World B :=
  match entryOf? request reply with
  | some entry => w.record entry
  | none => w

def answer : Program.Answering B (World B) := fun request w =>
  let (reply, w) := perform request w
  (reply, enter request reply w)

end World

end Sagas
