import Sagas.Invocation

/-!
# Committing an instance

Every write of an instance carries the revision that it was read at, so a write loses if another
one came first. A saga that resolves conflicts then gets the stored state, merges it, adopts its
identity and revision and writes again, as an update, until the attempts are used up:

* the write succeeds: done;
* it conflicts and the saga does not resolve conflicts: `concurrency`;
* it conflicts at the last attempt: `conflictRetriesExhausted`;
* it conflicts and nothing is stored any more: `sagaVanished`;
* otherwise the state that won is merged and the next round is an update.

A new instance may lose to one with another identity that holds one of its correlation values.
That one is found through these values, so that concurrent initiators end with one instance.
-/

namespace Sagas.Commit

variable {D B : Type}

inductive Mode where
  | insert
  | update
  deriving DecidableEq, Repr

def Mode.counter : Mode → Counter
  | .insert => .inserted
  | .update => .updated

def write (mode : Mode) (document : Document) (values : List PropertyValue) :
    Program B (Except StorageError Document) :=
  match mode with
  | .insert => Program.call (.insert document values)
  | .update => Program.call (.update document values)

/-! ## The stored state that won -/

/-- Whether storage looks this value up in its index. -/
def isIndexed (p : PropertyValue) : Bool :=
  p.name ≠ identityPath && !p.value.isUnset

/-- The first instance that holds one of the values. -/
def findFirst (dataType : String) :
    List PropertyValue → Program B (Except StorageError (Option Document))
  | [] => return .ok none
  | p :: rest => do
    match ← Program.call (.find dataType p.name p.value) with
    | .ok none => findFirst dataType rest
    | .ok (some winner) => return .ok (some winner)
    | .error e => return .error e

/-- The stored state of the instance; for an insert, else that of an instance in its way. -/
def fetchFresh (document : Document) (values : List PropertyValue) (mode : Mode) :
    Program B (Except StorageError (Option Document)) := do
  match ← Program.call (.find document.dataType identityPath (.uuid document.id)) with
  | .error e => return .error e
  | .ok (some fresh) => return .ok (some fresh)
  | .ok none =>
    match mode with
    | .update => return .ok none
    | .insert => findFirst document.dataType (values.filter isIndexed)

/-! ## Rounds -/

/-- The invocation after a commit, with what the commit ended in. -/
abbrev Outcome (D B : Type) := Invocation D B × Except SagaError Unit

/-- Merges the state that won and goes on with `again`. -/
def resolveConflict (send : Send B) (attempt : Nat) (mode : Mode) (document : Document)
    (values : List PropertyValue) (again : Invocation D B → Program B (Outcome D B))
    (i : Invocation D B) : Program B (Outcome D B) := do
  match ← fetchFresh document values mode with
  | .error e => return (i, .error (.storage e))
  | .ok none =>
    Program.log (.vanished i.name document.id)
    return (i, .error (.sagaVanished i.name document.id))
  | .ok (some fresh) =>
    let (merged, answer) ← i.resolve send fresh
    match answer with
    | .error e => return (merged, .error (.handler e))
    | .ok () =>
      Program.count .conflictResolved
      Program.log (.conflictResolved i.name fresh.id fresh.revision attempt)
      again merged

/-- What follows a lost write; without `again` it was the last attempt. -/
def afterConflict (send : Send B) (attempt : Nat) (mode : Mode) (document : Document)
    (values : List PropertyValue) (reason : String)
    (again : Option (Invocation D B → Program B (Outcome D B))) (i : Invocation D B) :
    Program B (Outcome D B) := do
  Program.count .conflict
  Program.log (.writeConflict i.name document.id document.revision attempt reason)
  if i.resolvesConflicts then
    match again with
    | none =>
      Program.log (.retriesExhausted i.name document.id attempt)
      return (i, .error (.conflictRetriesExhausted i.name document.id attempt reason))
    | some again => resolveConflict send attempt mode document values again i
  else return (i, .error (.concurrency i.name document.id reason))

/-- One write with what follows it. -/
def round (send : Send B) (rules : List (Rule B)) (attempt : Nat) (mode : Mode)
    (again : Option (Invocation D B → Program B (Outcome D B))) (i : Invocation D B) :
    Program B (Outcome D B) :=
  match i.document?, i.values rules with
  | some document, .ok values => do
    match ← write mode document values with
    | .ok stored =>
      Program.count mode.counter
      return (i.adopt stored.metadata, .ok ())
    | .error (.conflict reason) => afterConflict send attempt mode document values reason again i
    | .error e => return (i, .error (.storage e))
  | _, _ => return (i, .error (.handler i.noSagaData))

/-- Rounds from number `attempt` on, of which `more` may follow the first. -/
def rounds (send : Send B) (rules : List (Rule B)) :
    (more attempt : Nat) → Mode → Invocation D B → Program B (Outcome D B)
  | 0, attempt, mode, i => round send rules attempt mode none i
  | more + 1, attempt, mode, i =>
    round send rules attempt mode (some (rounds send rules more (attempt + 1) .update)) i

/-- Writes the bound instance in at most `maxAttempts` rounds, and in one at least. -/
def persist (send : Send B) (maxAttempts : Nat) (rules : List (Rule B)) (mode : Mode)
    (i : Invocation D B) : Program B (Outcome D B) :=
  rounds send rules (maxAttempts - 1) 1 mode i

/-- Deletes the bound instance; a conflict is not tried again. -/
def delete (i : Invocation D B) : Program B (Except SagaError Unit) :=
  match i.document? with
  | none => return .error (.handler i.noSagaData)
  | some document => do
    match ← Program.call (.delete document) with
    | .ok () =>
      Program.count .deleted
      return .ok ()
    | .error (.conflict reason) =>
      Program.count .conflict
      Program.log (.deleteConflict i.name document.id reason)
      return .error (.concurrency i.name document.id reason)
    | .error e => return .error (.storage e)

end Sagas.Commit
