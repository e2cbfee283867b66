import Sagas.Demo.Script
import Sagas.World

/-!
# Surroundings that fail on demand

A world whose storage fails, or loses a row to another writer, at chosen calls, and whose locks
refuse or fail on chosen keys.
-/

namespace Sagas.Demo

inductive Operation where
  | find
  | insert
  | update
  | delete
  deriving DecidableEq, Repr

def Operation.ofName? : String → Option Operation
  | "find" => some .find
  | "insert" => some .insert
  | "update" => some .update
  | "delete" => some .delete
  | _ => none

/-- What happens to a call before, or instead of, its effect. -/
inductive Mishap where
  | fails (e : StorageError)
  /-- Another writer deletes the row first. -/
  | deletedFirst
  /-- Another writer updates the row first, with its own body and no values. -/
  | bumpedFirst
  deriving DecidableEq

/-- A document whose text stops after its first character. -/
def brokenDocument : StorageError :=
  .serialization (.unclosedObject 1 1)

def Mishap.ofName? : String → Option Mishap
  | "conflict" => some (.fails (.conflict "scripted"))
  | "backend" => some (.fails (.backend "scripted"))
  | "serialization" => some (.fails brokenDocument)
  | "delete_first" => some .deletedFirst
  | "bump_first" => some .bumpedFirst
  | _ => none

/-- A mishap of the `nth` call of an operation, or of each. -/
structure Fault where
  operation : Operation
  nth : Option Nat
  mishap : Mishap

def Fault.ofJson? (j : Json) : Option Fault := do
  let operation ← Operation.ofName? (← (← j.field? "on").str?)
  let nth ← ((j.field? "nth").getD .null).optional? Json.int?
  let mishap ← Mishap.ofName? (← (← j.field? "error").str?)
  return ⟨operation, nth.map Int.toNat, mishap⟩

structure Rig where
  world : World Script
  faults : List Fault
  /-- How often each operation was called. -/
  calls : Dictionary Operation Nat
  refused : List String
  failingAcquire : List String
  failingRelease : List String

namespace Rig

def start (settings : Settings) : Rig :=
  ⟨.start settings, [], .empty, [], [], []⟩

/-- Counts a call and finds its mishap, if it has one. -/
def nextMishap (r : Rig) (operation : Operation) : Option Mishap × Rig :=
  let n := (r.calls.get? operation).getD 0 + 1
  let fault := r.faults.find? fun fault =>
    fault.operation = operation && fault.nth.all (· = n)
  (fault.map (·.mishap), { r with calls := r.calls.insert operation n })

/-- What another writer does to the row of a document. -/
def strike (r : Rig) (document : Document) (mishap : Mishap) : Rig :=
  match r.world.store.row? document.dataType document.id with
  | none => r
  | some row =>
    let store :=
      match mishap with
      | .deletedFirst => (r.world.store.delete row.document).2
      | .bumpedFirst => (r.world.store.update row.document []).2
      | .fails _ => r.world.store
    { r with world := { r.world with store } }

/-- Passes a request on to the world. -/
def pass : Program.Answering Script Rig := fun request r =>
  let (reply, world) := World.perform request r.world
  (reply, { r with world })

/-- A write after its mishap, or the failure that replaces it. -/
def write (r : Rig) (operation : Operation) (document : Document) :
    Except StorageError Unit × Rig :=
  match r.nextMishap operation with
  | (none, r) => (.ok (), r)
  | (some (.fails e), r) => (.error e, r)
  | (some mishap, r) => (.ok (), r.strike document mishap)

def perform : Program.Answering Script Rig
  | .find dataType property value, r =>
    match r.nextMishap .find with
    | (some (.fails e), r) => (.error e, r)
    | (_, r) => pass (.find dataType property value) r
  | .insert document values, r =>
    match r.write .insert document with
    | (.error e, r) => (.error e, r)
    | (.ok (), r) => pass (.insert document values) r
  | .update document values, r =>
    match r.write .update document with
    | (.error e, r) => (.error e, r)
    | (.ok (), r) => pass (.update document values) r
  | .delete document, r =>
    match r.write .delete document with
    | (.error e, r) => (.error e, r)
    | (.ok (), r) => pass (.delete document) r
  | .acquire key token, r =>
    if r.failingAcquire.contains key then (.error (.backend "scripted"), r)
    else if r.refused.contains key then (.ok false, r)
    else pass (.acquire key token) r
  | .release key, r =>
    if r.failingRelease.contains key then (.error (.backend "scripted"), r)
    else pass (.release key) r
  | request, r => pass request r

/-- Enters calls and answers into the journal, mishaps included. -/
def answer : Program.Answering Script Rig := fun request r =>
  let (reply, r) := perform request r
  (reply, { r with world := World.enter request reply r.world })

/-- Runs a program in the rig; `none` if its task dies. -/
def run (r : Rig) (p : Program Script α) : Option α × Rig :=
  p.run answer r

end Rig

end Sagas.Demo
