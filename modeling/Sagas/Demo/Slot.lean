import Sagas.Demo.Rule
import Sagas.Saga

/-!
# Demonstration sagas

The message types of the demonstration and its sagas, each known by the slot it fills. Two slots
share a saga name over different data types, and one claims to resolve conflicts without saying
how.
-/

namespace Sagas.Demo

/-! ## Messages -/

/-- The message types with the families that each counts as. -/
def messageTypes : List (String × List String) :=
  [("demo.start", []), ("demo.step", []), ("demo.shipped", ["demo.event"]),
    ("demo.lost", ["demo.event", "demo.audit"]), ("demo.finish", []), ("demo.orphan", [])]

/-- A message of one of the types. -/
def message? (type : String) (body : Script) : Option (Message Script) :=
  (Script.lookup type messageTypes).map fun supertypes => ⟨type, supertypes, body⟩

/-! ## Sagas -/

inductive Slot where
  | main
  | merge
  | passive
  | passiveMerge
  | family
  | beta
  | impostor
  | lazyMerge
  deriving DecidableEq, Repr

namespace Slot

def all : List Slot :=
  [.main, .merge, .passive, .passiveMerge, .family, .beta, .impostor, .lazyMerge]

def name : Slot → String
  | .main => "main"
  | .merge => "merge"
  | .passive => "passive"
  | .passiveMerge => "passive_merge"
  | .family => "family"
  | .beta => "beta"
  | .impostor => "impostor"
  | .lazyMerge => "lazy_merge"

def ofName? (name : String) : Option Slot :=
  all.find? (·.name = name)

def sagaName : Slot → String
  | .impostor => "saga.main"
  | slot => "saga." ++ slot.name

def dataType : Slot → DataType Record
  | .family | .beta | .impostor => Demo.beta
  | _ => Demo.alpha

def initiators : Slot → List String
  | .main => ["demo.start", "demo.finish"]
  | .merge => ["demo.start", "demo.step"]
  | .passive | .passiveMerge => []
  | .family => ["demo.event"]
  | .beta => ["demo.start", "demo.lost"]
  | .impostor | .lazyMerge => ["demo.start"]

def resolvesConflicts : Slot → Bool
  | .merge | .passiveMerge | .family | .lazyMerge => true
  | _ => false

/-- Notes that the saga was entered and runs its script. -/
def handle (slot : Slot) (m : Message Script) (c : Context) (inst : Instance Record) :
    Act Script (Verdict Record) := do
  let scene : Scene := ⟨slot.name, slot.dataType.table, c.header?, none⟩
  Act.note (.handling slot.name inst.isNew inst.data.metadata.id inst.data.metadata.revision)
    (.done ())
  let (p, outcome) ← scene.run (m.body.handlingOf slot.name) ⟨inst.data, false, false⟩
  return ⟨p.data, p.completes, p.keeps, outcome⟩

/-- Runs the next unused script for conflicts; no headers are at hand there. -/
def resolve (slot : Slot) (m : Message Script) (own fresh : Record) :
    Act Script (Record × Except String Unit) := do
  let turn ← Act.draw (m.body.sequence slot.name) .done
  let scene : Scene := ⟨slot.name, slot.dataType.table, fun _ => none, some fresh⟩
  let (p, outcome) ← scene.run (m.body.resolvingOf slot.name turn) ⟨own, false, false⟩
  return (p.data, outcome)

/-- The saga of a slot, with the rules that it declares. -/
def saga (slot : Slot) (rules : List (RuleDraft Script)) : Saga Record Script where
  name := slot.sagaName
  dataType := slot.dataType
  initiators := slot.initiators
  resolvesConflicts := slot.resolvesConflicts
  rules := rules
  handle := slot.handle
  resolve :=
    match slot with
    | .lazyMerge => Saga.refuseToResolve slot.sagaName
    | _ => slot.resolve

end Slot

/-- A handler without an instance, which notes that it ran and runs its script. -/
def plainHandler (name : String) : Handler Record Script :=
  .plain name fun m c => .note (.plain name c.id c.headers) (runPlain (m.body.plainOf name))

end Sagas.Demo
