import Sagas.Invocation

/-!
# The writes of one message

After the handlers of a message have run, the invocations that hold an instance are grouped by the
identity they hold, in the order of the first of each group, and every group decides what is
written: a completed instance is deleted, or discarded if it is new; otherwise every copy that its
handler did not mark as unchanged is written. Inserts come before updates and updates before
deletes.
-/

namespace Sagas

/-- The rules that apply to one invocation of the message at hand. -/
structure Binding (B : Type) where
  /-- The place of the invocation. -/
  index : Nat
  /-- The rules for the message, used for lookups and lock keys. -/
  rules : List (Rule B)
  /-- One rule for every path of the saga, for the index of storage. -/
  indexed : List (Rule B)

/-- The copies of one instance, in the order of their handlers. -/
structure Touched (D B : Type) where
  id : Uuid
  copies : List (Nat × Invocation D B)
  /-- One rule for every path that a saga bound to the instance declares. -/
  rules : List (Rule B)

/-- What becomes of a touched instance. -/
inductive Fate where
  /-- It is new and already complete. -/
  | discarded
  | deleted (index : Nat)
  /-- No copy is to be written. -/
  | notWritten
  | written (inserts updates : List Nat)
  deriving DecidableEq

namespace Touched

variable {D B : Type}

/-- The invocations that hold an instance, with its identity and their rules. -/
def holders (invocations : List (Invocation D B)) :
    List (Binding B) → List (Uuid × (Nat × Invocation D B) × List (Rule B))
  | [] => []
  | b :: rest =>
    match invocations[b.index]? with
    | none => holders invocations rest
    | some i =>
      if i.skipped then holders invocations rest
      else
        match i.id? with
        | none => holders invocations rest
        | some id => (id, (b.index, i), b.indexed) :: holders invocations rest

/-- One group for every identity, in the order of their first holders. -/
def groups (invocations : List (Invocation D B)) (bindings : List (Binding B)) :
    List (Touched D B) :=
  let all := holders invocations bindings
  (all.map (·.1)).eraseDups.map fun id =>
    let own := all.filter (·.1 = id)
    ⟨id, own.map (·.2.1), RuleSet.distinctPaths [] (own.flatMap (·.2.2))⟩

/-- The first copy that is complete decides; else each changed copy is written. -/
def fate (t : Touched D B) : Fate :=
  match t.copies.find? (·.2.isCompleted) with
  | some (index, i) => if i.isNew then .discarded else .deleted index
  | none =>
    let writers := t.copies.filter fun copy => !copy.2.isUnchanged
    if writers.isEmpty then .notWritten
    else
      let (inserts, updates) := writers.partition (·.2.isNew)
      .written (inserts.map (·.1)) (updates.map (·.1))

/-- Counts and logs what becomes of the instance. -/
def announce (t : Touched D B) : Program B Unit :=
  match t.fate with
  | .discarded => Program.log (.discarded t.id)
  | .deleted _ => return ()
  | .notWritten => do
    Program.count .unchanged
    Program.log (.notWritten t.id)
  | .written inserts updates =>
    let writers := inserts.length + updates.length
    if 1 < writers then Program.log (.severalWriters t.id writers) else return ()

end Touched

/-- The invocations to write, each with the rules whose values are indexed, and to delete. -/
structure WritePlan (B : Type) where
  inserts : List (Nat × List (Rule B))
  updates : List (Nat × List (Rule B))
  deletes : List Nat

namespace WritePlan

variable {D B : Type}

def empty : WritePlan B := ⟨[], [], []⟩

def add (p : WritePlan B) (t : Touched D B) : WritePlan B :=
  match t.fate with
  | .discarded | .notWritten => p
  | .deleted index => { p with deletes := p.deletes ++ [index] }
  | .written inserts updates =>
    { p with
      inserts := p.inserts ++ inserts.map (·, t.rules)
      updates := p.updates ++ updates.map (·, t.rules) }

def ofGroups (groups : List (Touched D B)) : WritePlan B :=
  groups.foldl add empty

end WritePlan

end Sagas
