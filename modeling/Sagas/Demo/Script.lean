import Sagas.Demo.Record
import Sagas.Program

/-!
# Scripted messages

A demonstration message carries named values and scripts: what each saga does when it handles the
message, and what it does each time it has to resolve a conflict. Handlers run the actions of a
script in order and stop at the first that fails.
-/

namespace Sagas.Demo

/-- One action of a script; `δ` is what it sends. -/
inductive Action (δ : Type) where
  | complete
  | unchanged
  | set (path : String) (value : Scalar)
  | add (n : Word .w64)
  | log (line : String)
  | tag (tag : String)
  /-- Logs the value of a header. -/
  | logHeader (name : String)
  | fail (reason : String)
  | panic
  | send (delivery : δ)
  | shutdown
  /- only when a conflict is resolved -/
  | takeFresh
  | unionTags
  | addTotal
  | maxTotal
  | prependLog

/-- The body of a message. -/
inductive Script where
  | mk (fields : List (String × Scalar))
      /- the sequence from which resolutions are drawn -/
      (scope : Nat)
      (handling : List (String × List (Action (Delivery Script))))
      (resolving : List (String × List (List (Action (Delivery Script)))))

/-- A list of actions that send scripted messages. -/
abbrev Actions := List (Action (Delivery Script))

namespace Script

def fields : Script → List (String × Scalar)
  | .mk fields _ _ _ => fields

def scope : Script → Nat
  | .mk _ scope _ _ => scope

def handling : Script → List (String × Actions)
  | .mk _ _ handling _ => handling

def resolving : Script → List (String × List Actions)
  | .mk _ _ _ resolving => resolving

def empty : Script := .mk [] 0 [] []

instance : Inhabited Script := ⟨empty⟩

def lookup (name : String) (entries : List (String × α)) : Option α :=
  (entries.find? (·.1 = name)).map (·.2)

def field? (s : Script) (name : String) : Option Scalar :=
  lookup name s.fields

/-- What a saga does: its own script, else the one for all sagas. -/
def handlingOf (s : Script) (slot : String) : Actions :=
  (lookup slot s.handling <|> lookup "*" s.handling).getD []

/-- What a plain handler does. -/
def plainOf (s : Script) (name : String) : Actions :=
  (lookup name s.handling).getD []

/-- What a saga does when it resolves a conflict for the `turn`-th time. -/
def resolvingOf (s : Script) (slot : String) (turn : Nat) : Actions :=
  ((lookup slot s.resolving).getD [])[turn]?.getD []

/-- The sequence that counts the resolutions of one saga. -/
def sequence (s : Script) (slot : String) : String :=
  "resolution " ++ toString s.scope ++ " " ++ slot

/-- The same script with another scope and other resolutions. -/
def withResolving (s : Script) (scope : Nat) (resolving : List (String × List Actions)) : Script :=
  .mk s.fields scope s.handling resolving

end Script

/-- The sequence from which scopes are drawn. -/
def scopeSequence : String := "scope"

def withScript (d : Delivery Script) (script : Script) : Delivery Script :=
  { d with message := { d.message with body := script } }

/-- Gives a delivery resolutions of its own. -/
def inScope (d : Delivery Script) (scope : Nat) : Delivery Script :=
  withScript d (d.message.body.withResolving scope d.message.body.resolving)

/-- What running actions changes. -/
structure Progress where
  data : Record
  completes : Bool
  keeps : Bool

def Progress.map (p : Progress) (f : Record → Record) : Progress :=
  { p with data := f p.data }

/-- Where actions run. -/
structure Scene where
  slot : String
  table : PropertyTable Record
  header? : String → Option String
  /-- The stored state, when a conflict is resolved. -/
  fresh : Option Record

namespace Scene

/-- The actions that only change the data or its marks. -/
def change (scene : Scene) (p : Progress) : Action (Delivery Script) → Progress
  | .complete => if scene.fresh.isNone then { p with completes := true } else p
  | .unchanged => if scene.fresh.isNone then { p with keeps := true } else p
  | .add n => p.map fun d => { d with total := d.total.add n }
  | .log line => p.map fun d => { d with log := d.log ++ [line] }
  | .tag tag => p.map fun d => { d with tags := d.tags.insert tag }
  | .logHeader name => p.map fun d =>
    { d with log := d.log ++ [(scene.header? name).getD "(none)"] }
  | .takeFresh => p.map fun d => scene.fresh.getD d
  | .unionTags => p.map fun d =>
    { d with tags := (scene.fresh.map (d.tags.union ·.tags)).getD d.tags }
  | .addTotal => p.map fun d =>
    { d with total := (scene.fresh.map (d.total.add ·.total)).getD d.total }
  | .maxTotal => p.map fun d =>
    { d with total := (scene.fresh.map (d.total.max ·.total)).getD d.total }
  | .prependLog => p.map fun d =>
    { d with log := (scene.fresh.map (·.log ++ d.log)).getD d.log }
  | _ => p

/-- Assigns a value through the table and reports whether it fits. -/
def assign (scene : Scene) (p : Progress) (path : String) (value : Scalar) :
    Progress × Option Bool :=
  match scene.table.get? path with
  | none => (p, none)
  | some accessor =>
    match accessor.assign? value p.data with
    | some data => ({ p with data }, some true)
    | none => (p, some false)

/-- Sends a message and reports what became of it. -/
def send (d : Delivery Script) (next : Act Script α) : Act Script α := do
  let scope ← Act.draw scopeSequence .done
  Act.note (.sending d.message.type) <| .send (inScope d scope) fun answer =>
    .note (.sent answer) next

def run (scene : Scene) : Actions → Progress → Act Script (Progress × Except String Unit)
  | [], p => .done (p, .ok ())
  | .fail reason :: _, p => .done (p, .error reason)
  | .panic :: _, _ => .panic
  | .shutdown :: rest, p => .shutdown (scene.run rest p)
  | .send d :: rest, p => send d (scene.run rest p)
  | .set path value :: rest, p =>
    let (p, accepted) := scene.assign p path value
    .note (.assigned scene.slot path accepted) (scene.run rest p)
  | action :: rest, p => scene.run rest (scene.change p action)

end Scene

/-- Runs the actions that a plain handler understands. -/
def runPlain : Actions → Act Script (Except String Unit)
  | [] => .done (.ok ())
  | .fail reason :: _ => .done (.error reason)
  | .panic :: _ => .panic
  | .shutdown :: rest => .shutdown (runPlain rest)
  | .send d :: rest => Scene.send d (runPlain rest)
  | _ :: rest => runPlain rest

end Sagas.Demo
