import Sagas.Commit
import Sagas.Lock.Key
import Sagas.Settings
import Sagas.WritePlan

/-!
# Coordinating the instances of a message

Around the handlers of a message, its saga instances are found or created before and written
after. The order is: the rules of every saga invocation; the lock keys of all values that the
message yields, if locks are in use; the binding of every saga invocation; the handlers; the
writes; and the release of the locks, in reverse order and however the rest ended.
-/

namespace Sagas

/-- One message on its way, with the handlers that it is routed to. -/
structure Incoming (D B : Type) where
  message : Message B
  context : Context
  token : CancelToken
  invocations : List (Invocation D B)

/-- The message after a stage, with what the stage ended in. -/
abbrev Processed (D B : Type) := Incoming D B × Except SagaError Unit

/-- The rest of the stages. -/
abbrev Continuation (D B : Type) := Incoming D B → Program B (Processed D B)

/-! ## Error handlers -/

/-- What an error handler has a message do for a saga that has no instance and may not start one. -/
inductive Recourse where
  /-- Skip the handler. -/
  | skip
  /-- Bind a new instance with these values all the same. -/
  | create (values : List PropertyValue)
  /-- Go on with nothing bound. -/
  | goOn
  /-- Fail the message. -/
  | fail (e : SagaError)

/-- The code of an application that is asked what to do about a saga that has no instance for a
message and may not start one, with the rules that found none. It works on what it is handed: it
sends nothing and reads no stored documents, so the only instances that it binds are new ones. -/
structure MissHandler (D B : Type) where
  react : List (Rule B) → Invocation D B → Message B → Act B Recourse
  notes : ∀ rules i message, (react rules i message).Notes

namespace MissHandler

variable {D B : Type}

def logAndSkip : MissHandler D B where
  react rules i message :=
    .note (.log (.noneCorrelates i.name message.type (rules.map (·.property)))) (.done .skip)
  notes _ _ _ := trivial

def failOnMissing : MissHandler D B where
  react _ i message := .done (.fail (.correlationFailed i.name message.type))
  notes _ _ _ := trivial

/-- Always takes the same recourse. -/
def always (recourse : Recourse) : MissHandler D B where
  react _ _ _ := .done recourse
  notes _ _ _ := trivial

end MissHandler

namespace Incoming

variable {D B : Type}

def put (m : Incoming D B) (index : Nat) (i : Invocation D B) : Incoming D B :=
  { m with invocations := m.invocations.set index i }

/-! ## Rules -/

/-- The rules of the saga invocations from place `index` on. -/
def bindingsFrom (message : Message B) :
    Nat → List (Invocation D B) → Program B (Except SagaError (List (Binding B)))
  | _, [] => return .ok []
  | index, i :: rest =>
    match i.saga? with
    | none => bindingsFrom message (index + 1) rest
    | some s => do
      match ← Program.call (.rules s.type) with
      | .error e => return .error (.configuration e)
      | .ok rules =>
        match rules.forMessage message with
        | .error e => return .error (.configuration e)
        | .ok forMessage =>
          match ← bindingsFrom message (index + 1) rest with
          | .error e => return .error e
          | .ok bindings => return .ok (⟨index, forMessage, rules.indexed⟩ :: bindings)

def bindings (m : Incoming D B) : Program B (Except SagaError (List (Binding B))) :=
  bindingsFrom m.message 0 m.invocations

/-- The value a message yields for a rule; one that does not convert is logged. -/
def valueOf (message : Message B) (context : Context) (r : Rule B) : Program B (Option Scalar) :=
  match r.reading context message with
  | .absent => return none
  | .usable value => return some value
  | .unusable raw => do
    Program.log (.unconvertible r.sagaType r.messageType r.property raw)
    return none

/-! ## Locks -/

/-- The keys of the values that a message yields, rule by rule. -/
def keysOf (message : Message B) (context : Context) (buckets : Option Nat) :
    List (Rule B) → Program B (List String)
  | [] => return []
  | r :: rest => do
    match ← valueOf message context r with
    | none => keysOf message context buckets rest
    | some value =>
      let keys ← keysOf message context buckets rest
      return Lock.key r.dataType r.property value buckets :: keys

/-- The keys to take for a message, in order. -/
def lockKeys (m : Incoming D B) (buckets : Option Nat) (bindings : List (Binding B)) :
    Program B (List String) := do
  let keys ← keysOf m.message m.context buckets (bindings.flatMap (·.rules))
  return Lock.normalize keys

/-- Gives keys back, the last one first, whatever the answers. -/
def releaseAll : List String → Program B Unit
  | [] => return ()
  | key :: earlier => do
    match ← Program.call (.release key) with
    | .ok true => releaseAll earlier
    | .ok false =>
      Program.log (.releasedUnheld key)
      releaseAll earlier
    | .error e =>
      Program.log (.releaseFailed key e)
      releaseAll earlier

/-- Takes keys in order on top of `held`, the latest first; on a refusal gives all of them back. -/
def acquireAll (token : CancelToken) (held : List String) :
    List String → Program B (Except SagaError (List String))
  | [] => return .ok held
  | key :: rest => do
    match ← Program.call (.acquire key token) with
    | .ok true => acquireAll token (key :: held) rest
    | .ok false =>
      Program.log (.lockRefused key)
      releaseAll held
      return .error (.lockTimeout key)
    | .error e =>
      releaseAll held
      return .error (.lock e)

/-! ## Binding -/

/-- What looking a message's values up comes to. -/
inductive Lookup (B : Type) where
  | found (rule : Rule B) (document : Document)
  /-- Nothing is stored under any of these values. -/
  | missed (values : List PropertyValue)

/-- Looks the values of the rules up until one has an instance. -/
def lookUp (message : Message B) (context : Context) :
    List PropertyValue → List (Rule B) → Program B (Except StorageError (Lookup B))
  | tried, [] => return .ok (.missed tried)
  | tried, r :: rest => do
    match ← valueOf message context r with
    | none => lookUp message context tried rest
    | some value =>
      match ← Program.call (.find r.dataType r.property value) with
      | .error e => return .error e
      | .ok (some document) => return .ok (.found r document)
      | .ok none => lookUp message context (tried ++ [⟨r.property, value⟩]) rest

/-- Binds the instance that was found. -/
def bindFound (r : Rule B) (document : Document) (i : Invocation D B) :
    Program B (Invocation D B × Except SagaError Unit) := do
  let (i, answer) ← i.load document false
  match answer with
  | .error e => return (i, .error (.handler e))
  | .ok () =>
    Program.count .loaded
    Program.log (.loaded r.sagaType document.id document.revision r.property)
    return (i, .ok ())

/-- Binds a new instance that holds the values that were looked up. -/
def bindNew (message : Message B) (values : List PropertyValue) (i : Invocation D B) :
    Program B (Invocation D B × Except SagaError Unit) := do
  let (i, answer) ← i.create values
  match answer with
  | .error e => return (i, .error (.handler e))
  | .ok id =>
    Program.count .created
    Program.log (.created i.name id message.type)
    return (i, .ok ())

/-- Does what an error handler has decided. -/
def follow (i : Invocation D B) : Recourse → Program B (Invocation D B × Except SagaError Unit)
  | .skip => do return (← i.skip, .ok ())
  | .create values => do
    let (i, answer) ← i.create values
    match answer with
    | .error e => return (i, .error (.handler e))
    | .ok _ => return (i, .ok ())
  | .goOn => return (i, .ok ())
  | .fail e => return (i, .error e)

/-- Deals with a saga that has no instance and may not start one. -/
def bindNone (onMiss : MissHandler D B) (message : Message B) (rules : List (Rule B))
    (i : Invocation D B) : Program B (Invocation D B × Except SagaError Unit) := do
  Program.count .correlationMiss
  let recourse ← (onMiss.react rules i message).program .request
  follow i recourse

/-- Finds or creates the instance of one saga invocation. -/
def bindOne (onMiss : MissHandler D B) (message : Message B) (context : Context)
    (rules : List (Rule B)) (i : Invocation D B) :
    Program B (Invocation D B × Except SagaError Unit) := do
  match ← lookUp message context [] rules with
  | .error e => return (i, .error (.storage e))
  | .ok (.found r document) => bindFound r document i
  | .ok (.missed values) =>
    if message.hierarchy.any i.isInitiatedBy then bindNew message values i
    else bindNone onMiss message rules i

/-- Runs a step on the invocation at a place. -/
def onInvocation (index : Nat)
    (step : Invocation D B → Program B (Invocation D B × Except SagaError Unit))
    (m : Incoming D B) : Program B (Processed D B) :=
  match m.invocations[index]? with
  | none => .panic
  | some i => do
    let (i, answer) ← step i
    return (m.put index i, answer)

/-- Runs steps one after the other, up to the first that fails. -/
def inTurn : List (Continuation D B) → Continuation D B
  | [], m => return (m, .ok ())
  | step :: rest, m => do
    let (m, answer) ← step m
    match answer with
    | .error e => return (m, .error e)
    | .ok () => inTurn rest m

def bindAll (onMiss : MissHandler D B) (bindings : List (Binding B)) (m : Incoming D B) :
    Program B (Processed D B) :=
  inTurn (bindings.map fun b =>
    onInvocation b.index (bindOne onMiss m.message m.context b.rules)) m

/-! ## Writing -/

/-- The commits and deletions of a plan. -/
def writes (send : Send B) (maxAttempts : Nat) (p : WritePlan B) : List (Continuation D B) :=
  p.inserts.map (fun (index, rules) =>
      onInvocation index (Commit.persist send maxAttempts rules .insert))
    ++ p.updates.map (fun (index, rules) =>
      onInvocation index (Commit.persist send maxAttempts rules .update))
    ++ p.deletes.map fun index =>
      onInvocation index fun i => do return (i, ← Commit.delete i)

def persist (send : Send B) (maxAttempts : Nat) (bindings : List (Binding B)) (m : Incoming D B) :
    Program B (Processed D B) := do
  let groups := Touched.groups m.invocations bindings
  groups.forM Touched.announce
  inTurn (writes send maxAttempts (WritePlan.ofGroups groups)) m

/-! ## The whole -/

/-- Binds, runs the rest of the stages, and writes. -/
def runBound (send : Send B) (maxAttempts : Nat) (onMiss : MissHandler D B)
    (bindings : List (Binding B)) (next : Continuation D B) : Continuation D B :=
  inTurn [bindAll onMiss bindings, next, persist send maxAttempts bindings]

/-- Processes a message around the rest of the stages. -/
def coordinate (settings : Settings) (locking : Bool) (onMiss : MissHandler D B) (send : Send B)
    (next : Continuation D B) (m : Incoming D B) : Program B (Processed D B) := do
  match ← m.bindings with
  | .error e => return (m, .error e)
  | .ok [] => next m
  | .ok bindings =>
    let run := runBound send settings.maxConflictAttempts onMiss bindings next
    if locking then
      let keys ← m.lockKeys settings.lockBuckets bindings
      match ← acquireAll m.token [] keys with
      | .error e => return (m, .error e)
      | .ok held =>
        let (m, answer) ← run m
        releaseAll held
        return (m, answer)
    else run m

end Incoming

end Sagas
