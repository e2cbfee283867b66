import Sagas.Correlation.RuleSet
import Sagas.Journal
import Sagas.Stats

/-!
# Programs

Processing a message is a program: a tree of requests to the surroundings, such as storage and
locks, each with a continuation for every answer. A program is run by any function that answers
requests, or one request at a time, so that the programs of several messages interleave.

Code of an application is restricted to actions: it changes data as it likes, but of the
surroundings it reaches only what an action offers. One of these is to send a message, which may be
a request like any other, answered when the message is processed; the program of that message can
then be put in the place of the request.
-/

namespace Sagas

/-! ## Requests -/

/-- When waiting for a lock is called off. -/
inductive CancelToken where
  /-- A message's own token, fired before the message arrived or never. -/
  | fixed (fired : Bool)
  /-- The worker pool's token, which fires when the pool shuts down. -/
  | pool
  deriving DecidableEq

/-- What a saga is known by outside its handlers. -/
structure SagaType (B : Type) where
  name : String
  dataType : String
  initiators : List String
  /-- What running the saga's declaration yields. -/
  declaration : Except ConfigError (RuleSet B)

inductive Request (B : Type) where
  | find (dataType property : String) (value : Scalar)
  | insert (document : Document) (values : List PropertyValue)
  | update (document : Document) (values : List PropertyValue)
  | delete (document : Document)
  | acquire (key : String) (token : CancelToken)
  | release (key : String)
  /-- The rules of a saga, from the cache. -/
  | rules (saga : SagaType B)
  /-- An identifier for a new instance. -/
  | freshId
  /-- The next number of a named sequence, from zero. -/
  | draw (sequence : String)
  | count (counter : Counter)
  | note (entry : Entry)
  /-- Stops the worker pool. -/
  | shutdown
  /-- Processes another message completely. -/
  | send (delivery : Delivery B)

/-- The answers to a request. A write is answered with the document as it is stored. -/
@[reducible] def Reply {B : Type} : Request B → Type
  | .find .. => Except StorageError (Option Document)
  | .insert .. | .update .. => Except StorageError Document
  | .delete _ => Except StorageError Unit
  | .acquire .. | .release _ => Except LockError Bool
  | .rules _ => Except ConfigError (RuleSet B)
  | .freshId => Uuid
  | .draw _ => Nat
  | .count _ | .note _ | .shutdown => Unit
  | .send _ => Except SagaError Unit

/-! ## Programs -/

inductive Program (B α : Type) where
  | done (a : α)
  | ask (request : Request B) (rest : Reply request → Program B α)
  /-- The task dies here and now. -/
  | panic

namespace Program

variable {B α β γ σ : Type}

def bind : Program B α → (α → Program B β) → Program B β
  | .done a, next => next a
  | .ask request rest, next => .ask request fun reply => (rest reply).bind next
  | .panic, _ => .panic

instance : Monad (Program B) where
  pure := .done
  bind := bind

/-- Asks one request. -/
def call (request : Request B) : Program B (Reply request) :=
  .ask request .done

def note (entry : Entry) : Program B Unit :=
  call (.note entry)

def log (event : LogEvent) : Program B Unit :=
  call (.note (.log event))

def count (counter : Counter) : Program B Unit :=
  call (.count counter)

/-- Puts a program in the place of every request. -/
def via (serve : (request : Request B) → Program B (Reply request)) : Program B α → Program B α
  | .done a => .done a
  | .ask request rest => (serve request).bind fun reply => (rest reply).via serve
  | .panic => .panic

/-- Answers requests and changes a state on the way. -/
abbrev Answering (B σ : Type) := (request : Request B) → σ → Reply request × σ

/-- Runs a program to its end; `none` if it dies. -/
def run (answer : Answering B σ) : Program B α → σ → Option α × σ
  | .done a, s => (some a, s)
  | .ask request rest, s =>
    let (reply, s) := answer request s
    (rest reply).run answer s
  | .panic, s => (none, s)

/-- Answers the first request of a program. -/
def step (answer : Answering B σ) : Program B α → σ → Program B α × σ
  | .ask request rest, s =>
    let (reply, s) := answer request s
    (rest reply, s)
  | p, s => (p, s)

@[simp] theorem pure_eq (a : α) : (pure a : Program B α) = .done a := rfl

@[simp] theorem done_bind (a : α) (next : α → Program B β) : (.done a >>= next) = next a := rfl

@[simp] theorem ask_bind (request : Request B) (rest : Reply request → Program B α)
    (next : α → Program B β) :
    (.ask request rest >>= next) = .ask request fun reply => rest reply >>= next := rfl

@[simp] theorem panic_bind (next : α → Program B β) : ((.panic : Program B α) >>= next) = .panic :=
  rfl

theorem call_bind (request : Request B) (next : Reply request → Program B β) :
    (call request >>= next) = .ask request next := rfl

theorem bind_done (p : Program B α) : (p >>= .done) = p := by
  induction p with
  | done a => rfl
  | ask request rest ih => simp only [ask_bind, ih]
  | panic => rfl

theorem bind_assoc (p : Program B α) (first : α → Program B β) (second : β → Program B γ) :
    (p >>= first >>= second) = (p >>= fun a => first a >>= second) := by
  induction p with
  | done a => rfl
  | ask request rest ih => simp only [ask_bind, ih]
  | panic => rfl

instance : LawfulMonad (Program B) :=
  LawfulMonad.mk' (Program B) bind_done (fun _ _ => rfl) bind_assoc

theorem run_bind (answer : Answering B σ) (p : Program B α) (next : α → Program B β) (s : σ) :
    (p >>= next).run answer s =
      match p.run answer s with
      | (some a, t) => (next a).run answer t
      | (none, t) => (none, t) := by
  induction p generalizing s with
  | done a => rfl
  | ask request rest ih => simp only [ask_bind, run, ih]
  | panic => rfl

end Program

/-! ## Actions of an application -/

/-- Processes a message completely. -/
abbrev Send (B : Type) := Delivery B → Program B (Except SagaError Unit)

namespace Send

variable {B α : Type}

/-- Leaves a message to the surroundings. -/
def request : Send B :=
  fun delivery => Program.call (.send delivery)

/-- Sends by `send` what a program leaves to the surroundings; its other requests stay. -/
def inline (send : Send B) (p : Program B α) : Program B α :=
  p.via fun
    | .send delivery => send delivery
    | request => Program.call request

end Send

inductive Act (B α : Type) where
  | done (a : α)
  | send (delivery : Delivery B) (rest : Except SagaError Unit → Act B α)
  | draw (sequence : String) (rest : Nat → Act B α)
  | note (entry : Entry) (rest : Act B α)
  | shutdown (rest : Act B α)
  | panic

namespace Act

variable {B α β : Type}

def bind : Act B α → (α → Act B β) → Act B β
  | .done a, next => next a
  | .send delivery rest, next => .send delivery fun answer => (rest answer).bind next
  | .draw sequence rest, next => .draw sequence fun n => (rest n).bind next
  | .note entry rest, next => .note entry (rest.bind next)
  | .shutdown rest, next => .shutdown (rest.bind next)
  | .panic, _ => .panic

instance : Monad (Act B) where
  pure := .done
  bind := bind

/-- The action reaches nothing but the journal. -/
def Notes : Act B α → Prop
  | .done _ => True
  | .note _ rest => rest.Notes
  | _ => False

/-- The program of an action, given how messages are sent. -/
def program (send : Send B) : Act B α → Program B α
  | .done a => .done a
  | .send delivery rest => do
    let answer ← send delivery
    (rest answer).program send
  | .draw sequence rest => do
    let n ← Program.call (.draw sequence)
    (rest n).program send
  | .note entry rest => do
    Program.note entry
    rest.program send
  | .shutdown rest => do
    Program.call .shutdown
    rest.program send
  | .panic => .panic

end Act

end Sagas
