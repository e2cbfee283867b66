import Sagas.Document

/-!
# The journal of a run

What a run leaves behind besides its results: the calls to storage and to locks with their
answers, what happened to the instance bound to a handler, what application code reports, and the
log lines of the library itself.
-/

namespace Sagas

inductive LogLevel where
  | trace
  | debug
  | info
  | warn
  | error
  deriving DecidableEq, Repr

def LogLevel.name : LogLevel → String
  | .trace => "trace"
  | .debug => "debug"
  | .info => "info"
  | .warn => "warn"
  | .error => "error"

/-- What the library logs. -/
inductive LogEvent where
  | buildingRules (sagaType : String)
  | unconvertible (sagaType messageType property : String) (value : Scalar)
  | notAssignable (sagaType property : String) (value : Scalar)
  | loaded (sagaType : String) (id : Uuid) (revision : Revision) (property : String)
  | created (sagaType : String) (id : Uuid) (messageType : String)
  | noneCorrelates (handler messageType : String) (properties : List String)
  | handlerSkipped (handler : String)
  | discarded (id : Uuid)
  | notWritten (id : Uuid)
  | severalWriters (id : Uuid) (writers : Nat)
  | writeConflict (sagaType : String) (id : Uuid) (revision : Revision) (attempt : Nat)
      (reason : String)
  | retriesExhausted (sagaType : String) (id : Uuid) (attempts : Nat)
  | vanished (sagaType : String) (id : Uuid)
  | conflictResolved (sagaType : String) (id : Uuid) (revision : Revision) (attempt : Nat)
  | deleteConflict (sagaType : String) (id : Uuid) (reason : String)
  | lockRefused (key : String)
  | releasedUnheld (key : String)
  | releaseFailed (key : String) (cause : LockError)
  | processingFailed (messageId : Uuid) (messageType : String) (cause : SagaError)
  | taskFailed (reason : String)
  | shuttingDown

namespace LogEvent

def level : LogEvent → LogLevel
  | .handlerSkipped _ => .trace
  | .conflictResolved .. | .shuttingDown => .info
  | .writeConflict .. | .deleteConflict .. | .lockRefused _ | .releasedUnheld _
  | .releaseFailed .. | .taskFailed _ => .warn
  | .retriesExhausted .. | .vanished .. => .error
  | _ => .debug

def message : LogEvent → String
  | .buildingRules _ => "building correlation rules"
  | .unconvertible .. => "correlation value does not convert to property kind"
  | .notAssignable .. => "initial correlation value not assignable"
  | .loaded .. => "saga instance loaded"
  | .created .. => "saga instance created"
  | .noneCorrelates .. =>
    "no saga instance correlates and message may not initiate one; skipping handler"
  | .handlerSkipped _ => "handler skipped"
  | .discarded _ => "new saga instance completed; discarded"
  | .notWritten _ => "saga instance unchanged; not written"
  | .severalWriters .. => "saga instance changed by several handlers; writing each"
  | .writeConflict .. => "saga write conflict"
  | .retriesExhausted .. => "saga write conflicts exhausted retries"
  | .vanished .. => "saga instance vanished while resolving conflict"
  | .conflictResolved .. => "saga write conflict resolved; retrying as update"
  | .deleteConflict .. => "saga delete conflict"
  | .lockRefused _ => "exclusive access lock not acquired"
  | .releasedUnheld _ => "released exclusive access lock was not held"
  | .releaseFailed .. => "exclusive access lock release failed"
  | .processingFailed .. => "message processing failed"
  | .taskFailed _ => "saga worker task failed"
  | .shuttingDown => "saga worker pool shutting down"

/-- Names in quotes, between brackets. -/
def nameList (names : List String) : String :=
  "[" ++ ", ".intercalate (names.map fun name => "\"" ++ name ++ "\"") ++ "]"

def fields : LogEvent → List (String × String)
  | .buildingRules sagaType => [("saga_type", sagaType)]
  | .unconvertible sagaType messageType property value =>
    [("saga_type", sagaType), ("message_type", messageType), ("property", property),
      ("value", value.text)]
  | .notAssignable sagaType property value =>
    [("saga_type", sagaType), ("property", property), ("value", value.text)]
  | .loaded sagaType id revision property =>
    [("saga_type", sagaType), ("saga_id", id.text), ("revision", revision.text),
      ("property", property)]
  | .created sagaType id messageType =>
    [("saga_type", sagaType), ("saga_id", id.text), ("message_type", messageType)]
  | .noneCorrelates handler messageType properties =>
    [("handler", handler), ("message_type", messageType), ("properties", nameList properties)]
  | .handlerSkipped handler => [("handler", handler)]
  | .discarded id | .notWritten id => [("saga_id", id.text)]
  | .severalWriters id writers => [("saga_id", id.text), ("writers", toString writers)]
  | .writeConflict sagaType id revision attempt reason =>
    [("saga_type", sagaType), ("saga_id", id.text), ("revision", revision.text),
      ("attempt", toString attempt), ("reason", reason)]
  | .retriesExhausted sagaType id attempts =>
    [("saga_type", sagaType), ("saga_id", id.text), ("attempts", toString attempts)]
  | .vanished sagaType id => [("saga_type", sagaType), ("saga_id", id.text)]
  | .conflictResolved sagaType id revision attempt =>
    [("saga_type", sagaType), ("saga_id", id.text), ("revision", revision.text),
      ("attempt", toString attempt)]
  | .deleteConflict sagaType id reason =>
    [("saga_type", sagaType), ("saga_id", id.text), ("reason", reason)]
  | .lockRefused key | .releasedUnheld key => [("key", key)]
  | .releaseFailed key cause => [("key", key), ("error", cause.message)]
  | .processingFailed messageId messageType cause =>
    [("message_id", messageId.text), ("message_type", messageType), ("error", cause.message)]
  | .taskFailed reason => [("error", reason)]
  | .shuttingDown => []

end LogEvent

/-- One line of a journal. -/
inductive Entry where
  /- calls, when they return -/
  | find (dataType property : String) (value : Scalar)
      (answer : Except StorageError (Option Metadata))
  | insert (document : Document) (values : List PropertyValue)
      (answer : Except StorageError Revision)
  | update (document : Document) (values : List PropertyValue)
      (answer : Except StorageError Revision)
  | delete (document : Document) (answer : Except StorageError Unit)
  | acquire (key : String) (answer : Except LockError Bool)
  | release (key : String) (answer : Except LockError Bool)
  /- the instance bound to a handler -/
  | created (handler : String) (id : Uuid) (values : List PropertyValue)
  | loaded (handler : String) (id : Uuid) (revision : Revision) (answer : Except InvokeError Unit)
  | skipped (handler : String)
  | resolved (handler : String) (id : Uuid) (revision : Revision)
      (answer : Except InvokeError Unit)
  /- reports of application code -/
  | handling (handler : String) (isNew : Bool) (id : Uuid) (revision : Revision)
  | plain (handler : String) (messageId : Uuid) (headers : List (String × String))
  | assigned (handler path : String) (accepted : Option Bool)
  | sending (messageType : String)
  | sent (answer : Except SagaError Unit)
  | stage (name : String) (entering : Bool)
  /- the library's own log -/
  | log (event : LogEvent)

end Sagas
