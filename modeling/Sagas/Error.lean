import Sagas.Json.Reading

/-!
# Errors

What can go wrong while sagas are declared, while settings are read and while one message is
processed, each with the name and the text it is reported by.
-/

namespace Sagas

/-! ## Configuration -/

/-- Raised while sagas are registered or settings are loaded. -/
inductive ConfigError where
  | unknownProperty (dataType property : String)
  | disallowedType (dataType property kind : String)
  | noCorrelation (sagaType messageType : String)
  | duplicateSagaType (sagaType existing : String)
  | invalidSetting (key reason : String)
  deriving DecidableEq, Repr

def ConfigError.name : ConfigError → String
  | .unknownProperty .. => "UnknownProperty"
  | .disallowedType .. => "DisallowedType"
  | .noCorrelation .. => "NoCorrelation"
  | .duplicateSagaType .. => "DuplicateSagaType"
  | .invalidSetting .. => "InvalidSetting"

def ConfigError.message : ConfigError → String
  | .unknownProperty dataType property =>
    "saga data '" ++ dataType ++ "' has no correlatable property '" ++ property ++ "'"
  | .disallowedType dataType property kind =>
    "property '" ++ property ++ "' of saga data '" ++ dataType
      ++ "' cannot be correlated with a " ++ kind ++ " value"
  | .noCorrelation sagaType messageType =>
    "saga '" ++ sagaType ++ "' has no correlation rule for message type '" ++ messageType ++ "'"
  | .duplicateSagaType sagaType existing =>
    "saga type '" ++ sagaType ++ "' is already registered with data type '" ++ existing ++ "'"
  | .invalidSetting key reason => "invalid setting " ++ key ++ ": " ++ reason

/-! ## Storage and locks -/

inductive StorageError where
  /-- The write lost against another one. -/
  | conflict (reason : String)
  | backend (reason : String)
  /-- A document could not be read. -/
  | serialization (cause : Json.ReadError)
  deriving DecidableEq, Repr

namespace StorageError

def name : StorageError → String
  | .conflict _ => "Conflict"
  | .backend _ => "Backend"
  | .serialization _ => "Serialization"

def message : StorageError → String
  | .conflict reason => "saga write conflict: " ++ reason
  | .backend reason => "saga storage backend failure: " ++ reason
  | .serialization cause => "saga document serialization failed: " ++ cause.message

def isConflict : StorageError → Bool
  | .conflict _ => true
  | _ => false

end StorageError

inductive LockError where
  | backend (reason : String)
  deriving DecidableEq, Repr

def LockError.message : LockError → String
  | .backend reason => "lock backend failure: " ++ reason

/-! ## Handlers -/

/-- Raised by a handler or by the instance bound to it. -/
inductive InvokeError where
  | handler (name reason : String)
  | noSagaData (name : String)
  | wrongDataType (expected actual : String)
  /-- The body of a document is not of the saga's data type. -/
  | serialization (cause : Json.ReadError)
  deriving DecidableEq, Repr

def InvokeError.name : InvokeError → String
  | .handler .. => "Handler"
  | .noSagaData _ => "NoSagaData"
  | .wrongDataType .. => "WrongDataType"
  | .serialization _ => "Serialization"

def InvokeError.message : InvokeError → String
  | .handler name reason => "handler '" ++ name ++ "' failed: " ++ reason
  | .noSagaData name => "handler '" ++ name ++ "' has no saga data bound"
  | .wrongDataType expected actual =>
    "saga data type mismatch: expected '" ++ expected ++ "', got '" ++ actual ++ "'"
  | .serialization cause => "saga data serialization failed: " ++ cause.message

/-! ## Processing a message -/

inductive SagaError where
  | configuration (cause : ConfigError)
  | storage (cause : StorageError)
  /-- A write conflict of a saga that does not resolve conflicts. -/
  | concurrency (sagaType : String) (id : Uuid) (reason : String)
  | conflictRetriesExhausted (sagaType : String) (id : Uuid) (attempts : Nat) (reason : String)
  /-- The instance disappeared while a conflict was being resolved. -/
  | sagaVanished (sagaType : String) (id : Uuid)
  | lockTimeout (key : String)
  | lock (cause : LockError)
  | handler (cause : InvokeError)
  | correlationFailed (sagaType messageType : String)
  | shutdown
  /-- The task that processed the message died. -/
  | worker (reason : String)
  deriving DecidableEq

namespace SagaError

/-- The name of the case, with that of its cause where it wraps one. -/
def name : SagaError → String
  | .configuration cause => "Configuration/" ++ cause.name
  | .storage cause => "Storage/" ++ cause.name
  | .concurrency .. => "Concurrency"
  | .conflictRetriesExhausted .. => "ConflictRetriesExhausted"
  | .sagaVanished .. => "SagaVanished"
  | .lockTimeout _ => "LockTimeout"
  | .lock _ => "Lock"
  | .handler cause => "Handler/" ++ cause.name
  | .correlationFailed .. => "CorrelationFailed"
  | .shutdown => "Shutdown"
  | .worker _ => "Worker"

def message : SagaError → String
  | .configuration cause => "saga configuration error: " ++ cause.message
  | .storage cause => "saga storage error: " ++ cause.message
  | .concurrency sagaType id reason =>
    "concurrency conflict on saga " ++ id.text ++ " (" ++ sagaType ++ "): " ++ reason
  | .conflictRetriesExhausted sagaType id attempts reason =>
    "saga " ++ id.text ++ " (" ++ sagaType ++ ") still conflicting after "
      ++ toString attempts ++ " attempts: " ++ reason
  | .sagaVanished sagaType id =>
    "saga " ++ id.text ++ " (" ++ sagaType ++ ") was deleted while resolving a conflict"
  | .lockTimeout key => "could not acquire exclusive access lock '" ++ key ++ "'"
  | .lock cause => "exclusive access lock failure: " ++ cause.message
  | .handler cause => cause.message
  | .correlationFailed sagaType messageType =>
    "no saga '" ++ sagaType ++ "' correlates with message '" ++ messageType ++ "'"
  | .shutdown => "saga worker pool is shut down"
  | .worker reason => "saga worker task failed: " ++ reason

/-- Whether delivering the same message again may succeed. -/
def isTransient : SagaError → Bool
  | .concurrency .. | .conflictRetriesExhausted .. | .lockTimeout _ => true
  | .storage (.serialization _) => false
  | .storage _ => true
  | _ => false

end SagaError

end Sagas
