import Sagas.Scalar.Codec
import Sagas.Timestamp

/-!
# Messages

A message has a type, the families it also counts as, and a body of any type `B`. What the
transport adds, such as headers, is the context it is delivered in.
-/

namespace Sagas

structure Message (B : Type) where
  type : String
  /-- The families, most specific first. -/
  supertypes : List String
  body : B

/-- The message's own type, then its families. -/
def Message.hierarchy {B : Type} (m : Message B) : List String :=
  m.type :: m.supertypes

/-! ## Contexts -/

structure Context where
  id : Uuid
  /-- Ordered by name, each name once. -/
  headers : List (String × String)
  receivedAt : Timestamp
  queue : Option String
  deriving DecidableEq

namespace Context

def ofId (id : Uuid) : Context :=
  ⟨id, [], .epoch, none⟩

/-- Sets a header in its place by name. -/
def putHeader (name value : String) : List (String × String) → List (String × String)
  | [] => [(name, value)]
  | (other, held) :: rest =>
    match compare name other with
    | .lt => (name, value) :: (other, held) :: rest
    | .eq => (name, value) :: rest
    | .gt => (other, held) :: putHeader name value rest

def withHeader (c : Context) (name value : String) : Context :=
  { c with headers := putHeader name value c.headers }

def withQueue (c : Context) (queue : String) : Context :=
  { c with queue := some queue }

def withReceivedAt (c : Context) (receivedAt : Timestamp) : Context :=
  { c with receivedAt }

def header? (c : Context) (name : String) : Option String :=
  (c.headers.find? (·.1 = name)).map (·.2)

def ofJson? (j : Json) : Option Context :=
  match j.columns? ["message_id", "headers", "received_at", "source_queue"] with
  | some [some id, some headers, some receivedAt, queue] => do
    let context := ofId (← Uuid.ofJson? id)
    let headers ← headers.map? Json.str?
    let receivedAt ← receivedAt.str?.bind Timestamp.ofText?
    let queue ← (queue.getD .null).optional? Json.str?
    let context := headers.foldl (fun c (name, value) => c.withHeader name value) context
    return { context with receivedAt, queue }
  | _ => none

def toJson (c : Context) : Json :=
  .obj [("message_id", c.id.toJson),
    ("headers", .obj (c.headers.map fun (name, value) => (name, .str value))),
    ("received_at", .str c.receivedAt.text),
    ("source_queue", match c.queue with
      | some queue => .str queue
      | none => .null)]

end Context

/-- A message as it arrives: in its context, and possibly with its cancellation already asked. -/
structure Delivery (B : Type) where
  message : Message B
  context : Context
  cancelled : Bool

end Sagas
