import Sagas.Demo.Script

/-!
# Declared rules

The rules that demonstration sagas declare: by a field of a scripted message, by a header, by a
value of the context, or by a field of every message of a family.
-/

namespace Sagas.Demo

/-- The type at which a field is extracted. -/
inductive FieldType where
  /-- The field if it has this kind, else the default of the kind. -/
  | required (k : Kind)
  /-- The field if it has this kind. -/
  | optional (k : Kind)
  /-- The same text for every message. -/
  | fixed
  deriving DecidableEq

namespace FieldType

def kind : FieldType → Kind
  | .required k | .optional k => k
  | .fixed => .string

/-- The kind of a field, which may also be called an identity. -/
def kindOfName? (name : String) : Option Kind :=
  if name = "saga_id" then some .uuid else Kind.ofName? name

def ofName? (name : String) : Option FieldType :=
  if name = "str" then some .fixed
  else
    match kindOfName? name with
    | some k => some (.required k)
    | none =>
      if name.startsWith "opt_" then (kindOfName? (name.drop 4).toString).map .optional else none

def extract (t : FieldType) (field : Option Scalar) : Option Scalar :=
  match t with
  | .required k => some ((field.filter (·.kind = k)).getD (.of k k.unset))
  | .optional k => field.filter (·.kind = k)
  | .fixed => some (.string "fixed")

end FieldType

/-- A value of a message's context. -/
inductive ContextValue where
  | queue
  | messageId
  | headerCount
  | hasQueue
  deriving DecidableEq

namespace ContextValue

def kind : ContextValue → Kind
  | .queue => .string
  | .messageId => .uuid
  | .headerCount => .int .w64
  | .hasQueue => .bool

def extract (v : ContextValue) (c : Context) : Option Scalar :=
  match v with
  | .queue => c.queue.map .string
  | .messageId => some (.uuid c.id)
  | .headerCount => some (.int .w64 (Word.wrap .w64 c.headers.length))
  | .hasQueue => some (.bool c.queue.isSome)

def ofName? : String → Option ContextValue
  | "queue" => some .queue
  | "message_id" => some .messageId
  | "header_count" => some .headerCount
  | "has_queue" => some .hasQueue
  | _ => none

end ContextValue

/-- Where a declared rule takes its value from. -/
inductive Source where
  | field (name : String) (type : FieldType)
  | header (name : String)
  | context (value : ContextValue)
  /-- A field of whatever message it is. -/
  | familyField (name : String) (kind : Kind)
  /-- The name of the message's own type. -/
  | typeName

namespace Source

/-- A source as it is written in JSON: `from` says which one, `name` and `as` say of what. -/
def ofJson? (j : Json) : Option Source := do
  let part (key : String) : Option String := (j.field? key).bind Json.str?
  let type ← part "from"
  match type with
  | "field" => return .field ((part "name").getD "") (← FieldType.ofName? (← part "as"))
  | "header" => return .header (← part "name")
  | "context" => return .context (← ContextValue.ofName? (← part "name"))
  | "family" =>
    if (← part "as") = "type_name" then return .typeName
    else return .familyField (← part "name") (← FieldType.kindOfName? (← part "as"))
  | _ => none

end Source

/-- A rule of a demonstration saga for messages of a type or family. -/
def rule (messageType property : String) : Source → RuleDraft Script
  | .field name type =>
    .body messageType property type.kind fun s => type.extract (s.field? name)
  | .header name => .header messageType property name
  | .context value => .context messageType property value.kind value.extract
  | .familyField name kind =>
    .family messageType property kind fun m =>
      (FieldType.optional kind).extract (m.body.field? name)
  | .typeName => .family messageType property .string fun m => some (.string m.type)

def ruleOfJson? (j : Json) : Option (RuleDraft Script) := do
  let messageType ← (← j.field? "message").str?
  let property ← (← j.field? "property").str?
  return rule messageType property (← Source.ofJson? j)

end Sagas.Demo
