import Sagas.Correlation.Rule
import Sagas.Sorted

/-!
# The rules of a saga

A correlator accepts the rules of one saga, checking each against the paths of its data. The
accepted rules are read in two ways: the rules for one message, by its type and families, and one
rule for every path, which are the values that storage indexes.
-/

namespace Sagas

/-- Accepted rules, in the order of their declaration. -/
structure RuleSet (B : Type) where
  sagaType : String
  dataType : String
  rules : List (Rule B)

namespace RuleSet

variable {B : Type}

/-- The message types with a rule, in increasing order. -/
def messageTypes (s : RuleSet B) : List String :=
  Sorted.ofList (s.rules.map (·.messageType))

def forType (s : RuleSet B) (messageType : String) : List (Rule B) :=
  s.rules.filter (·.messageType = messageType)

/-- Keeps the first rule of every path. -/
def distinctPaths : List (Rule B) → List (Rule B) → List (Rule B)
  | kept, [] => kept
  | kept, r :: rest =>
    if kept.any (·.property = r.property) then distinctPaths kept rest
    else distinctPaths (kept ++ [r]) rest

/-- One rule for every path: of the least message type, the one declared first. -/
def indexed (s : RuleSet B) : List (Rule B) :=
  distinctPaths [] (s.messageTypes.flatMap s.forType)

/-- The rules for a message: those of its own type, then those of each family. -/
def forMessage (s : RuleSet B) (m : Message B) : Except ConfigError (List (Rule B)) :=
  match m.hierarchy.flatMap s.forType with
  | [] => .error (.noCorrelation s.sagaType m.type)
  | rules => .ok rules

end RuleSet

/-- Collects the rules of a saga over data of type `dataType`. -/
structure Correlator (D B : Type) where
  sagaType : String
  dataType : DataType D
  rules : List (Rule B)

namespace Correlator

variable {D B : Type}

def start (sagaType : String) (dataType : DataType D) : Correlator D B :=
  ⟨sagaType, dataType, []⟩

/-- Refuses an unknown path, then a kind that never converts to the property's. -/
def register (c : Correlator D B) (draft : RuleDraft B) :
    Except ConfigError (Correlator D B) :=
  match c.dataType.table.require c.dataType.name draft.property with
  | .error unknown => .error unknown
  | .ok accessor =>
    if draft.kind.canCoerce accessor.kind then
      .ok { c with rules := c.rules ++ [⟨draft.messageType, c.dataType.name, draft.property,
        c.sagaType, accessor.kind, draft.extract⟩] }
    else .error (.disallowedType c.dataType.name draft.property draft.kind.name)

/-- Tries one rule after the other; a refused one changes nothing. -/
def registerEach (c : Correlator D B) : List (RuleDraft B) → Correlator D B
  | [] => c
  | draft :: rest =>
    match c.register draft with
    | .ok extended => extended.registerEach rest
    | .error _ => c.registerEach rest

def build (c : Correlator D B) : RuleSet B :=
  ⟨c.sagaType, c.dataType.name, c.rules⟩

/-- The rules of a declaration, which ends at the first rule that is refused. -/
def declare (c : Correlator D B) (drafts : List (RuleDraft B)) : Except ConfigError (RuleSet B) :=
  (drafts.foldlM register c).map build

end Correlator

end Sagas
