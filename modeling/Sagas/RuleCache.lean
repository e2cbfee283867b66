import Sagas.Dictionary
import Sagas.Program

/-!
# The rule cache

The rules of a saga are built once, when they are first asked for, and kept under the saga's name,
also if building them failed. The first data type seen under a name owns it.
-/

namespace Sagas

/-- What is known of one saga name. -/
structure Built (B : Type) where
  dataType : String
  rules : Except ConfigError (RuleSet B)

structure RuleCache (B : Type) where
  built : Dictionary String (Built B)

namespace RuleCache

variable {B : Type}

def empty : RuleCache B := ⟨.empty⟩

instance : Inhabited (RuleCache B) := ⟨empty⟩

/-- Whether asking for the rules of `saga` runs its declaration. -/
def builds (c : RuleCache B) (saga : SagaType B) : Bool :=
  !c.built.contains saga.name

/-- The rules of a saga, built on first use. -/
def get (c : RuleCache B) (saga : SagaType B) : Except ConfigError (RuleSet B) × RuleCache B :=
  match c.built.get? saga.name with
  | some known =>
    (if known.dataType = saga.dataType then known.rules
      else .error (.duplicateSagaType saga.name known.dataType), c)
  | none =>
    (saga.declaration, ⟨c.built.insert saga.name ⟨saga.dataType, saga.declaration⟩⟩)

/-- The rules of a saga for one message. -/
def rulesFor (c : RuleCache B) (saga : SagaType B) (m : Message B) :
    Except ConfigError (List (Rule B)) × RuleCache B :=
  let (rules, c) := c.get saga
  (rules.bind (·.forMessage m), c)

end RuleCache

end Sagas
