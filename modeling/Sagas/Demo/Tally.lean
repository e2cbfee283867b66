import Sagas.Registry

/-!
# Tallies

The smallest demonstration data: a total under a name. One saga adds the amounts that are posted to
the name, whichever message comes first, and after a lost write adds its own amount to the stored
total. Another one knows tallies by their identity alone and clears them.
-/

namespace Sagas.Demo

structure Tally where
  metadata : Metadata
  name : String
  total : Nat
  deriving DecidableEq

/-- What a message posts. -/
structure Posting where
  name : String
  amount : Nat

namespace Tally

def blank : Tally := ⟨⟨.nil, .initial⟩, "", 0⟩

def metadataLens : Lens Tally Metadata where
  get := metadata
  set d metadata := { d with metadata }

def encode (d : Tally) : Json :=
  .arr [.str d.name, .int d.total]

def decode : Json → Except Json.ReadError Tally
  | .arr [.str name, .int total] => .ok { blank with name, total := total.toNat }
  | j => .error (.wrongType j.surface "a tally")

def dataType : DataType Tally where
  name := "demo.tally"
  blank := blank
  metadata := metadataLens
  properties := PropertyTable.empty.field "Name" .string
    { get := name, set := fun d name => { d with name } }
  encode := encode
  decode := decode

/-- Adds what is posted to a name. -/
def saga (resolvesConflicts : Bool) : Saga Tally Posting where
  name := "saga.tally"
  dataType := dataType
  initiators := ["demo.post"]
  resolvesConflicts := resolvesConflicts
  rules := [.body "demo.post" "Name" .string fun posting => some (.string posting.name)]
  handle m _ inst :=
    .done ⟨{ inst.data with total := inst.data.total + m.body.amount }, false, false, .ok ()⟩
  resolve m own stored := .done ({ own with total := stored.total + m.body.amount }, .ok ())

/-- Clears the tally that is identified by the message. -/
def clearing : Saga Tally Posting where
  name := "saga.clearing"
  dataType := dataType
  initiators := []
  resolvesConflicts := false
  rules := [.context "demo.clear" identityPath .uuid fun c => some (.uuid c.id)]
  handle _ _ inst := .done ⟨{ inst.data with total := 0 }, false, false, .ok ()⟩
  resolve := Saga.refuseToResolve "saga.clearing"

def registry (resolvesConflicts : Bool) : Registry Tally Posting :=
  (Registry.empty.add "demo.post" (.saga (saga resolvesConflicts))).add "demo.clear"
    (.saga clearing)

/-- The identities of tallies, by number. -/
def number (n : Nat) : Uuid := (Uuid.ofNat? n).getD .nil

/-- Posts an amount to a name. -/
def post (name : String) (amount : Nat) : Delivery Posting :=
  ⟨⟨"demo.post", [], ⟨name, amount⟩⟩, .ofId .nil, false⟩

/-- Clears a tally. -/
def clear (id : Uuid) : Delivery Posting :=
  ⟨⟨"demo.clear", [], ⟨"", 0⟩⟩, .ofId id, false⟩

end Tally

end Sagas.Demo
