import Sagas.Proofs.Committing
import Sagas.Proofs.Plan
import Sagas.Proofs.Rules

/-!
# What a message hands to the index

Every write of a message carries the values of its instance for the paths of the sagas that the
message bound to it, and no others. So a path that only other sagas of the data type declare is
missing from the write, unless the sagas of the registry agree on their paths (`Uniform`).

Results:
1. `covers_of_group`: in a uniform registry, a group of copies has a rule for every declared path.
2. `permits`, `keeps_persist`: every write is one of the data with its own values (`Written`).
3. `Bus.keeps_indexing`: a whole message, with the messages sent in the course of it.
-/

namespace Sagas

variable {D B : Type}

/-- The saga has a rule for this path, for some message type. -/
def Saga.Declares (s : Saga D B) (path : String) : Prop :=
  ∃ rules, s.type.declaration = .ok rules ∧ ∃ r ∈ rules.rules, r.property = path

/-- The sagas of one data type agree on their paths, and sagas of different data types that see the
same messages have no path in common. -/
structure Registry.Uniform (r : Registry D B) : Prop where
  named : ∀ s ∈ r.sagas, ∀ s' ∈ r.sagas, s.name = s'.name → s.type = s'.type
  agreeing : ∀ s ∈ r.sagas, ∀ s' ∈ r.sagas, s.dataType.name = s'.dataType.name →
    ∀ path, path ≠ identityPath → s.Declares path → s'.Declares path
  apart : ∀ messageType s s', ⟨messageType, .saga s⟩ ∈ r.registrations →
    ⟨messageType, .saga s'⟩ ∈ r.registrations → s.dataType.name ≠ s'.dataType.name →
    ∀ path, path ≠ identityPath → s.Declares path → ¬ s'.Declares path

/-- In a uniform registry, the rules name every path that a saga of this data type declares. -/
def Covers (r : Registry D B) (s : Saga D B) (rules : List (Rule B)) : Prop :=
  r.Uniform → ∀ s' ∈ r.sagas, s'.dataType.name = s.dataType.name → ∀ path, path ≠ identityPath →
    s'.Declares path → ∃ rule ∈ rules, rule.dataType = s.dataType.name ∧ rule.property = path

/-- A write of data with its own values. -/
def Written (r : Registry D B) (d : Document) (values : List PropertyValue) : Prop :=
  ∃ s ∈ r.sagas, ∃ data rules, d = s.dataType.toDocument data ∧
    values = Invocation.valuesOf s data rules ∧ Covers r s rules

/-- The contract of a message with regard to the index. -/
def indexing (r : Registry D B) : Contract B Unit where
  owes _
    | .insert d values => Written r d values
    | .update d values => Written r d values
    | .rules type => ∃ s ∈ r.sagas, type = s.type
    | _ => True
  expects _
    | .rules type, .ok rules => r.Uniform → type.declaration = .ok rules
    | _, _ => True
  next _ _ _ := ()

variable {registry : Registry D B}

theorem indexing_ignores : (indexing registry).IgnoresSurroundings where
  send _ _ := ⟨trivial, fun _ _ => rfl⟩
  draw _ := ⟨fun _ => trivial, fun _ _ => rfl⟩
  note _ := ⟨fun _ => trivial, fun _ _ => rfl⟩
  shutdown := ⟨fun _ => trivial, fun _ _ => rfl⟩
  acquire _ _ := ⟨fun _ => trivial, fun _ _ => rfl⟩
  release _ := ⟨fun _ => trivial, fun _ _ => rfl⟩

theorem indexing_ignores_count (counter : Counter) :
    (indexing registry).Ignores (.count counter) :=
  ⟨fun _ => trivial, fun _ _ => rfl⟩

namespace Index

open Incoming (Like)

/-! ## The rules of a group -/

/-- The rules of a binding are those that its saga declares. -/
def Answered (registry : Registry D B) (type : SagaType B) (rules : RuleSet B) : Prop :=
  registry.Uniform → type.declaration = .ok rules

/-- The handlers are registered for the type of the message. -/
def Routed (registry : Registry D B) (m : Incoming D B) : Prop :=
  ∀ i ∈ m.invocations, ⟨m.message.type, i.handler⟩ ∈ registry.registrations

/-- What a holder brings to its group: the indexed rules of its own saga. -/
theorem saga_of_holder {m : Incoming D B} {bindings : List (Binding B)}
    (served : ∀ b ∈ bindings, m.Serves (Answered registry) b) (routed : Routed registry m)
    {id : Uuid} {index : Nat} {i : Invocation D B} {rules : List (Rule B)}
    (holder : (id, (index, i), rules) ∈ Touched.holders m.invocations bindings)
    (uniform : registry.Uniform) :
    ∃ s declared, i.handler = .saga s ∧ ⟨m.message.type, .saga s⟩ ∈ registry.registrations ∧
      s.type.declaration = .ok declared ∧ rules = declared.indexed := by
  obtain ⟨b, known, rfl, rfl, place, -, -⟩ := Touched.mem_holders.1 holder
  obtain ⟨j, s, declared, place', isSaga, answered, -, indexed⟩ := served b known
  cases place.symm.trans place'
  have handler := Invocation.handler_of_saga? isSaga
  exact ⟨s, declared, handler, handler ▸ routed i (List.mem_of_getElem? place),
    answered uniform, indexed⟩

theorem covers_of_group {m : Incoming D B} {bindings : List (Binding B)}
    (served : ∀ b ∈ bindings, m.Serves (Answered registry) b) (routed : Routed registry m)
    {id : Uuid} {index : Nat} {i : Invocation D B} {s : Saga D B}
    (copy : (index, i) ∈ (Touched.gather (Touched.holders m.invocations bindings) id).copies)
    (isSaga : i.handler = .saga s) :
    Covers registry s (Touched.gather (Touched.holders m.invocations bindings) id).rules := by
  intro uniform s' known same path other declares
  obtain ⟨rules, holder⟩ := Touched.mem_copies.1 copy
  obtain ⟨s₀, declared, handler, registered, isDeclared, rfl⟩ :=
    saga_of_holder served routed holder uniform
  cases isSaga.symm.trans handler
  -- The saga of the copy declares the path too, so some rule of the group is for it.
  obtain ⟨declared', isDeclared', r, among, named⟩ :=
    uniform.agreeing s' known s (Registry.mem_sagas registered) same path other declares
  cases isDeclared.symm.trans isDeclared'
  obtain ⟨chosen, isIndexed, names⟩ := RuleSet.indexed_covers among
  have listed : chosen ∈ ((Touched.holders m.invocations bindings).filter (·.1 = id)).flatMap
      (·.2.2) := List.mem_flatMap.2 ⟨_, List.mem_filter.2 ⟨holder, by simp⟩, isIndexed⟩
  obtain ⟨rule, isRule, named'⟩ := RuleSet.distinctPaths_covers (.inr listed)
  have isNamed : rule.property = path := named'.trans (names.trans named)
  refine ⟨rule, isRule, ?_, isNamed⟩
  -- Whoever declared that rule is of the same data type, as the path is not shared with others.
  have listed' := (RuleSet.mem_distinctPaths isRule).resolve_left List.not_mem_nil
  obtain ⟨⟨id', ⟨k, j⟩, rules'⟩, isHolder, isTheirs⟩ := List.mem_flatMap.1 listed'
  obtain ⟨s₁, declared₁, -, registered₁, isDeclared₁, rfl⟩ :=
    saga_of_holder served routed (List.mem_filter.1 isHolder).1 uniform
  have fits := Correlator.declare_eq_ok isDeclared₁ rule (RuleSet.mem_indexed isTheirs)
  by_contra differs
  refine uniform.apart m.message.type s s₁ registered registered₁ (fun same => ?_) path other
    ⟨declared, isDeclared, r, among, named⟩
    ⟨declared₁, isDeclared₁, rule, RuleSet.mem_indexed isTheirs, isNamed⟩
  exact differs (fits.1.trans same.symm)

/-! ## Writing -/

theorem keeps_write {s : Saga D B} {rules : List (Rule B)} (known : s ∈ registry.sagas)
    (covers : Covers registry s rules) (mode : Commit.Mode) (data : D) :
    (Commit.write mode (s.dataType.toDocument data) (Invocation.valuesOf s data rules)).Keeps
      (indexing registry) () fun _ _ => True := by
  have written : Written registry (s.dataType.toDocument data) (Invocation.valuesOf s data rules) :=
    ⟨s, known, data, rules, rfl, rfl, covers⟩
  cases mode with
  | insert => exact ⟨written, fun _ _ => trivial⟩
  | update => exact ⟨written, fun _ _ => trivial⟩

theorem permits {s : Saga D B} {rules : List (Rule B)} (known : s ∈ registry.sagas)
    (covers : Covers registry s rules) (mode : Commit.Mode) :
    Commit.Permits (indexing registry) s rules mode where
  toIgnoresActs := indexing_ignores.toIgnoresActs
  dies := trivial
  count counter _ := indexing_ignores_count counter
  find _ _ := trivial
  write mode' _ := keeps_write known covers mode'

/-! ## The stages of a message -/

theorem routed_of_like {m₀ m : Incoming D B} (like : Like m₀ m) (routed : Routed registry m₀) :
    Routed registry m := by
  intro i member
  have listed : i.handler ∈ m₀.invocations.map (·.handler) :=
    like.handlers ▸ List.mem_map_of_mem member
  obtain ⟨j, member', same⟩ := List.mem_map.1 listed
  rw [← same, like.message]
  exact routed j member'

/-- A step on one invocation that leaves its handler in place. -/
theorem keeps_step {m₀ m : Incoming D B} (like : Like m₀ m) {index : Nat}
    {step : Invocation D B → Program B (Invocation D B × Except SagaError Unit)}
    (keeps : ∀ i, m.invocations[index]? = some i →
      (step i).Keeps (indexing registry) () (Commit.SameHandler i)) :
    (Incoming.onInvocation index step m).Keeps (indexing registry) () fun r _ => Like m₀ r.1 :=
  Incoming.keeps_onInvocation (fun _ => trivial) fun i place =>
    (keeps i place).imp fun _ _ same => like.put place same

theorem keeps_create (i : Invocation D B) (values : List PropertyValue) :
    (i.create values).Keeps (indexing registry) () (Commit.SameHandler i) := by
  have ignores : (indexing registry).IgnoresSurroundings := indexing_ignores
  cases handler : i.handler with
  | plain name run =>
    unfold Invocation.create
    rw [handler]
    rfl
  | saga s => exact Invocation.keeps_create ignores.note handler trivial fun _ _ => rfl

theorem keeps_bindOne {onMiss : MissHandler D B} {message : Message B} {context : Context}
    {rules : List (Rule B)} (i : Invocation D B) :
    (Incoming.bindOne onMiss message context rules i).Keeps (indexing registry) ()
      (Commit.SameHandler i) := by
  have ignores : (indexing registry).IgnoresSurroundings := indexing_ignores
  refine (Incoming.keeps_lookUp ignores.note (fun _ _ _ => rfl) (fun _ _ _ _ => trivial) []).bind ?_
  intro result _ _
  rcases result with e | ⟨r, d⟩ | values
  · rfl
  · refine (Invocation.keeps_load ignores.note i d false ()).bind ?_
    rintro ⟨j, answer⟩ _ ⟨-, loads⟩
    cases bind : i.bind d false with
    | error e =>
      rw [bind] at loads
      cases loads
      rfl
    | ok bound =>
      rw [bind] at loads
      cases loads
      obtain ⟨saga, data, isSaga, -, rfl⟩ := Invocation.bind_eq_ok bind
      refine Program.keeps_ignored_bind (indexing_ignores_count _) fun _ => ?_
      exact Program.keeps_ignored_bind (ignores.note _) fun _ => rfl
  · show (ite _ _ _ : Program B _).Keeps _ _ _
    split
    next =>
      refine (keeps_create i values).bind ?_
      rintro ⟨j, answer⟩ _ same
      cases answer with
      | error e => exact same
      | ok fresh =>
        refine Program.keeps_ignored_bind (indexing_ignores_count _) fun _ => ?_
        exact Program.keeps_ignored_bind (ignores.note _) fun _ => same
    next =>
      exact Incoming.keeps_bindNone ignores.note trivial rfl (fun _ => rfl)
        (fun values _ => keeps_create i values) (fun _ => rfl) (fun _ _ => rfl)

/-- Steps that each leave the handlers in place. -/
theorem keeps_steps {m₀ m : Incoming D B} {steps : List (Continuation D B)} (like : Like m₀ m)
    (each : ∀ step ∈ steps, ∀ m, Like m₀ m →
      (step m).Keeps (indexing registry) () fun r _ => Like m₀ r.1) :
    (Incoming.inTurn steps m).Keeps (indexing registry) () fun r _ => Like m₀ r.1 := by
  induction steps generalizing m with
  | nil => exact like
  | cons step rest ih =>
    refine Incoming.keeps_inTurn_cons ((each step List.mem_cons_self m like).imp ?_)
    rintro ⟨m, answer⟩ _ like
    cases answer with
    | ok => exact ih like fun step member => each step (List.mem_cons_of_mem _ member)
    | error e => exact like

theorem keeps_bindAll {onMiss : MissHandler D B} {bindings : List (Binding B)} {m₀ m : Incoming D B}
    (like : Like m₀ m) :
    (Incoming.bindAll onMiss bindings m).Keeps (indexing registry) () fun r _ => Like m₀ r.1 := by
  refine keeps_steps like fun step member m like => ?_
  obtain ⟨b, -, rfl⟩ := List.mem_map.1 member
  exact keeps_step like fun i _ => keeps_bindOne i

theorem keeps_handlers {m₀ m : Incoming D B} (like : Like m₀ m) :
    (Stage.dispatch .request (fun m => return (m, .ok ())) m).Keeps (indexing registry) ()
      fun r _ => Like m₀ r.1 := by
  have ignores : (indexing registry).IgnoresSurroundings := indexing_ignores
  have pairs : ∀ {before after : List (Invocation D B)},
      List.Forall₂ (Invocation.Handled fun _ _ _ => True) before after →
        after.map (·.handler) = before.map (·.handler) := by
    intro before after pairs
    induction pairs with
    | nil => rfl
    | cons pair _ ih => simp [pair.handler, ih]
  refine Stage.keeps_dispatch (Invocation.Handled fun _ _ _ => True) True ignores.note
    (Invocation.Handled.refl _) ?_ ?_ ?_
  · intro i _ _
    refine (Invocation.keeps_invoke (fun _ _ _ => True) trivial ignores.toIgnoresActs ?_).imp ?_
    · exact fun _ _ _ _ => Act.ends_of_forall (fun _ => trivial) _
    · exact fun r _ left => ⟨left.1, left.2, fun _ _ => trivial⟩
  · exact fun invocations _ left _ => ⟨like.message, (pairs left).trans like.handlers⟩
  · exact fun invocations left => ⟨like.message, (pairs left).trans like.handlers⟩

/-- A copy of a group is written by its own saga, with the rules of the group. -/
theorem keeps_written {maxAttempts : Nat} {bindings : List (Binding B)} {m₀ m m' : Incoming D B}
    {t : Touched D B} {index : Nat} {i : Invocation D B} {mode : Commit.Mode} (like : Like m₀ m)
    (like' : Like m₀ m') (served : ∀ b ∈ bindings, m₀.Serves (Answered registry) b)
    (routed : Routed registry m₀) (group : t ∈ Touched.groups m.invocations bindings)
    (copy : (index, i) ∈ t.copies) :
    (Incoming.onInvocation index (Commit.persist .request maxAttempts t.rules mode) m').Keeps
      (indexing registry) () fun r _ => Like m₀ r.1 := by
  obtain ⟨first, -, rfl⟩ := Touched.mem_groups.1 group
  obtain ⟨rules, holder⟩ := Touched.mem_copies.1 copy
  obtain ⟨b, known, rfl, -, place, -, holds⟩ := Touched.mem_holders.1 holder
  obtain ⟨j, s, -, place', isSaga, -⟩ := like.served (served b known)
  cases place.symm.trans place'
  have handler := Invocation.handler_of_saga? isSaga
  have registered : ⟨m.message.type, .saga s⟩ ∈ registry.registrations :=
    handler ▸ routed_of_like like routed i (List.mem_of_getElem? place)
  have covers := covers_of_group (fun b known => like.served (served b known))
    (routed_of_like like routed) copy handler
  refine keeps_step like' fun k place'' => ?_
  have same : k.handler = i.handler := by
    have := congrArg (·[b.index]?) (like'.handlers.trans like.handlers.symm)
    simpa [place, place''] using this
  exact (permits (Registry.mem_sagas registered) covers mode).keeps_persist (same.trans handler)
    maxAttempts

theorem keeps_persist {maxAttempts : Nat} {bindings : List (Binding B)} {m₀ m : Incoming D B}
    (like : Like m₀ m) (served : ∀ b ∈ bindings, m₀.Serves (Answered registry) b)
    (routed : Routed registry m₀) :
    (Incoming.persist .request maxAttempts bindings m).Keeps (indexing registry) ()
      fun r _ => Like m₀ r.1 := by
  have ignores : (indexing registry).IgnoresSurroundings := indexing_ignores
  refine Incoming.keeps_persist ignores.note (indexing_ignores_count _) ?_
  refine keeps_steps like fun step member m' like' => ?_
  rw [WritePlan.ofGroups_eq] at member
  rcases List.mem_append.1 member with changed | deleted
  · rcases List.mem_append.1 changed with inserted | updated
    · obtain ⟨⟨index, rules⟩, planned, rfl⟩ := List.mem_map.1 inserted
      obtain ⟨t, group, planned⟩ := List.mem_flatMap.1 planned
      obtain ⟨index, among, same⟩ := List.mem_map.1 planned
      cases same
      obtain ⟨-, i, copy, -⟩ := Touched.mem_inserts.1 among
      exact keeps_written like like' served routed group copy
    · obtain ⟨⟨index, rules⟩, planned, rfl⟩ := List.mem_map.1 updated
      obtain ⟨t, group, planned⟩ := List.mem_flatMap.1 planned
      obtain ⟨index, among, same⟩ := List.mem_map.1 planned
      cases same
      obtain ⟨-, i, copy, -⟩ := Touched.mem_updates.1 among
      exact keeps_written like like' served routed group copy
  · obtain ⟨index, -, rfl⟩ := List.mem_map.1 deleted
    exact keeps_step like' fun i _ => (Commit.keeps_delete ignores.note indexing_ignores_count
      fun _ _ => trivial).bind fun _ _ _ => rfl

theorem keeps_coordinate {settings : Settings} {locking : Bool} {onMiss : MissHandler D B}
    {m : Incoming D B} (routed : Routed registry m) :
    (m.coordinate settings locking onMiss .request
      (Stage.dispatch .request fun m => return (m, .ok ()))).Keeps (indexing registry) ()
        fun _ _ => True := by
  have ignores : (indexing registry).IgnoresSurroundings := indexing_ignores
  refine Incoming.keeps_coordinate ignores (Incoming.keeps_bindings (Answered registry)
    (fun _ _ => rfl) (fun _ _ answered => answered) ?_) ?_ ?_ ?_ ?_
  · intro i member saga isSaga
    have registered := routed i member
    rw [Invocation.handler_of_saga? isSaga] at registered
    exact ⟨saga, Registry.mem_sagas registered, rfl⟩
  · exact fun _ _ => trivial
  · exact fun _ _ _ _ _ => trivial
  · exact fun _ => (keeps_handlers (.refl m)).imp fun _ _ _ => trivial
  · intro bindings served
    refine Incoming.keeps_inTurn_cons ((keeps_bindAll (.refl m)).imp ?_)
    rintro ⟨m₁, answer⟩ _ like
    cases answer with
    | error e => trivial
    | ok =>
      refine Incoming.keeps_inTurn_cons ((keeps_handlers like).imp ?_)
      rintro ⟨m₂, answer⟩ _ like
      cases answer with
      | error e => trivial
      | ok =>
        refine Incoming.keeps_inTurn_cons
          ((keeps_persist like (served bindings rfl).2 routed).imp ?_)
        rintro ⟨m₃, answer⟩ _ like
        cases answer with
        | error e => trivial
        | ok => trivial

end Index

namespace Bus

variable {settings : Settings} {locking : Bool} {onMiss : MissHandler D B} {nesting : Nat}

theorem keeps_indexing_alone (delivery : Delivery B) :
    let bus := standard settings locking onMiss registry nesting
    (bus.runStages (bus.incoming delivery)).Keeps (indexing registry) () fun _ _ => True :=
  Bus.keeps_runStages indexing_ignores.note
    (Index.keeps_coordinate fun _ member => (Registry.start_of_mem member).1)

/-- Messages that handlers send are processed like any other. -/
theorem keeps_indexing_sendAt (depth : Nat) (delivery : Delivery B) :
    ((standard settings locking onMiss registry nesting).sendAt depth delivery).Keeps
      (indexing registry) () fun _ _ => True := by
  induction depth generalizing delivery with
  | zero => trivial
  | succ depth ih =>
    refine (Program.Keeps.inline (fun delivery _ _ => ?_) (keeps_indexing_alone delivery)).bind
      fun _ _ _ => trivial
    exact (ih delivery).imp fun _ _ _ => ⟨trivial, rfl⟩

theorem keeps_indexing (delivery : Delivery B) :
    ((standard settings locking onMiss registry nesting).process delivery).Keeps
      (indexing registry) () fun _ _ => True :=
  .inline (fun delivery _ _ => (keeps_indexing_sendAt nesting delivery).imp fun _ _ _ =>
    ⟨trivial, rfl⟩) (keeps_indexing_alone delivery)

end Bus

end Sagas
