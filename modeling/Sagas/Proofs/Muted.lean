import Sagas.Proofs.Course
import Sagas.Proofs.Plan

/-!
# Messages without handlers

Once the handlers of a message have run, nothing runs them again: conflicts are resolved by what
sagas have for that, and instances are written as the handlers have left them. So whatever a message
does from then on, it does as well if its handlers are taken out.

Results:
1. `groups_mute`, `ofGroups_mute`: the same is planned.
2. `persist_mute`, `delete_mute`: each write is the same, with all its rounds.
3. `left_mute`: so is all that is left of a message.
-/

namespace Sagas

variable {D B : Type}

/-! ## Taking handlers out -/

/-- The saga with a handler that must not run. -/
def Saga.mute (s : Saga D B) : Saga D B :=
  { s with handle := fun _ _ _ => .panic }

def Handler.mute : Handler D B → Handler D B
  | .saga s => .saga s.mute
  | .plain name _ => .plain name fun _ _ => .panic

def Invocation.mute (i : Invocation D B) : Invocation D B :=
  { i with handler := i.handler.mute }

def Incoming.mute (m : Incoming D B) : Incoming D B :=
  { m with invocations := m.invocations.map (·.mute) }

namespace Invocation

variable {send : Send B} (i : Invocation D B) (fresh : Document)

@[simp] theorem name_mute : i.mute.name = i.name := by
  cases handler : i.handler <;> simp [name, mute, handler, Handler.mute, Handler.name, Saga.mute]

@[simp] theorem id?_mute : i.mute.id? = i.id? := by
  cases handler : i.handler <;> cases bound : i.bound <;>
    simp [id?, instance?, mute, handler, bound, Handler.mute, Saga.mute]

@[simp] theorem document?_mute : i.mute.document? = i.document? := by
  cases handler : i.handler <;> cases bound : i.bound <;>
    simp [document?, instance?, mute, handler, bound, Handler.mute, Saga.mute]

@[simp] theorem values_mute (rules : List (Rule B)) : i.mute.values rules = i.values rules := by
  cases handler : i.handler <;> cases bound : i.bound <;>
    simp [values, instance?, noSagaData, mute, handler, bound, Handler.mute, Saga.mute, valuesOf,
      name, Handler.name]

@[simp] theorem resolvesConflicts_mute : i.mute.resolvesConflicts = i.resolvesConflicts := by
  cases handler : i.handler <;>
    simp [resolvesConflicts, saga?, mute, handler, Handler.mute, Handler.saga?, Saga.mute]

theorem adopt_mute (m : Metadata) : i.mute.adopt m = (i.adopt m).mute := by
  cases handler : i.handler <;> cases bound : i.bound <;>
    simp [adopt, mute, handler, bound, Handler.mute, Saga.mute]

theorem merge_mute : i.mute.merge send fresh = Prod.map mute id <$> i.merge send fresh := by
  obtain ⟨handler, message, bound, skipped, journaled⟩ := i
  cases handler with
  | plain name run => rfl
  | saga saga =>
    have same : read saga.mute fresh = read saga fresh := rfl
    cases found : read saga fresh with
    | error e =>
      simp only [merge, mute, Handler.mute, same, found]
      rfl
    | ok stored =>
      cases bound with
      | none =>
        simp only [merge, mute, Handler.mute, same, found]
        rfl
      | some inst =>
        simp only [merge, mute, Handler.mute, same, found, map_bind]
        refine congrArg (_ >>= ·) (funext fun merged => ?_)
        obtain ⟨data, outcome⟩ := merged
        cases outcome <;> rfl

theorem resolve_mute : i.mute.resolve send fresh = Prod.map mute id <$> i.resolve send fresh := by
  unfold resolve
  rw [merge_mute, bind_map_left, map_bind]
  refine congrArg (_ >>= ·) (funext fun merged => ?_)
  rw [name_mute]
  show (note i _ >>= _) = Prod.map mute id <$> (note i _ >>= _)
  rw [map_bind]
  rfl

end Invocation

/-! ## Writes -/

namespace Commit

open Invocation

variable {send : Send B} {rules : List (Rule B)} {attempt : Nat} {mode : Mode}

/-- Two ways to go on that differ in the handlers only. -/
def Alike (again again' : Option (Invocation D B → Program B (Outcome D B))) : Prop :=
  Option.Rel (fun more more' => ∀ i, more' i.mute = Prod.map mute id <$> more i) again again'

theorem resolveConflict_mute {again again' : Invocation D B → Program B (Outcome D B)}
    (alike : ∀ i, again' i.mute = Prod.map mute id <$> again i) (document : Document)
    (values : List PropertyValue) (i : Invocation D B) :
    resolveConflict send attempt mode document values again' i.mute =
      Prod.map mute id <$> resolveConflict send attempt mode document values again i := by
  unfold resolveConflict
  rw [map_bind]
  refine congrArg (_ >>= ·) (funext fun found => ?_)
  rcases found with e | _ | fresh
  · rfl
  · simp only [name_mute]
    rfl
  · dsimp only
    rw [resolve_mute, bind_map_left, map_bind]
    refine congrArg (_ >>= ·) (funext fun resolved => ?_)
    obtain ⟨merged, answer⟩ := resolved
    cases answer with
    | error e => rfl
    | ok =>
      simp only [Prod.map, id, name_mute, alike, map_bind]

theorem round_mute {again again' : Option (Invocation D B → Program B (Outcome D B))}
    (alike : Alike again again') (i : Invocation D B) :
    round send rules attempt mode again' i.mute =
      Prod.map mute id <$> round send rules attempt mode again i := by
  unfold round
  rw [document?_mute, values_mute]
  split
  next document values _ _ =>
    rw [map_bind]
    refine congrArg (_ >>= ·) (funext fun reply => ?_)
    rcases reply with (reason | reason | e) | stored
    · simp only [afterConflict, name_mute, resolvesConflicts_mute, map_bind]
      refine congrArg (_ >>= ·) (funext fun _ => congrArg (_ >>= ·) (funext fun _ => ?_))
      split
      next =>
        cases alike with
        | none =>
          rw [map_bind]
          rfl
        | some alike => exact resolveConflict_mute alike _ _ i
      next => rfl
    · rfl
    · rfl
    · dsimp only
      rw [map_bind, adopt_mute]
      rfl
  next =>
    rw [noSagaData, name_mute]
    rfl

theorem rounds_mute (more : Nat) (i : Invocation D B) :
    rounds send rules more attempt mode i.mute =
      Prod.map mute id <$> rounds send rules more attempt mode i := by
  induction more generalizing attempt mode i with
  | zero => exact round_mute .none i
  | succ more ih => exact round_mute (.some fun i => ih i) i

theorem persist_mute (maxAttempts : Nat) (i : Invocation D B) :
    persist send maxAttempts rules mode i.mute =
      Prod.map mute id <$> persist send maxAttempts rules mode i :=
  rounds_mute _ i

theorem delete_mute (i : Invocation D B) : delete i.mute = delete i := by
  unfold delete
  rw [document?_mute]
  simp only [name_mute, noSagaData]

end Commit

/-! ## Plans -/

namespace Touched

open Invocation

variable (invocations : List (Invocation D B)) (bindings : List (Binding B))

def mute (t : Touched D B) : Touched D B :=
  { t with copies := t.copies.map fun copy => (copy.1, copy.2.mute) }

def Holder.mute (h : Holder D B) : Holder D B :=
  (h.1, (h.2.1.1, h.2.1.2.mute), h.2.2)

theorem holders_mute : holders (invocations.map (·.mute)) bindings =
    (holders invocations bindings).map Holder.mute := by
  induction bindings with
  | nil => rfl
  | cons b rest ih =>
    rw [holders, holders, List.getElem?_map, ih]
    cases invocations[b.index]? with
    | none => rfl
    | some i =>
      dsimp only [Option.map_some]
      rw [id?_mute]
      show (if i.skipped then _ else _) = List.map _ (if i.skipped then _ else _)
      split
      next => rfl
      next => cases i.id? <;> rfl

theorem gather_mute (all : List (Holder D B)) (id : Uuid) :
    gather (all.map Holder.mute) id = (gather all id).mute := by
  have own : (all.map Holder.mute).filter (·.1 = id) = (all.filter (·.1 = id)).map Holder.mute :=
    List.filter_map ..
  simp only [gather, mute, own, List.map_map, List.flatMap_map]
  rfl

theorem groups_mute : groups (invocations.map (·.mute)) bindings =
    (groups invocations bindings).map mute := by
  have identities : ((holders invocations bindings).map Holder.mute).map (·.1) =
      (holders invocations bindings).map (·.1) := by
    rw [List.map_map]
    rfl
  rw [groups_eq, groups_eq, holders_mute, identities, List.map_map]
  exact List.map_congr_left fun id _ => gather_mute _ id

theorem fate_mute (t : Touched D B) : t.mute.fate = t.fate := by
  have first : t.mute.copies.find? (·.2.isCompleted) =
      (t.copies.find? (·.2.isCompleted)).map fun copy => (copy.1, copy.2.mute) :=
    List.find?_map ..
  have kept : ∀ chosen : Bool → Bool → Bool,
      t.mute.copies.filter (fun copy => chosen copy.2.isUnchanged copy.2.isNew) =
        (t.copies.filter fun copy => chosen copy.2.isUnchanged copy.2.isNew).map
          fun copy => (copy.1, copy.2.mute) :=
    fun _ => List.filter_map ..
  unfold fate
  rw [first]
  cases t.copies.find? (·.2.isCompleted) with
  | some copy => rfl
  | none =>
    dsimp only [Option.map_none]
    simp only [List.partition_eq_filter_filter, List.filter_filter, Function.comp_apply]
    rw [kept fun unchanged _ => !unchanged, kept fun unchanged new => new && !unchanged,
      kept fun unchanged new => !new && !unchanged]
    simp only [List.isEmpty_map, List.map_map, Function.comp_def]

theorem announce_mute (t : Touched D B) : t.mute.announce = t.announce := by
  unfold announce
  rw [fate_mute]
  rfl

end Touched

theorem WritePlan.ofGroups_mute (groups : List (Touched D B)) :
    ofGroups (groups.map Touched.mute) = ofGroups groups := by
  simp only [ofGroups_eq, List.flatMap_map, Touched.fate_mute]
  rfl

/-! ## Messages -/

namespace Incoming

variable {send : Send B} {steps : List (Continuation D B)}

theorem onInvocation_mute {index : Nat}
    {step : Invocation D B → Program B (Invocation D B × Except SagaError Unit)}
    (alike : ∀ i, step i.mute = Prod.map Invocation.mute id <$> step i) (m : Incoming D B) :
    onInvocation index step m.mute = Prod.map mute id <$> onInvocation index step m := by
  unfold onInvocation
  have place : m.mute.invocations[index]? = m.invocations[index]?.map (·.mute) :=
    List.getElem?_map
  rw [place]
  cases m.invocations[index]? with
  | none => rfl
  | some i =>
    dsimp only [Option.map_some]
    rw [alike, bind_map_left, map_bind]
    refine congrArg (_ >>= ·) (funext fun r => ?_)
    show Program.done (m.mute.put index r.1.mute, r.2) = .done ((m.put index r.1).mute, r.2)
    simp [put, mute, List.map_set]

theorem inTurn_mute
    (alike : ∀ step ∈ steps, ∀ m, step (mute m) = Prod.map mute id <$> step m) (m : Incoming D B) :
    inTurn steps m.mute = Prod.map mute id <$> inTurn steps m := by
  induction steps generalizing m with
  | nil => rfl
  | cons step rest ih =>
    obtain ⟨first, others⟩ := List.forall_mem_cons.1 alike
    rw [inTurn, inTurn, first, bind_map_left, map_bind]
    refine congrArg (_ >>= ·) (funext fun r => ?_)
    obtain ⟨m, answer⟩ := r
    cases answer with
    | error e => rfl
    | ok => exact ih others m

theorem writes_mute {maxAttempts : Nat} {p : WritePlan B} :
    ∀ step ∈ writes send maxAttempts p, ∀ m : Incoming D B,
      step m.mute = Prod.map mute id <$> step m := by
  intro step member m
  simp only [writes, List.mem_append, List.mem_map] at member
  rcases member with (⟨⟨place, rules⟩, -, rfl⟩ | ⟨⟨place, rules⟩, -, rfl⟩) | ⟨place, -, rfl⟩
  · exact onInvocation_mute (Commit.persist_mute maxAttempts) m
  · exact onInvocation_mute (Commit.persist_mute maxAttempts) m
  · refine onInvocation_mute (fun i => ?_) m
    rw [Commit.delete_mute, map_bind]
    rfl

theorem persist_mute {maxAttempts : Nat} (bindings : List (Binding B)) (m : Incoming D B) :
    persist send maxAttempts bindings m.mute =
      Prod.map mute id <$> persist send maxAttempts bindings m := by
  have announces : ∀ groups : List (Touched D B),
      (groups.map Touched.mute).forM Touched.announce = groups.forM Touched.announce := by
    intro groups
    induction groups with
    | nil => rfl
    | cons t rest ih =>
      show (t.mute.announce >>= fun _ => (rest.map Touched.mute).forM Touched.announce) =
        (t.announce >>= fun _ => rest.forM Touched.announce)
      rw [Touched.announce_mute, ih]
  unfold persist
  rw [show m.mute.invocations = m.invocations.map (·.mute) from rfl, Touched.groups_mute]
  dsimp only
  rw [announces, WritePlan.ofGroups_mute, map_bind]
  exact congrArg (_ >>= ·) (funext fun _ => inTurn_mute writes_mute m)

end Incoming

/-- What is left of a message once its handlers have come to this answer. -/
def Job.left (job : Job D B) (bindings : List (Binding B)) (held : List String)
    (m : Incoming D B) : Except SagaError Unit → Program B (Processed D B)
  | .ok () => job.write bindings m >>= finish held
  | .error e => finish held (m, .error e)

/-- What is left of a message is the same if no handler can run. -/
theorem Job.left_mute (job : Job D B) (bindings : List (Binding B)) (held : List String)
    (m : Incoming D B) (answer : Except SagaError Unit) :
    job.left bindings held m.mute answer =
      Prod.map Incoming.mute id <$> job.left bindings held m answer := by
  have finishes : ∀ r : Processed D B, finish held (Prod.map Incoming.mute id r) =
      Prod.map Incoming.mute id <$> finish held r := by
    rintro ⟨m, answer⟩
    unfold finish
    rw [map_bind]
    refine congrArg (_ >>= ·) (funext fun _ => ?_)
    cases answer <;> rfl
  cases answer with
  | error e => exact finishes (m, .error e)
  | ok =>
    show (Incoming.persist _ _ bindings m.mute >>= finish held) =
      Prod.map Incoming.mute id <$> (Incoming.persist _ _ bindings m >>= finish held)
    rw [Incoming.persist_mute, bind_map_left, map_bind]
    exact congrArg (_ >>= ·) (funext finishes)

end Sagas
