import Sagas.Proofs.Rules
import Sagas.Proofs.Stages

/-!
# How a saga is bound

A saga looks the values of its rules up in their order. The first one with a match decides; without
one, a message that may start the saga does so; and if it may not, the error handler is asked. Which
of the three it is depends on the store alone, and is counted.

Results:
1. `keeps_lookUp_looking`: looking up comes to the earliest match.
2. `keeps_bindOne_looking`: one saga is bound in exactly one way.
3. `keeps_bindAll_looking`: all sagas of a message are, up to the first that fails.
4. `BoundOnce.skipped_iff`: who is skipped.
5. `revision_newData`: new instances are at the initial revision.
6. `Job.Prepared.binds`: what binding comes to, for every message.
-/

namespace Sagas

variable {D B : Type}

/-! ## Looking up in a store -/

/-- The earliest of these rules that yields a value under which something is stored. -/
def Store.match? (s : Store) (message : Message B) (context : Context) (rules : List (Rule B)) :
    Option (Rule B × Document) :=
  rules.findSome? fun r => do
    let value ← r.value? context message
    let document ← s.find r.dataType r.property value
    return (r, document)

/-- A lookup is answered by this store. -/
def Exchange.LooksIn (s : Store) : Exchange B → Prop
  | ⟨.find dataType property value, reply⟩ => reply = .ok (s.find dataType property value)
  | _ => True

def Exchange.counter? : Exchange B → Option Counter
  | ⟨.count counter, _⟩ => some counter
  | _ => none

/-- The contract that counts what is counted while lookups are answered by this store. -/
def looking (s : Store) : Contract B (List Counter) where
  owes _ _ := True
  expects _ request reply := (⟨request, reply⟩ : Exchange B).LooksIn s
  next counters request reply :=
    counters ++ (⟨request, reply⟩ : Exchange B).counter?.toList
  dies := False

variable {s : Store} {counters : List Counter}

theorem looking_note (entry : Entry) : (looking (B := B) s).Ignores (.note entry) :=
  ⟨fun _ => trivial, fun _ _ => List.append_nil _⟩

/-- What is counted, in order. -/
def countsOf (past : List (Exchange B)) : List Counter :=
  (past.filterMap (·.counter?)).reverse

theorem after_looking (past : List (Exchange B)) : (looking s).after [] past = countsOf past := by
  induction past with
  | nil => rfl
  | cons x earlier ih =>
    show (looking s).after [] earlier ++ x.counter?.toList = _
    rw [ih, countsOf, countsOf, List.filterMap_cons]
    cases x.counter? <;> simp

theorem met_looking {past : List (Exchange B)} (looks : ∀ x ∈ past, x.LooksIn s) :
    (looking s).Met counters past := by
  induction past with
  | nil => trivial
  | cons x earlier ih =>
    obtain ⟨first, others⟩ := List.forall_mem_cons.1 looks
    exact ⟨ih others, first⟩

namespace Incoming

variable {message : Message B} {context : Context}

theorem keeps_lookUp_looking (rules : List (Rule B)) (tried : List PropertyValue) :
    (lookUp message context tried rules).Keeps (looking s) counters fun result t =>
      t = counters ∧ result = .ok (match s.match? message context rules with
        | some (r, d) => .found r d
        | none => .missed (tried ++ yields message context rules)) := by
  induction rules generalizing tried with
  | nil => exact ⟨rfl, by simp [Store.match?, yields]⟩
  | cons r rest ih =>
    refine (keeps_valueOf looking_note message context r counters).bind ?_
    rintro value t ⟨rfl, rfl⟩
    cases yielded : r.value? context message with
    | none =>
      refine (ih tried).imp fun result t ended => ⟨ended.1, ended.2.trans ?_⟩
      simp [Store.match?, yields, yielded]
    | some value =>
      refine ⟨trivial, fun reply answered => ?_⟩
      obtain rfl : reply = .ok (s.find r.dataType r.property value) := answered
      show Program.Keeps _ _ (t ++ []) _
      rw [List.append_nil]
      cases found : s.find r.dataType r.property value with
      | none =>
        refine (ih (tried ++ [⟨r.property, value⟩])).imp fun result t ended => ?_
        refine ⟨ended.1, ended.2.trans ?_⟩
        simp [Store.match?, yields, yielded, found]
      | some d =>
        refine ⟨rfl, ?_⟩
        simp [Store.match?, yielded, found]

end Incoming

/-! ## One saga -/

/-- Whatever the rules can find in the store, the saga can read. -/
def Saga.Reads (saga : Saga D B) (s : Store) (rules : List (Rule B)) : Prop :=
  ∀ r ∈ rules, ∀ value d, s.find r.dataType r.property value = some d →
    ∃ data, Invocation.read saga d = .ok data

/-- The bodies of all stored documents of the saga's data type can be decoded. -/
def Saga.Decodes (saga : Saga D B) (s : Store) : Prop :=
  ∀ id row, s.row? saga.dataType.name id = some row →
    (saga.dataType.decode row.document.body).isOk = true

theorem Saga.Decodes.reads {saga : Saga D B} {rules : List (Rule B)} (decodes : saga.Decodes s)
    (kept : s.Consistent) (fit : ∀ r ∈ rules, saga.dataType.Fits r) : saga.Reads s rules := by
  intro r among value d found
  obtain ⟨typed, row, present, rfl⟩ := kept.find_some found
  rw [(fit r among).1] at typed present
  have decoded := decodes _ row present
  cases body : saga.dataType.decode row.document.body with
  | error e => simp [body, Except.isOk, Except.toBool] at decoded
  | ok x =>
    refine ⟨saga.dataType.metadata.set x row.document.metadata, ?_⟩
    simp [Invocation.read, DataType.ofDocument, typed, body, Except.map, Except.mapError]

/-- What becomes of an invocation for which an error handler has decided on this. -/
def Recourse.Leaves (recourse : Recourse) (i j : Invocation D B) (answer : Except SagaError Unit) :
    Prop :=
  match recourse with
  | .skip => j = { i with skipped := true } ∧ answer = .ok ()
  | .create values => answer = .ok () ∧ ∃ saga fresh, i.handler = .saga saga ∧
      j = { i with bound := some (.ofData (Invocation.newData saga values fresh) true) }
  | .goOn => j = i ∧ answer = .ok ()
  | .fail e => j = i ∧ answer = .error e

/-- What an error handler makes of a saga with no instance that may not start one. -/
def MissHandler.Leaves (onMiss : MissHandler D B) (message : Message B) (rules : List (Rule B))
    (i j : Invocation D B) (answer : Except SagaError Unit) : Prop :=
  ∃ recourse, (onMiss.react rules i message).EndsIn recourse ∧ recourse.Leaves i j answer

namespace Invocation

/-- The way in which a saga is bound by these rules, with what is counted, what becomes of the
invocation and how it ends. -/
inductive BoundBy (s : Store) (onMiss : MissHandler D B) (message : Message B) (context : Context)
    (rules : List (Rule B)) (i : Invocation D B) :
    Counter → Invocation D B → Except SagaError Unit → Prop
  /-- An instance is stored under a value, the earliest that is one. -/
  | loaded {saga : Saga D B} {r : Rule B} {d : Document} {data : D} :
      s.match? message context rules = some (r, d) → i.handler = .saga saga →
      read saga d = .ok data →
      BoundBy s onMiss message context rules i .loaded
        { i with bound := some (.ofData data false) } (.ok ())
  /-- None is, and the message may start one. -/
  | started {saga : Saga D B} {fresh : Uuid} :
      s.match? message context rules = none → message.hierarchy.any i.isInitiatedBy = true →
      i.handler = .saga saga →
      BoundBy s onMiss message context rules i .created { i with
        bound := some (.ofData (newData saga (Incoming.yields message context rules) fresh) true) }
        (.ok ())
  /-- None is, and the message may not start one. -/
  | missed {j : Invocation D B} {answer : Except SagaError Unit} :
      s.match? message context rules = none → message.hierarchy.any i.isInitiatedBy = false →
      onMiss.Leaves message rules i j answer →
      BoundBy s onMiss message context rules i .correlationMiss j answer

variable {onMiss : MissHandler D B} {message : Message B} {context : Context}
  {rules : List (Rule B)} {i j : Invocation D B} {saga : Saga D B} {counter : Counter}
  {answer : Except SagaError Unit} {e : SagaError}

theorem BoundBy.handler (bound : i.BoundBy s onMiss message context rules counter j answer) :
    j.handler = i.handler := by
  cases bound with
  | loaded | started => rfl
  | missed _ _ leaves =>
    obtain ⟨recourse, -, leaves⟩ := leaves
    cases recourse with
    | skip | goOn | fail => exact leaves.1 ▸ rfl
    | create values =>
      obtain ⟨-, saga, fresh, -, rfl⟩ := leaves
      rfl

/-- Binding fails by the error handler alone, and leaves the invocation as it was. -/
theorem BoundBy.of_error (bound : i.BoundBy s onMiss message context rules counter j (.error e)) :
    counter = .correlationMiss ∧ j = i ∧ (onMiss.react rules i message).EndsIn (.fail e) := by
  cases bound with
  | missed _ _ leaves =>
    obtain ⟨recourse, decided, leaves⟩ := leaves
    cases recourse with
    | skip | goOn => cases leaves.2
    | create => cases leaves.1
    | fail =>
      cases leaves.2
      exact ⟨rfl, leaves.1, decided⟩

theorem keeps_create_looking (isSaga : i.handler = .saga saga) (values : List PropertyValue) :
    (i.create values).Keeps (looking s) counters fun r t => t = counters ∧
      (∃ id, r.2 = .ok id) ∧
        ∃ fresh, r.1 = { i with bound := some (.ofData (newData saga values fresh) true) } :=
  keeps_create looking_note isSaga trivial fun fresh _ =>
    ⟨List.append_nil _, ⟨_, rfl⟩, fresh, rfl⟩

/-- The document of a match is one that its rule finds. -/
theorem exists_find_of_match? {r : Rule B} {d : Document}
    (isMatch : s.match? message context rules = some (r, d)) :
    r ∈ rules ∧ ∃ value, s.find r.dataType r.property value = some d := by
  obtain ⟨r', among, yields⟩ := List.exists_of_findSome?_eq_some isMatch
  obtain ⟨value, -, yields⟩ := Option.bind_eq_some_iff.1 yields
  obtain ⟨d', found, same⟩ := Option.bind_eq_some_iff.1 yields
  cases same
  exact ⟨among, value, found⟩

/-- A saga is bound in exactly one way, and the error handler is asked only if it is not in
another. -/
theorem keeps_bindOne_looking (isSaga : i.handler = .saga saga) (reads : saga.Reads s rules) :
    (Incoming.bindOne onMiss message context rules i).Keeps (looking s) counters fun r t =>
      ∃ counter, t = counters ++ [counter] ∧
        i.BoundBy s onMiss message context rules counter r.1 r.2 := by
  refine (Incoming.keeps_lookUp_looking rules []).bind ?_
  rintro result t ⟨rfl, rfl⟩
  cases isMatch : s.match? message context rules with
  | some found =>
    obtain ⟨r, d⟩ := found
    obtain ⟨among, value, finds⟩ := exists_find_of_match? isMatch
    obtain ⟨data, read⟩ := reads r among value d finds
    have binds : i.bind d false = .ok { i with bound := some (.ofData data false) } := by
      simp [Invocation.bind, isSaga, read, Except.map]
    refine (keeps_load looking_note i d false t).bind ?_
    rintro result t' ⟨rfl, loads⟩
    rw [binds] at loads
    obtain rfl := loads
    refine ⟨trivial, fun _ _ => ?_⟩
    refine Program.keeps_ignored_bind (looking_note _) fun _ => ?_
    exact ⟨.loaded, rfl, .loaded isMatch isSaga read⟩
  | none =>
    show (ite _ _ _ : Program B _).Keeps _ _ _
    split
    next starts =>
      refine (keeps_create_looking isSaga _).bind ?_
      rintro ⟨j, answer⟩ t' ⟨rfl, ⟨id, rfl⟩, fresh, rfl⟩
      refine ⟨trivial, fun _ _ => ?_⟩
      refine Program.keeps_ignored_bind (looking_note _) fun _ => ?_
      exact ⟨.created, rfl, .started isMatch starts isSaga⟩
    next refused =>
      have refused : message.hierarchy.any i.isInitiatedBy = false := by simpa using refused
      have asked {j : Invocation D B} {answer : Except SagaError Unit} {recourse : Recourse}
          (decided : (onMiss.react rules i message).EndsIn recourse)
          (leaves : recourse.Leaves i j answer) : ∃ counter,
            (looking (B := B) s).next t (.count .correlationMiss) () = t ++ [counter] ∧
              i.BoundBy s onMiss message context rules counter j answer :=
        ⟨.correlationMiss, rfl, .missed isMatch refused ⟨recourse, decided, leaves⟩⟩
      refine Incoming.keeps_bindNone looking_note trivial rfl (asked · ⟨rfl, rfl⟩)
        (fun values decided => ?_) (asked · ⟨rfl, rfl⟩) fun e decided => asked decided ⟨rfl, rfl⟩
      refine (keeps_create_looking isSaga values).imp ?_
      rintro ⟨j, answer⟩ t' ⟨rfl, ⟨id, rfl⟩, fresh, rfl⟩
      exact asked decided ⟨rfl, saga, fresh, isSaga, rfl⟩

end Invocation

/-! ## All sagas of a message -/

namespace Incoming

variable {onMiss : MissHandler D B} {m m₀ : Incoming D B} {bindings : List (Binding B)}

/-- These sagas of a message have been bound, one way each, and nothing else has changed. -/
structure BoundOnce (s : Store) (onMiss : MissHandler D B) (m₀ : Incoming D B)
    (reached : List (Binding B)) (counters : List Counter) (now : Incoming D B) : Prop where
  message : now.message = m₀.message
  context : now.context = m₀.context
  each : List.Forall₂ (fun b counter => ∃ i j, m₀.invocations[b.index]? = some i ∧
    now.invocations[b.index]? = some j ∧
    i.BoundBy s onMiss m₀.message m₀.context b.rules counter j (.ok ())) reached counters
  others : ∀ place, place ∉ reached.map (·.index) →
    now.invocations[place]? = m₀.invocations[place]?

theorem BoundOnce.put {reached : List (Binding B)} {b : Binding B} {counter : Counter}
    {i j : Invocation D B} (once : BoundOnce s onMiss m₀ reached counters m)
    (apart : b.index ∉ reached.map (·.index)) (place : m.invocations[b.index]? = some i)
    (bound : i.BoundBy s onMiss m₀.message m₀.context b.rules counter j (.ok ())) :
    BoundOnce s onMiss m₀ (reached ++ [b]) (counters ++ [counter]) (m.put b.index j) where
  message := once.message
  context := once.context
  each := by
    refine List.rel_append ?_ (.cons ?_ .nil)
    · refine List.forall₂_iff_get.2 ⟨once.each.length_eq, fun k first second => ?_⟩
      obtain ⟨i', j', here, now, bound'⟩ := (List.forall₂_iff_get.1 once.each).2 k first second
      have differ : b.index ≠ reached[k].index := fun same =>
        apart (same ▸ List.mem_map_of_mem (List.getElem_mem first))
      exact ⟨i', j', here, by simpa [Incoming.put, differ] using now, bound'⟩
    · have inRange := (List.getElem?_eq_some_iff.1 place).1
      exact ⟨i, j, (once.others _ apart).symm.trans place, by simp [Incoming.put, inRange], bound⟩
  others place outside := by
    rw [List.map_append, List.mem_append, not_or] at outside
    have differ : b.index ≠ place := fun same => outside.2 (by simp [same])
    rw [← once.others place outside.1]
    simp [Incoming.put, differ]

/-- What binding the sagas of a message comes to: all of them are bound, or one of them is missed
and fails the message. -/
def BindsInOrder (s : Store) (onMiss : MissHandler D B) (m₀ : Incoming D B)
    (bindings : List (Binding B)) (counters : List Counter) (r : Processed D B) : Prop :=
  match r.2 with
  | .ok () => BoundOnce s onMiss m₀ bindings counters r.1
  | .error e => ∃ reached b left earlier i, bindings = reached ++ b :: left ∧
      counters = earlier ++ [.correlationMiss] ∧ BoundOnce s onMiss m₀ reached earlier r.1 ∧
      m₀.invocations[b.index]? = some i ∧
      i.BoundBy s onMiss m₀.message m₀.context b.rules .correlationMiss i (.error e)

theorem keeps_bindAll_looking (distinct : (bindings.map (·.index)).Nodup)
    (reads : ∀ b ∈ bindings, ∃ i saga, m₀.invocations[b.index]? = some i ∧
      i.handler = .saga saga ∧ saga.Reads s b.rules) :
    (bindAll onMiss bindings m₀).Keeps (looking s) [] fun r counters =>
      BindsInOrder s onMiss m₀ bindings counters r := by
  refine (keeps_each
    (fun left now counters => ∃ reached, bindings = reached ++ left ∧
      BoundOnce s onMiss m₀ reached counters now)
    (fun now e counters => BindsInOrder s onMiss m₀ bindings counters (now, .error e)) ?_ ?_).imp ?_
  · rintro b left now counters ⟨reached, rfl, once⟩
    have apart : b.index ∉ reached.map (·.index) := by
      rw [List.map_append, List.map_cons] at distinct
      exact fun before => List.disjoint_of_nodup_append distinct before List.mem_cons_self
    obtain ⟨i, saga, place, isSaga, reads⟩ := reads b (by simp)
    have now_place : now.invocations[b.index]? = some i := (once.others _ apart).trans place
    refine keeps_onInvocation (fun missing => nomatch now_place.symm.trans missing) ?_
    intro i' place'
    cases now_place.symm.trans place'
    refine (Invocation.keeps_bindOne_looking isSaga reads).imp ?_
    rintro ⟨j, answer⟩ _ ⟨counter, rfl, bound⟩
    cases answer with
    | error e =>
      obtain ⟨rfl, rfl, -⟩ := bound.of_error
      exact ⟨reached, b, left, counters, j, rfl, rfl, (put_same now_place).symm ▸ once, place,
        bound⟩
    | ok => exact ⟨reached ++ [b], by simp, once.put apart now_place bound⟩
  · exact ⟨[], rfl, rfl, rfl, .nil, fun _ _ => rfl⟩
  · rintro ⟨now, answer⟩ counters ended
    cases answer with
    | error e => exact ended
    | ok =>
      obtain ⟨reached, same, once⟩ := ended
      rw [List.append_nil] at same
      exact same ▸ once

section Places

variable {now : Incoming D B} {reached : List (Binding B)} {r : Processed D B}
  {counters : List Counter} {place : Nat} {j : Invocation D B}

/-- What is at a place: an invocation that has been bound, or the one that was there. -/
theorem BoundOnce.at_place (once : BoundOnce s onMiss m₀ reached counters now)
    (here : now.invocations[place]? = some j) :
    (place ∉ reached.map (·.index) ∧ m₀.invocations[place]? = some j) ∨
      ∃ b ∈ reached, b.index = place ∧ ∃ counter i, m₀.invocations[place]? = some i ∧
        i.BoundBy s onMiss m₀.message m₀.context b.rules counter j (.ok ()) := by
  by_cases member : place ∈ reached.map (·.index)
  · obtain ⟨b, among, rfl⟩ := List.mem_map.1 member
    obtain ⟨k, within, rfl⟩ := List.getElem_of_mem among
    have within' := once.each.length_eq ▸ within
    obtain ⟨i, j', first, bound, way⟩ := (List.forall₂_iff_get.1 once.each).2 k within within'
    cases here.symm.trans bound
    exact .inr ⟨_, among, rfl, _, i, first, way⟩
  · exact .inl ⟨member, (once.others place member).symm.trans here⟩

theorem BindsInOrder.once (binds : BindsInOrder s onMiss m₀ bindings counters r) :
    ∃ reached counters, BoundOnce s onMiss m₀ reached counters r.1 := by
  obtain ⟨now, answer⟩ := r
  cases answer with
  | ok => exact ⟨_, _, binds⟩
  | error e =>
    obtain ⟨reached, _, _, earlier, _, -, -, once, -⟩ := binds
    exact ⟨reached, earlier, once⟩

/-- The saga at this place finds no instance in the store, and the message may not start one. -/
def Misses (m : Incoming D B) (s : Store) (bindings : List (Binding B)) (place : Nat) : Prop :=
  ∃ b ∈ bindings, b.index = place ∧ s.match? m.message m.context b.rules = none ∧
    ∃ i, m.invocations[place]? = some i ∧ m.message.hierarchy.any i.isInitiatedBy = false

/-- If such sagas are skipped, nothing fails. -/
theorem BindsInOrder.succeeds (binds : BindsInOrder s .logAndSkip m₀ bindings counters r) :
    r.2 = .ok () := by
  obtain ⟨now, answer⟩ := r
  cases answer with
  | ok => rfl
  | error e =>
    obtain ⟨_, _, _, _, _, -, -, -, -, way⟩ := binds
    cases way.of_error.2.2

/-- Just those sagas are skipped. -/
theorem BoundOnce.skipped_iff (once : BoundOnce s .logAndSkip m₀ bindings counters now)
    (distinct : (bindings.map (·.index)).Nodup) (start : ∀ i ∈ m₀.invocations, i.skipped = false)
    (here : now.invocations[place]? = some j) :
    j.skipped = true ↔ m₀.Misses s bindings place := by
  rcases once.at_place here with ⟨outside, first⟩ | ⟨b, among, rfl, counter, i, first, way⟩
  · rw [start j (List.mem_of_getElem? first)]
    refine iff_of_false nofun ?_
    rintro ⟨b, among, rfl, -⟩
    exact outside (List.mem_map_of_mem among)
  · have runs := start i (List.mem_of_getElem? first)
    -- Another binding of this place would be the same one.
    have only : m₀.Misses s bindings b.index → s.match? m₀.message m₀.context b.rules = none ∧
        m₀.message.hierarchy.any i.isInitiatedBy = false := by
      rintro ⟨b', among', same, none, i', first', refused⟩
      obtain rfl := List.inj_on_of_nodup_map distinct among' among same
      cases first.symm.trans first'
      exact ⟨none, refused⟩
    cases way with
    | loaded isMatch => exact iff_of_false (by simp [runs]) fun misses =>
        nomatch isMatch.symm.trans (only misses).1
    | started none starts => exact iff_of_false (by simp [runs]) fun misses =>
        nomatch starts.symm.trans (only misses).2
    | missed none refused leaves =>
      obtain ⟨_, rfl, rfl, -⟩ := leaves
      exact iff_of_true rfl ⟨b, among, rfl, none, i, first, refused⟩

end Places

end Incoming

/-! ## New instances -/

/-- No path reaches the revision. -/
def DataType.KeepsRevision (t : DataType D) : Prop :=
  ∀ path a, t.table.get? path = some a → ∀ d x, t.revision (a.field.set d x) = t.revision d

/-- A new instance is at the initial revision, whatever its values. -/
theorem DataType.KeepsRevision.revision_newData {saga : Saga D B}
    (keeps : saga.dataType.KeepsRevision) (values : List PropertyValue) (fresh : Uuid) :
    saga.dataType.revision (Invocation.newData saga values fresh) = .initial := by
  have assigned : ∀ (values : List PropertyValue) d,
      saga.dataType.revision (Invocation.assigned saga.dataType.table values d) =
        saga.dataType.revision d := by
    intro values
    induction values with
    | nil => exact fun _ => rfl
    | cons p rest ih =>
      intro d
      rw [Invocation.assigned, ih]
      cases known : saga.dataType.table.get? p.name with
      | none => rfl
      | some a =>
        rw [Option.bind_some, Accessor.assign?]
        cases p.value.coerceTo a.kind with
        | none => rfl
        | some x => exact keeps p.name a known d x
  rw [Invocation.newData, assigned, DataType.revision, saga.dataType.metadata.get_set]

/-- An instance that is new has been made for this message. -/
theorem Invocation.BoundBy.exists_newData {i j : Invocation D B} {onMiss : MissHandler D B}
    {message : Message B} {context : Context} {rules : List (Rule B)} {counter : Counter}
    {answer : Except SagaError Unit} {saga : Saga D B} {inst : Instance D}
    (way : i.BoundBy s onMiss message context rules counter j answer) (unbound : i.bound = none)
    (isSaga : j.handler = .saga saga) (isBound : j.bound = some inst) (isNew : inst.isNew = true) :
    ∃ values fresh, inst.data = newData saga values fresh := by
  have same := way.handler
  cases way with
  | loaded =>
    cases isBound
    cases isNew
  | @started saga' fresh _ _ isSaga' =>
    cases isSaga'.symm.trans isSaga
    cases isBound
    exact ⟨_, fresh, rfl⟩
  | missed _ _ leaves =>
    obtain ⟨recourse, -, leaves⟩ := leaves
    cases recourse with
    | skip | goOn | fail =>
      obtain ⟨rfl, -⟩ := leaves
      cases unbound.symm.trans isBound
    | create values =>
      obtain ⟨-, saga', fresh, isSaga', rfl⟩ := leaves
      cases isSaga'.symm.trans isSaga
      cases isBound
      exact ⟨_, fresh, rfl⟩

/-! ## Messages -/

/-- Lookups are answered by this store, the rest in any way. -/
def Store.AnswersLookups {τ : Type} (s : Store) (answer : Program.Answering B τ) : Prop :=
  ∀ dataType property value w,
    (answer (.find dataType property value) w).1 = .ok (s.find dataType property value)

/-- What binding the sagas of a message comes to over this store, with what it counts. -/
structure Job.BoundOver (job : Job D B) (bindings : List (Binding B)) (s : Store)
    (counters : List Counter) (r : Processed D B) : Prop where
  ways : Incoming.BindsInOrder s job.onMiss job.incoming bindings counters r
  initial : ∀ j ∈ r.1.invocations, ∀ saga inst, j.handler = .saga saga → j.bound = some inst →
    inst.isNew = true → saga.dataType.KeepsRevision →
      saga.dataType.revision inst.data = .initial
  /-- If sagas without an instance are skipped, just they are, and nothing fails. -/
  skips : job.onMiss = .logAndSkip → r.2 = .ok () ∧ ∀ place j, r.1.invocations[place]? = some j →
    (j.skipped = true ↔ job.incoming.Misses s bindings place)

namespace Job

variable {job : Job D B} {bindings : List (Binding B)} {held : List String}
  {past : List (Exchange B)} {τ : Type} {answer : Program.Answering B τ}

/-- Each saga of the message can read what its rules find. -/
def Reads (job : Job D B) (bindings : List (Binding B)) (s : Store) : Prop :=
  ∀ b ∈ bindings, ∀ i saga, job.incoming.invocations[b.index]? = some i →
    i.handler = .saga saga → saga.Reads s b.rules

/-- They can by the rules that they declare, if the store can be decoded. -/
theorem Prepared.reads (prepared : job.Prepared bindings held past) (kept : s.Consistent)
    (declared : ∀ saga rules, ⟨.rules saga, .ok rules⟩ ∈ past → saga.declaration = .ok rules)
    (decodes : ∀ saga ∈ job.sagas, saga.Decodes s) : job.Reads bindings s := by
  intro b among i saga place isSaga
  obtain ⟨served, -⟩ := prepared.served (List.Subset.refl past)
  obtain ⟨i', saga', rules, place', isSaga', answered, chosen, -⟩ := served.serves b among
  cases place.symm.trans place'
  cases (Invocation.handler_of_saga? isSaga').symm.trans isSaga
  have routed := (start_of_mem (List.mem_of_getElem? place)).2.2 saga isSaga
  refine (decodes saga routed).reads kept fun r member => ?_
  have listed := RuleSet.mem_of_forMessage chosen member
  exact Correlator.declare_eq_ok (declared _ rules answered) r listed

theorem boundOver {counters : List Counter} {r : Processed D B}
    (distinct : (bindings.map (·.index)).Nodup)
    (binds : Incoming.BindsInOrder s job.onMiss job.incoming bindings counters r) :
    job.BoundOver bindings s counters r where
  ways := binds
  initial j member saga inst isSaga isBound isNew keeps := by
    obtain ⟨reached, earlier, once⟩ := binds.once
    obtain ⟨place, here⟩ := List.getElem?_of_mem member
    rcases once.at_place here with ⟨-, first⟩ | ⟨b, -, -, counter, i, first, way⟩
    · cases (start_of_mem (List.mem_of_getElem? first)).1.symm.trans isBound
    · have unbound := (start_of_mem (List.mem_of_getElem? first)).1
      obtain ⟨values, fresh, same⟩ := way.exists_newData unbound isSaga isBound isNew
      rw [same]
      exact keeps.revision_newData values fresh
  skips isSkip := by
    rw [isSkip] at binds
    have succeeds := binds.succeeds
    obtain ⟨now, answer⟩ := r
    obtain rfl : answer = .ok () := succeeds
    exact ⟨rfl, fun place j here => Incoming.BoundOnce.skipped_iff binds distinct
      (fun i member => (start_of_mem member).2.1) here⟩

/-- Binding comes to an end over a store whose documents can be read. -/
theorem Prepared.binds (prepared : job.Prepared bindings held past) (reads : job.Reads bindings s)
    (looks : s.AnswersLookups answer) (w : τ) : ∃ r v late,
      (job.bind bindings job.incoming).run (Program.traced answer) (w, []) = (some r, v, late) ∧
        job.BoundOver bindings s (countsOf late) r := by
  obtain ⟨served, -⟩ := prepared.served (List.Subset.refl past)
  have keeps : (job.bind bindings job.incoming).Keeps (looking s) [] fun r counters =>
      Incoming.BindsInOrder s job.onMiss job.incoming bindings counters r := by
    refine Incoming.keeps_bindAll_looking served.nodup fun b among => ?_
    obtain ⟨i, saga, rules, place, isSaga, -⟩ := served.serves b among
    have isSaga := Invocation.handler_of_saga? isSaga
    exact ⟨i, saga, place, isSaga, reads b among i saga place isSaga⟩
  have looksIn : ∀ x ∈ ((job.bind bindings job.incoming).run (Program.traced answer)
      (w, [])).2.2, x.LooksIn s := by
    intro x member
    obtain ⟨u, same⟩ := Program.reply_of_trace answer member
    obtain ⟨request, reply⟩ := x
    cases request with
    | find dataType property value => exact same.trans (looks dataType property value u)
    | _ => trivial
  obtain ⟨r, ends, binds⟩ := keeps.of_trace id answer (w := w) (met_looking looksIn)
  rw [after_looking] at binds
  generalize ran : (job.bind bindings job.incoming).run (Program.traced answer) (w, []) = result
    at ends binds
  obtain ⟨_, v, late⟩ := result
  obtain rfl := ends
  exact ⟨r, v, late, rfl, boundOver served.nodup binds⟩

end Job

end Sagas
