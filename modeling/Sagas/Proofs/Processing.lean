import Mathlib.Data.List.Forall2
import Sagas.Bus
import Sagas.Proofs.Contract

/-!
# The stages of a message under a contract

One rule for every stage of processing a message. Each reduces what the stage keeps to what its
parts keep, so that a contract of a message is proved from contracts of binding, handling and
writing one instance.

Results:
1. `keeps_each`, `keeps_onInvocation`: steps one after the other, on one invocation each.
2. `keeps_bindings`, `keeps_lookUp`, `keeps_bindNone`: the rules of a message, the values looked up
   for them, and what becomes of a saga without an instance.
3. `keeps_invoke`, `keeps_dispatch`: handlers, given what each does to its own instance.
4. `Like.put`: what changes on the way is what is bound, never the handlers.
5. `keeps_coordinate_locking`, `keeps_coordinate`: the whole, with the locks around it followed or
   left out of account.
6. `Job.keeps_program`: a message from its first request on.
-/

namespace Sagas

variable {D B σ : Type} {c : Contract B σ}

/-- The contract says nothing of locks, nor of notes. -/
structure Contract.IgnoresLocks (c : Contract B σ) : Prop where
  note : ∀ entry, c.Ignores (.note entry)
  acquire : ∀ key token, c.Ignores (.acquire key token)
  release : ∀ key, c.Ignores (.release key)

/-- What a contract of one message need not mention: locks, notes and what actions come to. -/
structure Contract.IgnoresSurroundings (c : Contract B σ) : Prop extends
    c.IgnoresActs Send.request where
  acquire : ∀ key token, c.Ignores (.acquire key token)
  release : ∀ key, c.Ignores (.release key)

theorem Contract.IgnoresSurroundings.locks (ignores : c.IgnoresSurroundings) : c.IgnoresLocks :=
  ⟨ignores.note, ignores.acquire, ignores.release⟩

/-- An instance after its handler ran. -/
def Instance.after (inst : Instance D) (v : Verdict D) : Instance D :=
  ⟨v.data, inst.isNew, inst.completed || v.completes, inst.unchanged || v.keeps⟩

namespace Invocation

theorem handler_of_saga? {i : Invocation D B} {s : Saga D B} (isSaga : i.saga? = some s) :
    i.handler = .saga s := by
  unfold Invocation.saga? Handler.saga? at isSaga
  cases handler : i.handler with
  | saga other => simp_all
  | plain name run => simp [handler] at isSaga

theorem of_instance? {i : Invocation D B} {s : Saga D B} {inst : Instance D}
    (held : i.instance? = some (s, inst)) : i.handler = .saga s ∧ i.bound = some inst := by
  unfold instance? at held
  split at held
  next saga inst' isSaga isBound =>
    cases held
    exact ⟨isSaga, isBound⟩
  next => cases held

/-! ## Handlers -/

/-- What a handler leaves of its invocation. Every verdict over a bound instance is `good`. -/
structure Handled (good : Saga D B → Instance D → Verdict D → Prop) (i j : Invocation D B) :
    Prop where
  handler : j.handler = i.handler
  skipped : j.skipped = i.skipped
  unbound : i.bound = none → j.bound = none
  bound : ∀ inst, i.bound = some inst → ∀ s, i.handler = .saga s → j.bound = some inst ∨
    ∃ v, good s inst v ∧ j.bound = some (inst.after v)

theorem Handled.refl (good : Saga D B → Instance D → Verdict D → Prop) (i : Invocation D B) :
    i.Handled good i :=
  ⟨rfl, rfl, id, fun _ same _ _ => .inl same⟩

variable {send : Send B} {context : Context} {i : Invocation D B} {s : σ}

theorem keeps_invoke_saga {saga : Saga D B} {inst : Instance D} {good : Verdict D → Prop}
    (runs : i.skipped = false) (isSaga : i.handler = .saga saga) (isBound : i.bound = some inst)
    (ignores : c.IgnoresActs send) (ends : (saga.handle i.message context inst).Ends good)
    (lives : c.dies ∨ (saga.handle i.message context inst).Lives) :
    (i.invoke send context).Keeps c s fun r t => t = s ∧ ∃ v, good v ∧
      r = ({ i with bound := some (inst.after v) }, v.outcome.mapError (.handler saga.name)) := by
  unfold invoke
  simp only [runs, isSaga, isBound]
  refine (ends.keeps lives ignores s).bind fun v t follows => ?_
  exact ⟨follows.2, v, follows.1, by rfl⟩

theorem keeps_invoke (good : Saga D B → Instance D → Verdict D → Prop) (dies : c.dies)
    (ignores : c.IgnoresActs send)
    (ends : ∀ saga inst, i.handler = .saga saga → i.bound = some inst →
      (saga.handle i.message context inst).Ends (good saga inst)) :
    (i.invoke send context).Keeps c s fun r t => t = s ∧ i.Handled good r.1 := by
  by_cases runs : i.skipped = false
  · cases handler : i.handler with
    | plain name run =>
      unfold invoke
      simp only [runs, handler]
      refine ((Act.ends_of_forall (fun _ => trivial) _).keeps (.inl dies) ignores s).bind ?_
      exact fun outcome t follows => ⟨follows.2, .refl good i⟩
    | saga saga =>
      cases bound : i.bound with
      | none =>
        unfold invoke
        simp only [runs, handler, bound]
        exact ⟨rfl, .refl good i⟩
      | some inst =>
        refine (keeps_invoke_saga runs handler bound ignores (ends saga inst handler bound)
          (.inl dies)).imp ?_
        rintro r t ⟨same, v, isGood, rfl⟩
        refine ⟨same, rfl, rfl, fun unbound => (nomatch bound.symm.trans unbound), ?_⟩
        intro other isBound saga' isSaga
        cases bound.symm.trans isBound
        cases handler.symm.trans isSaga
        exact .inr ⟨v, isGood, rfl⟩
  · unfold invoke
    simp only [Bool.not_eq_false] at runs
    simp only [runs, if_true]
    exact ⟨rfl, .refl good i⟩

/-! ## Binding an instance -/

theorem keeps_note (notes : ∀ entry, c.Ignores (.note entry)) (i : Invocation D B) (entry : Entry)
    (s : σ) : (i.note entry).Keeps c s fun _ t => t = s := by
  unfold note
  split
  next => exact Program.keeps_ignored_bind (notes _) fun _ => rfl
  next => rfl

theorem keeps_skip (notes : ∀ entry, c.Ignores (.note entry)) (i : Invocation D B) (s : σ) :
    i.skip.Keeps c s fun j t => j = { i with skipped := true } ∧ t = s :=
  (keeps_note notes i _ s).bind fun _ _ same => ⟨rfl, same⟩

/-- What is read from a document is of its data type, with its identity and its revision. -/
theorem read_eq_ok {saga : Saga D B} {document : Document} {data : D}
    (reads : read saga document = .ok data) :
    document.dataType = saga.dataType.name ∧ ∃ decoded,
      saga.dataType.decode document.body = .ok decoded ∧
        data = saga.dataType.metadata.set decoded document.metadata := by
  unfold read DataType.ofDocument at reads
  split at reads
  next typed =>
    cases decodes : saga.dataType.decode document.body with
    | error e => simp [decodes, Except.map, Except.mapError] at reads
    | ok decoded =>
      simp only [decodes, Except.map, Except.mapError, Except.ok.injEq] at reads
      exact ⟨typed, decoded, rfl, reads.symm⟩
  next => cases reads

theorem bind_eq_ok {i j : Invocation D B} {document : Document} {isNew : Bool}
    (binds : i.bind document isNew = .ok j) : ∃ saga data, i.handler = .saga saga ∧
      read saga document = .ok data ∧ j = { i with bound := some (.ofData data isNew) } := by
  unfold bind at binds
  split at binds
  next => cases binds
  next saga isSaga =>
    cases reads : read saga document with
    | error e => simp [reads, Except.map] at binds
    | ok data =>
      simp only [reads, Except.map, Except.ok.injEq] at binds
      exact ⟨saga, data, isSaga, reads, binds.symm⟩

theorem keeps_load (notes : ∀ entry, c.Ignores (.note entry)) (i : Invocation D B)
    (document : Document) (isNew : Bool) (s : σ) :
    (i.load document isNew).Keeps c s fun r t => t = s ∧
      match i.bind document isNew with
      | .ok bound => r = (bound, .ok ())
      | .error e => r = (i, .error e) := by
  unfold load
  cases i.bind document isNew with
  | ok bound => exact (keeps_note notes i _ s).bind fun _ _ same => ⟨same, rfl⟩
  | error e => exact (keeps_note notes i _ s).bind fun _ _ same => ⟨same, rfl⟩

/-- What putting values into data comes to. -/
def assigned (table : PropertyTable D) : List PropertyValue → D → D
  | [], d => d
  | p :: rest, d => assigned table rest (((table.get? p.name).bind (·.assign? p.value d)).getD d)

theorem keeps_assignAll (notes : ∀ entry, c.Ignores (.note entry)) (table : PropertyTable D)
    (sagaType : String) (values : List PropertyValue) (d : D) (s : σ) :
    (assignAll table sagaType values d).Keeps c s fun e t =>
      e = assigned table values d ∧ t = s := by
  induction values generalizing d with
  | nil => exact ⟨rfl, rfl⟩
  | cons p rest ih =>
    unfold assignAll assigned
    split
    next unknown => simpa [unknown] using ih d
    next accessor known =>
      split
      next e fits => simpa [known, fits] using ih e
      next unfit =>
        refine Program.keeps_ignored_bind (notes _) fun _ => ?_
        simpa [known, unfit] using ih d

/-- The data of a new instance. -/
def newData (saga : Saga D B) (values : List PropertyValue) (fresh : Uuid) : D :=
  assigned saga.dataType.table values
    (saga.dataType.metadata.set saga.dataType.blank ⟨fresh, .initial⟩)

theorem keeps_create {saga : Saga D B} {i : Invocation D B} {s : σ} {values : List PropertyValue}
    {post : Invocation D B × Except InvokeError Uuid → σ → Prop}
    (notes : ∀ entry, c.Ignores (.note entry)) (isSaga : i.handler = .saga saga)
    (owed : c.owes s .freshId)
    (created : ∀ fresh, c.expects s .freshId fresh →
      post ({ i with bound := some (.ofData (newData saga values fresh) true) },
        .ok (saga.dataType.id (newData saga values fresh))) (c.next s .freshId fresh)) :
    (i.create values).Keeps c s post := by
  unfold create
  rw [isSaga]
  refine Program.keeps_call_bind owed fun fresh expected => ?_
  refine (keeps_assignAll notes _ _ _ _ _).bind ?_
  rintro data t ⟨rfl, rfl⟩
  refine (keeps_note notes i _ _).bind ?_
  rintro - t rfl
  have follows := created fresh expected
  rw [isSaga] at follows
  exact follows

/-! ## Resolvers -/

/-- The invocation after the stored state `fresh` was merged into `data`. -/
def merged (i : Invocation D B) (saga : Saga D B) (inst : Instance D) (data : D)
    (fresh : Document) : Invocation D B :=
  { i with bound := some { inst with
      data := saga.dataType.metadata.set data fresh.metadata, isNew := false } }

variable {saga : Saga D B} {inst : Instance D} {fresh : Document}

theorem keeps_resolve_of_merge {post : Invocation D B × Except InvokeError Unit → σ → Prop}
    (notes : ∀ entry, c.Ignores (.note entry)) (merges : (i.merge send fresh).Keeps c s post) :
    (i.resolve send fresh).Keeps c s post :=
  merges.bind fun _ _ ended => (keeps_note notes i _ _).bind fun _ _ same => same ▸ ended

theorem keeps_resolve_unread {e : InvokeError} (notes : ∀ entry, c.Ignores (.note entry))
    (isSaga : i.handler = .saga saga) (unread : read saga fresh = .error e) :
    (i.resolve send fresh).Keeps c s fun r t => t = s ∧ r = (i, .error e) := by
  refine keeps_resolve_of_merge notes ?_
  unfold merge
  rw [isSaga]
  dsimp only
  rw [unread]
  exact ⟨rfl, rfl⟩

/-- A resolution ends as the resolver does; if that succeeds, the identity and the revision are
those of the stored state. -/
theorem keeps_resolve_read {stored : D} {good : D × Except String Unit → Prop}
    (isSaga : i.handler = .saga saga) (isBound : i.bound = some inst)
    (reads : read saga fresh = .ok stored) (ignores : c.IgnoresActs send)
    (ends : (saga.resolve i.message inst.data stored).Ends good)
    (lives : c.dies ∨ (saga.resolve i.message inst.data stored).Lives) :
    (i.resolve send fresh).Keeps c s fun r t => t = s ∧ ∃ data outcome, good (data, outcome) ∧
      r.1.handler = i.handler ∧ r.2 = outcome.mapError (.handler saga.name) ∧
      (outcome = .ok () → r.1 = i.merged saga inst data fresh) := by
  refine keeps_resolve_of_merge ignores.note ?_
  unfold merge
  simp only [isSaga, reads, isBound]
  refine (ends.keeps lives ignores s).bind ?_
  rintro ⟨data, outcome⟩ t ⟨isGood, rfl⟩
  cases outcome with
  | error reason => exact ⟨rfl, data, _, isGood, rfl, rfl, nofun⟩
  | ok done => exact ⟨rfl, data, _, isGood, rfl, rfl, fun _ => by simp [adopt, merged, isSaga]⟩

/-- A resolution by any resolver. -/
theorem keeps_resolve (dies : c.dies) (isSaga : i.handler = .saga saga)
    (isBound : i.bound = some inst) (ignores : c.IgnoresActs send) :
    (i.resolve send fresh).Keeps c s fun r t => t = s ∧ r.1.handler = i.handler ∧
      (r.2 = .ok () → ∃ data, r.1 = i.merged saga inst data fresh) := by
  cases reads : read saga fresh with
  | error e =>
    refine (keeps_resolve_unread ignores.note isSaga reads).imp ?_
    rintro r t ⟨rfl, rfl⟩
    exact ⟨rfl, rfl, nofun⟩
  | ok stored =>
    refine (keeps_resolve_read isSaga isBound reads ignores
      (Act.ends_of_forall (fun _ => trivial) _) (.inl dies)).imp ?_
    rintro r t ⟨rfl, data, outcome, -, same, answer, merges⟩
    refine ⟨rfl, same, fun succeeds => ⟨data, merges ?_⟩⟩
    rw [answer] at succeeds
    cases outcome with
    | ok => rfl
    | error reason => cases succeeds

end Invocation

namespace Stage

variable {send : Send B} {context : Context} {s : σ}

/-- Handlers one after the other; `failing` may be assumed once one of them has failed. -/
theorem keeps_dispatchAll {invocations : List (Invocation D B)}
    {left : Invocation D B → Invocation D B → Prop} {failing : Prop}
    (notes : ∀ entry, c.Ignores (.note entry)) (refl : ∀ i, left i i)
    (each : ∀ i ∈ invocations, i.skipped = false →
      (i.invoke send context).Keeps c s fun r t =>
        t = s ∧ left i r.1 ∧ ∀ e, r.2 = .error e → failing) :
    (dispatchAll send context invocations).Keeps c s fun r t =>
      t = s ∧ List.Forall₂ left invocations r.1 ∧ ∀ e, r.2 = .error e → failing := by
  induction invocations with
  | nil => exact ⟨rfl, .nil, nofun⟩
  | cons i rest ih =>
    have further := ih fun i member => each i (List.mem_cons_of_mem _ member)
    rw [dispatchAll]
    split
    next skipped =>
      refine Program.keeps_ignored_bind (notes _) fun _ => further.bind ?_
      rintro ⟨rest', answer⟩ t ⟨rfl, pairs, failed⟩
      exact ⟨rfl, .cons (refl i) pairs, failed⟩
    next runs =>
      refine (each i List.mem_cons_self (by simpa using runs)).bind ?_
      rintro ⟨i', answer⟩ t ⟨rfl, pair, failed⟩
      cases answer with
      | error e =>
        have unchanged : List.Forall₂ left rest rest := List.forall₂_same.2 fun i _ => refl i
        exact ⟨rfl, .cons pair unchanged, fun _ _ => failed e rfl⟩
      | ok _ =>
        refine further.bind ?_
        rintro ⟨rest', answer⟩ t ⟨rfl, pairs, failed⟩
        exact ⟨rfl, .cons pair pairs, failed⟩

theorem keeps_dispatch {next : Continuation D B} {m : Incoming D B}
    {post : Processed D B → σ → Prop} (left : Invocation D B → Invocation D B → Prop)
    (failing : Prop)
    (notes : ∀ entry, c.Ignores (.note entry)) (refl : ∀ i, left i i)
    (each : ∀ i ∈ m.invocations, i.skipped = false →
      (i.invoke send m.context).Keeps c s fun r t =>
        t = s ∧ left i r.1 ∧ ∀ e, r.2 = .error e → failing)
    (failed : ∀ invocations e, List.Forall₂ left m.invocations invocations → failing →
      post ({ m with invocations }, .error e) s)
    (further : ∀ invocations, List.Forall₂ left m.invocations invocations →
      (next { m with invocations }).Keeps c s post) :
    (dispatch send next m).Keeps c s post := by
  refine (keeps_dispatchAll notes refl each).bind ?_
  rintro ⟨invocations, answer⟩ t ⟨rfl, pairs, fails⟩
  cases answer with
  | error e => exact failed invocations e pairs (fails e rfl)
  | ok _ => exact further invocations pairs

end Stage

namespace Incoming

variable {send : Send B}

/-! ## Steps -/

theorem keeps_inTurn_cons {step : Continuation D B} {rest : List (Continuation D B)}
    {m : Incoming D B} {s : σ} {post : Processed D B → σ → Prop}
    (first : (step m).Keeps c s fun r t =>
      match r.2 with
      | .ok () => (inTurn rest r.1).Keeps c t post
      | .error e => post (r.1, .error e) t) :
    (inTurn (step :: rest) m).Keeps c s post := by
  refine first.bind ?_
  rintro ⟨m, answer⟩ t follows
  cases answer with
  | ok => exact follows
  | error e => exact follows

/-- What is at a place after another invocation was put somewhere. -/
theorem getElem?_put {m : Incoming D B} {index k : Nat} {i j r : Invocation D B}
    (place : m.invocations[index]? = some i) (found : (m.put index r).invocations[k]? = some j) :
    k = index ∧ j = r ∨ m.invocations[k]? = some j := by
  have inRange : index < m.invocations.length := (List.getElem?_eq_some_iff.1 place).1
  by_cases same : index = k
  · subst same
    have here : (m.put index r).invocations[index]? = some r := by simp [put, inRange]
    exact .inl ⟨rfl, Option.some.inj (found.symm.trans here)⟩
  · exact .inr (by simpa [put, same] using found)

/-- A step for every item, up to the first that fails. What holds before a step may depend on the
items that are left. -/
theorem keeps_each {α : Type} {items : List α} {step : α → Continuation D B}
    (inv : List α → Incoming D B → σ → Prop) (failed : Incoming D B → SagaError → σ → Prop)
    (each : ∀ item rest m s, inv (item :: rest) m s → (step item m).Keeps c s fun r t =>
      match r.2 with
      | .ok () => inv rest r.1 t
      | .error e => failed r.1 e t)
    {m : Incoming D B} {s : σ} (start : inv items m s) :
    (inTurn (items.map step) m).Keeps c s fun r t =>
      match r.2 with
      | .ok () => inv [] r.1 t
      | .error e => failed r.1 e t := by
  -- Over the items; the invariant speaks of those that are left.
  induction items generalizing m s with
  | nil => exact start
  | cons item rest ih =>
    refine keeps_inTurn_cons ((each item rest m s start).imp ?_)
    rintro ⟨m, answer⟩ t follows
    cases answer with
    | ok => exact ih follows
    | error e => exact follows

/-- Steps that each keep an invariant as long as they succeed. -/
theorem keeps_steps {steps : List (Continuation D B)} (inv : Incoming D B → σ → Prop)
    (each : ∀ step ∈ steps, ∀ m s, inv m s →
      (step m).Keeps c s fun r t => r.2 = .ok () → inv r.1 t)
    {m : Incoming D B} {s : σ} (start : inv m s) :
    (inTurn steps m).Keeps c s fun r t => r.2 = .ok () → inv r.1 t := by
  induction steps generalizing m s with
  | nil => exact fun _ => start
  | cons step rest ih =>
    refine keeps_inTurn_cons ((each step List.mem_cons_self m s start).imp ?_)
    rintro ⟨m, answer⟩ t kept
    cases answer with
    | ok => exact ih (fun step member => each step (List.mem_cons_of_mem _ member)) (kept rfl)
    | error e => exact nofun

theorem keeps_onInvocation {index : Nat}
    {step : Invocation D B → Program B (Invocation D B × Except SagaError Unit)}
    {m : Incoming D B} {s : σ} {post : Processed D B → σ → Prop}
    (gone : m.invocations[index]? = none → c.dies)
    (there : ∀ i, m.invocations[index]? = some i →
      (step i).Keeps c s fun r t => post (m.put index r.1, r.2) t) :
    (onInvocation index step m).Keeps c s post := by
  unfold onInvocation
  split
  next missing => exact gone missing
  next i found =>
    refine (there i found).bind ?_
    rintro ⟨i, answer⟩ t follows
    exact follows

/-! ## Rules -/

/-- A binding holds the rules of the saga invocation at its place, out of a rule set that
`answered` allows for that saga. -/
def Serves (answered : SagaType B → RuleSet B → Prop) (m : Incoming D B) (b : Binding B) : Prop :=
  ∃ i s rules, m.invocations[b.index]? = some i ∧ i.saga? = some s ∧ answered s.type rules ∧
    rules.forMessage m.message = .ok b.rules ∧ b.indexed = rules.indexed

/-! ## Messages with the same handlers -/

/-- The message with the handlers it started with. -/
structure Like (m₀ m : Incoming D B) : Prop where
  message : m.message = m₀.message
  handlers : m.invocations.map (·.handler) = m₀.invocations.map (·.handler)

theorem Like.refl (m : Incoming D B) : Like m m := ⟨rfl, rfl⟩

theorem Like.put {m₀ m : Incoming D B} (like : Like m₀ m) {index : Nat} {i j : Invocation D B}
    (place : m.invocations[index]? = some i) (same : j.handler = i.handler) :
    Like m₀ (m.put index j) := by
  refine ⟨like.message, Eq.trans ?_ like.handlers⟩
  refine List.ext_getElem? fun k => ?_
  show ((m.invocations.set index j).map (·.handler))[k]? = _
  rw [List.getElem?_map, List.getElem?_map, List.getElem?_set]
  split
  next here =>
    subst here
    have inRange : index < m.invocations.length := (List.getElem?_eq_some_iff.1 place).1
    rw [if_pos inRange, place]
    simp [same]
  next => rfl

theorem Like.served {m₀ m : Incoming D B} (like : Like m₀ m)
    {answered : SagaType B → RuleSet B → Prop} {b : Binding B} (serves : m₀.Serves answered b) :
    m.Serves answered b := by
  obtain ⟨i, s, rules, place, isSaga, known, forMessage, indexed⟩ := serves
  have handlers : (m.invocations.map (·.handler))[b.index]? = some i.handler := by
    rw [like.handlers, List.getElem?_map, place]
    rfl
  rw [List.getElem?_map] at handlers
  obtain ⟨j, place', same⟩ := Option.map_eq_some_iff.1 handlers
  refine ⟨j, s, rules, place', ?_, known, like.message ▸ forMessage, indexed⟩
  unfold Invocation.saga?
  rw [same]
  exact isSaga

/-- Bindings for places from `index` on, in order. -/
def ServesFrom (answered : SagaType B → RuleSet B → Prop) (m : Incoming D B) (index : Nat)
    (bindings : List (Binding B)) : Prop :=
  (bindings.map (·.index)).Pairwise (· < ·) ∧
    ∀ b ∈ bindings, index ≤ b.index ∧ m.Serves answered b

section ServesFrom

variable {answered : SagaType B → RuleSet B → Prop} {m : Incoming D B} {index : Nat}
  {bindings : List (Binding B)}

theorem ServesFrom.skip (served : m.ServesFrom answered (index + 1) bindings) :
    m.ServesFrom answered index bindings := by
  refine ⟨served.1, fun b member => ⟨?_, (served.2 b member).2⟩⟩
  have := (served.2 b member).1
  omega

theorem ServesFrom.cons {b : Binding B} (serves : m.Serves answered b)
    (served : m.ServesFrom answered (b.index + 1) bindings) :
    m.ServesFrom answered b.index (b :: bindings) := by
  constructor
  · rw [List.map_cons, List.pairwise_cons]
    refine ⟨fun other member => ?_, served.1⟩
    obtain ⟨b', inBindings, rfl⟩ := List.mem_map.1 member
    exact (served.2 b' inBindings).1
  · intro b' member
    rcases List.mem_cons.1 member with rfl | member
    · exact ⟨Nat.le_refl _, serves⟩
    · exact served.skip.2 b' member

end ServesFrom

theorem keeps_bindingsFrom {m : Incoming D B} {s : σ}
    (answered : SagaType B → RuleSet B → Prop)
    (next : ∀ saga reply, c.next s (.rules saga) reply = s)
    (expects : ∀ saga rules, c.expects s (.rules saga) (.ok rules) → answered saga rules)
    {index : Nat} {invocations : List (Invocation D B)}
    (owes : ∀ i ∈ invocations, ∀ saga, i.saga? = some saga → c.owes s (.rules saga.type))
    (place : ∀ k, m.invocations[index + k]? = invocations[k]?) :
    (bindingsFrom m.message index invocations).Keeps c s fun r t => t = s ∧
      ∀ bindings, r = .ok bindings → m.ServesFrom answered index bindings := by
  induction invocations generalizing index with
  | nil => simp [bindingsFrom, ServesFrom]
  | cons i rest ih =>
    have further := ih (fun i member => owes i (List.mem_cons_of_mem _ member))
      (fun k => by
        have := place (k + 1)
        rwa [show index + (k + 1) = index + 1 + k by omega] at this)
    rw [bindingsFrom]
    split
    next plain =>
      exact further.imp fun r t follows =>
        ⟨follows.1, fun bindings same => (follows.2 bindings same).skip⟩
    next saga isSaga =>
      refine Program.keeps_call_bind (owes i List.mem_cons_self saga isSaga) ?_
      intro reply expected
      rw [next]
      cases reply with
      | error e => exact ⟨rfl, nofun⟩
      | ok rules =>
        cases chosen : rules.forMessage m.message with
        | error e => simp [chosen]
        | ok forMessage =>
          simp only [chosen]
          refine further.bind fun r t follows => ?_
          obtain ⟨rfl, follows⟩ := follows
          cases r with
          | error e => exact ⟨rfl, nofun⟩
          | ok bindings =>
            refine ⟨rfl, fun all same => ?_⟩
            obtain rfl : _ = all := Except.ok.inj same
            have here : m.invocations[index]? = some i := by simpa using place 0
            have serves : m.Serves answered ⟨index, forMessage, rules.indexed⟩ :=
              ⟨i, saga, rules, here, isSaga, expects _ _ expected, chosen, rfl⟩
            exact .cons serves (follows bindings rfl)

theorem keeps_bindings {m : Incoming D B} {s : σ} (answered : SagaType B → RuleSet B → Prop)
    (next : ∀ saga reply, c.next s (.rules saga) reply = s)
    (expects : ∀ saga rules, c.expects s (.rules saga) (.ok rules) → answered saga rules)
    (owes : ∀ i ∈ m.invocations, ∀ saga, i.saga? = some saga → c.owes s (.rules saga.type)) :
    m.bindings.Keeps c s fun r t => t = s ∧
      ∀ bindings, r = .ok bindings → (bindings.map (·.index)).Pairwise (· < ·) ∧
        ∀ b ∈ bindings, m.Serves answered b := by
  refine (keeps_bindingsFrom answered next expects owes (by simp)).imp ?_
  exact fun r t follows => ⟨follows.1, fun bindings same =>
    ⟨(follows.2 bindings same).1, fun b member => ((follows.2 bindings same).2 b member).2⟩⟩

/-! ## Looking values up -/

theorem keeps_valueOf (notes : ∀ entry, c.Ignores (.note entry)) (message : Message B)
    (context : Context) (r : Rule B) (s : σ) :
    (valueOf message context r).Keeps c s fun value t =>
      value = r.value? context message ∧ t = s := by
  unfold valueOf Rule.value?
  split
  next absent => simp [absent, Reading.value?]
  next value usable => simp [usable, Reading.value?]
  next raw unusable =>
    refine Program.keeps_ignored_bind (notes _) fun _ => ?_
    simp [unusable, Reading.value?]

/-- The values that a message yields for rules, with the properties to look them up by. -/
def yields (message : Message B) (context : Context) (rules : List (Rule B)) :
    List PropertyValue :=
  rules.filterMap fun r => (r.value? context message).map fun value => ⟨r.property, value⟩

/-- What a contract says of a lookup that is done, in its terms of the last call. -/
def LookedUp (c : Contract B σ) (s : σ) (message : Message B) (context : Context)
    (tried : List PropertyValue) (rules : List (Rule B)) :
    Except StorageError (Lookup B) → σ → Prop
  | .error e, t => ∃ r ∈ rules, ∃ value, r.value? context message = some value ∧
      c.expects s (.find r.dataType r.property value) (.error e) ∧
      t = c.next s (.find r.dataType r.property value) (.error e)
  | .ok (.found r d), t => r ∈ rules ∧ ∃ value, r.value? context message = some value ∧
      c.expects s (.find r.dataType r.property value) (.ok (some d)) ∧
      t = c.next s (.find r.dataType r.property value) (.ok (some d))
  | .ok (.missed values), t => t = s ∧ values = tried ++ yields message context rules ∧
      ∀ r ∈ rules, ∀ value, r.value? context message = some value →
        c.expects s (.find r.dataType r.property value) (.ok none)

theorem LookedUp.cons {s t : σ} {message : Message B} {context : Context}
    {tried tried' : List PropertyValue} {r : Rule B} {rest : List (Rule B)}
    {result : Except StorageError (Lookup B)}
    (later : LookedUp c s message context tried' rest result t)
    (first : tried' ++ yields message context rest = tried ++ yields message context (r :: rest))
    (missed : ∀ value, r.value? context message = some value →
      c.expects s (.find r.dataType r.property value) (.ok none)) :
    LookedUp c s message context tried (r :: rest) result t := by
  rcases result with e | ⟨other, d⟩ | values
  · obtain ⟨other, member, later⟩ := later
    exact ⟨other, List.mem_cons_of_mem _ member, later⟩
  · exact ⟨List.mem_cons_of_mem _ later.1, later.2⟩
  · obtain ⟨same, listed, rest'⟩ := later
    refine ⟨same, listed.trans first, fun other member => ?_⟩
    rcases List.mem_cons.1 member with rfl | member
    · exact missed
    · exact rest' other member

theorem keeps_lookUp {message : Message B} {context : Context} {s : σ}
    (notes : ∀ entry, c.Ignores (.note entry))
    (misses : ∀ dataType property value,
      c.next s (.find dataType property value) (.ok none) = s)
    {rules : List (Rule B)}
    (owes : ∀ r ∈ rules, ∀ value, r.value? context message = some value →
      c.owes s (.find r.dataType r.property value)) (tried : List PropertyValue) :
    (lookUp message context tried rules).Keeps c s
      (LookedUp c s message context tried rules) := by
  induction rules generalizing tried with
  | nil => exact ⟨rfl, by simp [yields], nofun⟩
  | cons r rest ih =>
    have further := ih fun r member => owes r (List.mem_cons_of_mem _ member)
    refine (keeps_valueOf notes message context r s).bind ?_
    rintro value t ⟨rfl, rfl⟩
    cases yielded : r.value? context message with
    | none =>
      refine (further tried).imp fun result u later => ?_
      exact later.cons (by simp [yields, yielded]) (by simp [yielded])
    | some value =>
      refine Program.keeps_call_bind (owes r List.mem_cons_self value yielded) ?_
      intro reply expected
      rcases reply with e | _ | d
      · exact ⟨r, List.mem_cons_self, value, yielded, expected, rfl⟩
      · rw [misses]
        refine (further (tried ++ [⟨r.property, value⟩])).imp fun result u later => ?_
        refine later.cons (by simp [yields, yielded]) fun other same => ?_
        rw [yielded] at same
        exact Option.some.inj same ▸ expected
      · exact ⟨List.mem_cons_self, value, yielded, expected, rfl⟩

/-! ## Error handlers -/

/-- A miss is counted. Whatever the error handler then decides, it skips the invocation, binds a new
instance to it or leaves it as it is. -/
theorem keeps_bindNone {onMiss : MissHandler D B} {message : Message B} {rules : List (Rule B)}
    {i : Invocation D B} {s t : σ} {post : Invocation D B × Except SagaError Unit → σ → Prop}
    (notes : ∀ entry, c.Ignores (.note entry)) (owed : c.owes s (.count .correlationMiss))
    (counted : c.next s (.count .correlationMiss) () = t)
    (skips : (onMiss.react rules i message).EndsIn .skip →
      post ({ i with skipped := true }, .ok ()) t)
    (creates : ∀ values, (onMiss.react rules i message).EndsIn (.create values) →
      (i.create values).Keeps c t fun r u =>
        post (r.1, (r.2.map fun _ => ()).mapError .handler) u)
    (goesOn : (onMiss.react rules i message).EndsIn .goOn → post (i, .ok ()) t)
    (fails : ∀ e, (onMiss.react rules i message).EndsIn (.fail e) → post (i, .error e) t) :
    (bindNone onMiss message rules i).Keeps c s post := by
  refine Program.keeps_call_bind owed fun _ _ => ?_
  refine ((onMiss.notes rules i message).keeps notes .request _).bind ?_
  rintro recourse _ ⟨decided, rfl⟩
  rw [counted]
  cases recourse with
  | skip =>
    refine (Invocation.keeps_skip notes i t).bind ?_
    rintro j u ⟨rfl, rfl⟩
    exact skips decided
  | create values =>
    refine (creates values decided).bind ?_
    rintro ⟨j, answer⟩ u ended
    cases answer with
    | error e => exact ended
    | ok id => exact ended
  | goOn => exact goesOn decided
  | fail e => exact fails e decided

/-! ## Locks -/

/-- The keys of the values that a message yields for the rules of its bindings, in order. -/
def keys (m : Incoming D B) (buckets : Option Nat) (bindings : List (Binding B)) : List String :=
  Lock.normalize ((bindings.flatMap (·.rules)).filterMap fun r =>
    (r.value? m.context m.message).map fun value => Lock.key r.dataType r.property value buckets)

theorem keys_nodup (m : Incoming D B) (buckets : Option Nat) (bindings : List (Binding B)) :
    (m.keys buckets bindings).Nodup :=
  Sorted.nodup_ofList _

theorem keeps_keysOf (notes : ∀ entry, c.Ignores (.note entry)) (message : Message B)
    (context : Context) (buckets : Option Nat) (rules : List (Rule B)) (s : σ) :
    (keysOf message context buckets rules).Keeps c s fun keys t => t = s ∧
      keys = rules.filterMap fun r => (r.value? context message).map fun value =>
        Lock.key r.dataType r.property value buckets := by
  induction rules with
  | nil => exact ⟨rfl, rfl⟩
  | cons r rest ih =>
    refine (keeps_valueOf notes message context r s).bind ?_
    rintro value t ⟨yields, rfl⟩
    cases value with
    | none => simpa [← yields] using ih
    | some value =>
      refine ih.bind ?_
      rintro keys u ⟨rfl, rfl⟩
      exact ⟨rfl, by simp [← yields]⟩

theorem keeps_lockKeys (notes : ∀ entry, c.Ignores (.note entry)) (m : Incoming D B)
    (buckets : Option Nat) (bindings : List (Binding B)) (s : σ) :
    (m.lockKeys buckets bindings).Keeps c s fun keys t => t = s ∧
      keys = m.keys buckets bindings := by
  refine (keeps_keysOf notes _ _ _ _ s).bind ?_
  rintro keys t ⟨rfl, rfl⟩
  exact ⟨rfl, rfl⟩

theorem keeps_releaseAll (ignores : c.IgnoresLocks) (held : List String) (s : σ) :
    (releaseAll (B := B) held).Keeps c s fun _ t => t = s := by
  induction held with
  | nil => rfl
  | cons key earlier ih =>
    refine Program.keeps_ignored_bind (ignores.release key) fun reply => ?_
    rcases reply with e | _ | _
    · exact Program.keeps_ignored_bind (ignores.note _) fun _ => ih
    · exact Program.keeps_ignored_bind (ignores.note _) fun _ => ih
    · exact ih

/-- Taking locks leaves the contract where it is, and fails only if one of them is not given. -/
theorem keeps_acquireAll (ignores : c.IgnoresLocks) (token : CancelToken) (s : σ)
    (keys held : List String) :
    (acquireAll token held keys).Keeps c s fun r t => t = s ∧ ∀ e, r = .error e →
      ∃ key reply, c.expects s (.acquire key token) reply ∧ reply ≠ .ok true := by
  induction keys generalizing held with
  | nil => exact ⟨rfl, nofun⟩
  | cons key rest ih =>
    refine Program.keeps_call_bind ((ignores.acquire key token).owes s) fun reply expected => ?_
    rw [(ignores.acquire key token).next]
    have refuse : ∀ answer : Except SagaError (List String), reply ≠ .ok true →
        ((releaseAll (B := B) held).bind fun _ => .done answer).Keeps c s fun r t => t = s ∧
          ∀ e, r = .error e →
            ∃ key reply, c.expects s (.acquire key token) reply ∧ reply ≠ .ok true :=
      fun answer refusal => (keeps_releaseAll ignores held s).bind fun _ t same =>
        ⟨same, fun _ _ => ⟨key, reply, expected, refusal⟩⟩
    rcases reply with e | _ | _
    · exact refuse _ nofun
    · exact Program.keeps_ignored_bind (ignores.note _) fun _ => refuse _ nofun
    · exact ih (key :: held)

/-! ## The whole -/

/-- The whole, with what becomes of the locks around it. -/
theorem keeps_coordinate_locking {settings : Settings} {locking : Bool} {onMiss : MissHandler D B}
    {next : Continuation D B} {m : Incoming D B} {s : σ} {post : Processed D B → σ → Prop}
    {served : Except SagaError (List (Binding B)) → Prop}
    (notes : ∀ entry, c.Ignores (.note entry))
    (rules : m.bindings.Keeps c s fun r t => t = s ∧ served r)
    (failed : ∀ e, served (.error e) → post (m, .error e) s)
    (unbound : served (.ok []) → (next m).Keeps c s post)
    (unlocked : ∀ bindings, served (.ok bindings) → locking = false →
      (runBound send settings.maxConflictAttempts onMiss bindings next m).Keeps c s post)
    (locked : ∀ bindings, served (.ok bindings) → locking = true →
      (acquireAll m.token [] (m.keys settings.lockBuckets bindings)).Keeps c s fun r t =>
        match r with
        | .error e => post (m, .error e) t
        | .ok held =>
          (runBound send settings.maxConflictAttempts onMiss bindings next m).Keeps c t fun r u =>
            (releaseAll (B := B) held).Keeps c u fun _ v => post r v) :
    (m.coordinate settings locking onMiss send next).Keeps c s post := by
  refine rules.bind fun r t follows => ?_
  obtain ⟨rfl, follows⟩ := follows
  rcases r with e | _ | ⟨first, rest⟩
  · exact failed e follows
  · exact unbound follows
  · cases locking with
    | false => exact unlocked _ follows rfl
    | true =>
      refine (keeps_lockKeys notes m _ _ t).bind ?_
      rintro keys u ⟨rfl, rfl⟩
      refine (locked _ follows rfl).bind fun r v acquired => ?_
      cases r with
      | error e => exact acquired
      | ok held =>
        exact Program.Keeps.bind acquired fun r u released => released.bind fun _ _ ended => ended

theorem keeps_coordinate {settings : Settings} {locking : Bool} {onMiss : MissHandler D B}
    {next : Continuation D B} {m : Incoming D B} {s : σ} {post : Processed D B → σ → Prop}
    {served : Except SagaError (List (Binding B)) → Prop} (ignores : c.IgnoresSurroundings)
    (rules : m.bindings.Keeps c s fun r t => t = s ∧ served r)
    (failed : ∀ e, served (.error e) → post (m, .error e) s)
    (refused : ∀ e key reply, c.expects s (.acquire key m.token) reply → reply ≠ .ok true →
      post (m, .error e) s)
    (unbound : served (.ok []) → (next m).Keeps c s post)
    (bound : ∀ bindings, served (.ok bindings) →
      (runBound send settings.maxConflictAttempts onMiss bindings next m).Keeps c s post) :
    (m.coordinate settings locking onMiss send next).Keeps c s post := by
  refine keeps_coordinate_locking ignores.note rules failed unbound
    (fun bindings follows _ => bound bindings follows) fun bindings follows _ => ?_
  refine (keeps_acquireAll ignores.locks m.token s _ []).imp ?_
  rintro r t ⟨rfl, locked⟩
  cases r with
  | error e =>
    obtain ⟨key, reply, expected, refusal⟩ := locked e rfl
    exact refused e key reply expected refusal
  | ok held =>
    refine (bound bindings follows).imp fun r u ended => ?_
    exact (keeps_releaseAll ignores.locks held u).imp fun _ v same => same ▸ ended

end Incoming

namespace Bus

theorem keeps_runStages {bus : Bus D B} {m : Incoming D B} {s : σ}
    {post : Processed D B → σ → Prop} (notes : ∀ entry, c.Ignores (.note entry))
    (stages : (Stage.chain bus.stages .request m).Keeps c s post) :
    (bus.runStages m).Keeps c s post := by
  refine stages.bind ?_
  rintro ⟨m, answer⟩ t ended
  cases answer with
  | ok => exact ended
  | error e => exact Program.keeps_ignored_bind (notes _) fun _ => ended

end Bus

/-! ## Jobs -/

def Registry.sagas (r : Registry D B) : List (Saga D B) :=
  r.registrations.filterMap (·.handler.saga?)

theorem Registry.mem_sagas {r : Registry D B} {messageType : String} {saga : Saga D B}
    (routed : ⟨messageType, .saga saga⟩ ∈ r.registrations) : saga ∈ r.sagas :=
  List.mem_filterMap.2 ⟨_, routed, rfl⟩

/-- Only handlers registered for the type of a message see it; none is bound or skipped yet. -/
theorem Registry.start_of_mem {r : Registry D B} {message : Message B} {journaled : Bool}
    {i : Invocation D B} (member : i ∈ r.invocations message journaled) :
    ⟨message.type, i.handler⟩ ∈ r.registrations ∧ i.bound = none ∧ i.skipped = false := by
  obtain ⟨registration, isRouted, rfl⟩ := List.mem_map.1 member
  obtain ⟨registered, typed⟩ := List.mem_filter.1 isRouted
  refine ⟨?_, rfl, rfl⟩
  rw [← of_decide_eq_true typed]
  exact registered

/-- One message to process, with all that decides how. -/
structure Job (D B : Type) where
  settings : Settings
  locking : Bool
  onMiss : MissHandler D B
  registry : Registry D B
  delivery : Delivery B
  /-- Whether it is a message of the worker pool. -/
  pooled : Bool

namespace Job

def bus (job : Job D B) : Bus D B :=
  .standard job.settings job.locking job.onMiss job.registry 0

def incoming (job : Job D B) : Incoming D B :=
  if job.pooled then job.bus.incomingPooled job.delivery else job.bus.incoming job.delivery

/-- The program of the message alone, with the messages that its handlers send left as requests. -/
def program (job : Job D B) : Program B (Processed D B) :=
  job.bus.runStages job.incoming

def sagas (job : Job D B) : List (Saga D B) :=
  job.registry.sagas

theorem invocations_incoming (job : Job D B) :
    job.incoming.invocations =
      job.registry.invocations job.delivery.message (!job.pooled) := by
  unfold incoming
  cases job.pooled <;> rfl

theorem message_incoming (job : Job D B) : job.incoming.message = job.delivery.message := by
  unfold incoming
  cases job.pooled <;> rfl

theorem context_incoming (job : Job D B) : job.incoming.context = job.delivery.context := by
  unfold incoming
  cases job.pooled <;> rfl

theorem start_of_mem {job : Job D B} {i : Invocation D B}
    (member : i ∈ job.incoming.invocations) :
    i.bound = none ∧ i.skipped = false ∧
      ∀ saga, i.handler = .saga saga → saga ∈ job.sagas := by
  rw [invocations_incoming] at member
  obtain ⟨routed, unbound, runs⟩ := Registry.start_of_mem member
  exact ⟨unbound, runs, fun saga isSaga => Registry.mem_sagas (isSaga ▸ routed)⟩

theorem message_of_mem {job : Job D B} {i : Invocation D B}
    (member : i ∈ job.incoming.invocations) : i.message = job.delivery.message := by
  rw [invocations_incoming] at member
  obtain ⟨registration, -, rfl⟩ := List.mem_map.1 member
  rfl

theorem keeps_program {job : Job D B} {s : σ} {post : Processed D B → σ → Prop}
    (notes : ∀ entry, c.Ignores (.note entry))
    (stages : (job.incoming.coordinate job.settings job.locking job.onMiss .request
      (Stage.dispatch .request fun m => return (m, .ok ()))).Keeps c s post) :
    job.program.Keeps c s post :=
  Bus.keeps_runStages notes stages

end Job

end Sagas
