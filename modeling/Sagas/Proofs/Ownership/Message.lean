import Sagas.Proofs.Committing
import Sagas.Proofs.Plan

/-!
# What a message may write

Receipts follow the documents that a message receives: those that its sagas are bound to, and those
that are merged after a lost write. The target of a write is read off the data of an instance, after
its handler ran and again after every merge. So a handler may turn a write against another identity,
whereas a resolver may not: what it leaves adopts the identity of the document that was merged.

Results:
1. `keeps_rounds`, `keeps_delete`: every write of an instance has an allowed target.
2. `keeps_bindAll`, `keeps_handlers`, `keeps_persist`: so does every write of a message.
3. `Job.keeps_owning`: a message writes what it has received, or what a handler has gone over to.
4. `keeps_home`: an instance that was loaded is written under its own identity.
-/

namespace Sagas

structure Receipts where
  /-- What the last successful lookup found. -/
  pending : Option Document
  /-- What sagas were bound to, the latest first. -/
  loaded : List Document
  /-- What was merged after lost writes, the latest first. -/
  merged : List Document

namespace Receipts

variable {B : Type}

def none : Receipts := ⟨.none, [], []⟩

/-- A document that was found is received once binding it, or resolving the conflict, is
counted. -/
def next (a : Receipts) : (request : Request B) → Reply request → Receipts
  | .find .., .ok (some d) => { a with pending := some d }
  | .count .loaded, _ => { a with loaded := a.pending.toList ++ a.loaded }
  | .count .conflictResolved, _ => { a with merged := a.pending.toList ++ a.merged }
  | _, _ => a

/-- The instance of this identity was received. -/
def Holds (a : Receipts) (dataType : String) (id : Uuid) : Prop :=
  ∃ d, (d ∈ a.loaded ∨ d ∈ a.merged) ∧ d.dataType = dataType ∧ d.id = id

/-- Nothing that was received is missing. -/
def Within (a b : Receipts) : Prop :=
  a.loaded ⊆ b.loaded ∧ a.merged ⊆ b.merged

theorem Within.refl (a : Receipts) : a.Within a :=
  ⟨List.Subset.refl _, List.Subset.refl _⟩

theorem Within.trans {a b c : Receipts} (first : a.Within b) (second : b.Within c) : a.Within c :=
  ⟨List.Subset.trans first.1 second.1, List.Subset.trans first.2 second.2⟩

theorem Within.holds {a b : Receipts} (within : a.Within b) {dataType : String} {id : Uuid}
    (holds : a.Holds dataType id) : b.Holds dataType id := by
  obtain ⟨d, received, named⟩ := holds
  exact ⟨d, received.imp (within.1 ·) (within.2 ·), named⟩

theorem within_next (a : Receipts) (request : Request B) (reply : Reply request) :
    a.Within (a.next request reply) := by
  unfold next
  split
  next => exact .refl a
  next => exact ⟨List.subset_append_right _ _, List.Subset.refl _⟩
  next => exact ⟨List.Subset.refl _, List.subset_append_right _ _⟩
  next => exact .refl a

end Receipts

/-- The contract of programs that update and delete only what is allowed, given the receipts so far,
and that may or may not insert. -/
def writing {B : Type} (allowed : Receipts → Document → Prop) (inserts : Prop) :
    Contract B Receipts where
  owes a
    | .insert .. => inserts
    | .update d _ => allowed a d
    | .delete d => allowed a d
    | _ => True
  expects _
    | .find dataType property value, .ok (some d) => d.dataType = dataType ∧
        ∀ id, property = identityPath → value = .uuid id → d.id = id
    | .update d _, .ok stored => stored.id = d.id
    | _, _ => True
  next := Receipts.next

variable {D B : Type} {allowed : Receipts → Document → Prop} {inserts : Prop}
  {goals : Uuid → Prop} {a b : Receipts}

theorem writing_ignores : (writing (B := B) allowed inserts).IgnoresSurroundings where
  send _ _ := ⟨trivial, fun _ _ => rfl⟩
  draw _ := ⟨fun _ => trivial, fun _ _ => rfl⟩
  note _ := ⟨fun _ => trivial, fun _ _ => rfl⟩
  shutdown := ⟨fun _ => trivial, fun _ _ => rfl⟩
  acquire _ _ := ⟨fun _ => trivial, fun _ _ => rfl⟩
  release _ := ⟨fun _ => trivial, fun _ _ => rfl⟩

/-- Counting anything but what the receipts follow. -/
theorem writing_ignores_count {counter : Counter} (other : counter ≠ .loaded)
    (another : counter ≠ .conflictResolved) :
    (writing (B := B) allowed inserts).Ignores (.count counter) where
  owes _ := trivial
  next a reply := by
    show a.next (.count counter) reply = a
    cases counter <;> first | rfl | contradiction

theorem writing_grows {α : Type} {p : Program B α} {post : α → Receipts → Prop}
    (keeps : p.Keeps (writing allowed inserts) a post) :
    p.Keeps (writing allowed inserts) a fun r b => post r b ∧ a.Within b :=
  keeps.grows Receipts.Within.refl Receipts.Within.trans Receipts.within_next

/-- What is allowed stays so, and an allowed instance may go over to the goals. -/
structure Lawful (goals : Uuid → Prop) (allowed : Receipts → Document → Prop) : Prop where
  within : ∀ {a b d}, a.Within b → allowed a d → allowed b d
  moves : ∀ {a d e}, d.dataType = e.dataType → e.id = d.id ∨ goals e.id → allowed a d → allowed a e

/-- Whatever was received may be written. -/
def Receives (allowed : Receipts → Document → Prop) : Prop :=
  ∀ a d, d ∈ a.loaded ∨ d ∈ a.merged → allowed a d

/-- The message has received the instance, or its identity is one of these. -/
def received (goals : Uuid → Prop) (a : Receipts) (d : Document) : Prop :=
  a.Holds d.dataType d.id ∨ goals d.id

/-- The identity that the instance was loaded under, or one of these. -/
def atHome (home : Document) (goals : Uuid → Prop) (_ : Receipts) (d : Document) : Prop :=
  d.dataType = home.dataType ∧ (d.id = home.id ∨ goals d.id)

theorem lawful_received : Lawful goals (received goals) where
  within within := Or.imp_left within.holds
  moves typed moved allowed := by
    rcases moved with same | reached
    · unfold received at allowed ⊢
      rwa [← typed, same]
    · exact .inr reached

theorem receives_received : Receives (received goals) :=
  fun _ d member => .inl ⟨d, member, rfl, rfl⟩

theorem lawful_atHome {home : Document} : Lawful goals (atHome home goals) where
  within _ := id
  moves typed moved allowed := by
    refine ⟨typed.symm.trans allowed.1, ?_⟩
    rcases moved with same | reached
    · exact same ▸ allowed.2
    · exact .inr reached

/-- The contract of a message that writes what it has received, or what its handlers have gone over
to. -/
abbrev owning {B : Type} (goals : Uuid → Prop) : Contract B Receipts :=
  writing (received goals) True

/-- The handler gives an instance no identity but its own or one of these. -/
def Saga.MovesTo (s : Saga D B) (message : Message B) (context : Context) (goals : Uuid → Prop) :
    Prop :=
  ∀ inst, (s.handle message context inst).Ends fun v =>
    s.dataType.id v.data = s.dataType.id inst.data ∨ goals (s.dataType.id v.data)

namespace Ownership

/-! ## Writing one instance -/

/-- What the invocation holds may be written over what is stored. -/
def Writable (allowed : Receipts → Document → Prop) (a : Receipts) (i : Invocation D B) : Prop :=
  ∀ d, i.document? = some d → allowed a d

theorem Writable.within {i : Invocation D B} (lawful : Lawful goals allowed)
    (writable : Writable allowed a i) (within : a.Within b) : Writable allowed b i :=
  fun d held => lawful.within within (writable d held)

theorem writable_of_unbound {i : Invocation D B} (unbound : i.bound = none) :
    Writable allowed a i := by
  intro d held
  cases handler : i.handler <;>
    simp [Invocation.document?, Invocation.instance?, unbound, handler] at held

theorem document?_of_bound {i : Invocation D B} {saga : Saga D B} {inst : Instance D}
    (isSaga : i.handler = .saga saga) (isBound : i.bound = some inst) :
    i.document? = some (saga.dataType.toDocument inst.data) := by
  simp [Invocation.document?, Invocation.instance?, isSaga, isBound]

/-- What is bound has the identity of a document that may be written. -/
theorem writable_of_bound {i : Invocation D B} {saga : Saga D B} {inst : Instance D} {d : Document}
    (lawful : Lawful goals allowed) (isSaga : i.handler = .saga saga)
    (isBound : i.bound = some inst) (allows : allowed a d) (typed : d.dataType = saga.dataType.name)
    (named : d.id = saga.dataType.id inst.data) : Writable allowed a i := by
  intro e held
  cases (document?_of_bound isSaga isBound).symm.trans held
  exact lawful.moves typed (.inl named.symm) allows

/-- What is fetched after a lost write is of the same data type; for an update it is the instance
itself. -/
theorem keeps_fetchFresh (document : Document) (values : List PropertyValue) (mode : Commit.Mode) :
    (Commit.fetchFresh document values mode).Keeps (writing (B := B) allowed inserts) a fun r b =>
      a.Within b ∧ ∀ fresh, r = .ok (some fresh) → b.pending = some fresh ∧
        fresh.dataType = document.dataType ∧ (mode = .update → fresh.id = document.id) := by
  have findFirst_keeps : ∀ (values : List PropertyValue) (a : Receipts),
      (Commit.findFirst document.dataType values).Keeps (writing (B := B) allowed inserts) a
        fun r b => ∀ fresh, r = .ok (some fresh) → b.pending = some fresh ∧
          fresh.dataType = document.dataType := by
    intro values
    induction values with
    | nil => exact fun _ => nofun
    | cons p rest ih =>
      refine fun a => ⟨trivial, fun reply expected => ?_⟩
      rcases reply with e | _ | winner
      · exact nofun
      · exact ih a
      · rintro fresh same
        cases same
        exact ⟨rfl, expected.1⟩
  have fetches : (Commit.fetchFresh document values mode).Keeps (writing (B := B) allowed inserts) a
      fun r b => ∀ fresh, r = .ok (some fresh) → b.pending = some fresh ∧
        fresh.dataType = document.dataType ∧ (mode = .update → fresh.id = document.id) := by
    refine ⟨trivial, fun reply expected => ?_⟩
    rcases reply with e | _ | fresh
    · exact nofun
    · cases mode with
      | update => exact nofun
      | insert =>
        exact (findFirst_keeps _ a).imp fun r b found fresh same =>
          ⟨(found fresh same).1, (found fresh same).2, nofun⟩
    · rintro other same
      cases same
      exact ⟨rfl, expected.1, fun _ => expected.2 _ rfl rfl⟩
  exact (writing_grows fetches).imp fun _ _ => And.symm

variable {i : Invocation D B} {attempt : Nat} {mode start : Commit.Mode} {rules : List (Rule B)}

/-- What writing in a mode takes: an update that its target is allowed, an insert that it may lead
to the update of anything that is merged. -/
def Able (allowed : Receipts → Document → Prop) (inserts : Prop) (mode : Commit.Mode)
    (a : Receipts) (i : Invocation D B) : Prop :=
  match mode with
  | .insert => inserts ∧ Receives allowed
  | .update => Writable allowed a i

/-- After a successful update the target is still allowed. -/
def Left (allowed : Receipts → Document → Prop) (start : Commit.Mode) (r : Commit.Outcome D B)
    (b : Receipts) : Prop :=
  start = .update → r.2 = .ok () → Writable allowed b r.1

theorem left_of_error {e : SagaError} : Left allowed start (i, .error e) b :=
  fun _ => nofun

/-- After a lost write: what is merged is received, and the instance adopts its identity. -/
theorem keeps_resolved {values : List PropertyValue}
    {again : Invocation D B → Program B (Commit.Outcome D B)} {saga : Saga D B} {inst : Instance D}
    (lawful : Lawful goals allowed) (isSaga : i.handler = .saga saga)
    (isBound : i.bound = some inst) (able : Able allowed inserts mode a i)
    (further : ∀ j b, Writable allowed b j →
      (again j).Keeps (writing allowed inserts) b (Left allowed start)) :
    (Commit.resolveConflict .request attempt mode (saga.dataType.toDocument inst.data) values again
      i).Keeps (writing allowed inserts) a (Left allowed start) := by
  have ignores : (writing (B := B) allowed inserts).IgnoresSurroundings := writing_ignores
  refine Commit.keeps_resolveConflict ignores.note
    ((keeps_fetchFresh _ values mode).imp fun result b fetched => ?_)
  rcases result with e | _ | fresh
  · exact left_of_error
  · exact left_of_error
  · obtain ⟨within, fetched⟩ := fetched
    obtain ⟨found, typed, named⟩ := fetched fresh rfl
    refine (Invocation.keeps_resolve trivial isSaga isBound ignores.toIgnoresActs).imp ?_
    rintro ⟨j, answer⟩ b ⟨rfl, -, merges⟩
    cases answer with
    | error e => exact left_of_error
    | ok =>
      obtain ⟨data, rfl⟩ := merges rfl
      refine ⟨trivial, fun _ _ => further _ _ ?_⟩
      -- An insert meets another instance, which is received; an update meets its own.
      have allows : allowed (b.next (B := B) (.count .conflictResolved) ()) fresh := by
        cases mode with
        | insert => exact able.2 _ _ (.inr (by simp [Receipts.next, found]))
        | update =>
          have own := able _ (document?_of_bound isSaga isBound)
          exact lawful.within (within.trans (Receipts.within_next _ _ _))
            (lawful.moves typed.symm (.inl (named rfl)) own)
      refine writable_of_bound lawful isSaga rfl allows typed ?_
      simp [DataType.id, Document.metadata]

theorem keeps_write {saga : Saga D B} {inst : Instance D} (values : List PropertyValue)
    (isSaga : i.handler = .saga saga) (isBound : i.bound = some inst)
    (able : Able allowed inserts mode a i) :
    (Commit.write mode (saga.dataType.toDocument inst.data) values).Keeps
      (writing (B := B) allowed inserts) a fun reply b => b = a ∧ (mode = .update →
        ∀ stored, reply = .ok stored → stored.id = saga.dataType.id inst.data) := by
  cases mode with
  | insert => exact ⟨able.1, fun _ _ => ⟨rfl, nofun⟩⟩
  | update =>
    refine ⟨able _ (document?_of_bound isSaga isBound), fun reply expected => ⟨rfl, ?_⟩⟩
    rintro - stored rfl
    exact expected

theorem keeps_round {again : Option (Invocation D B → Program B (Commit.Outcome D B))}
    (lawful : Lawful goals allowed) (able : Able allowed inserts mode a i)
    (begun : start = .update → mode = .update)
    (further : ∀ more ∈ again, ∀ j b, Writable allowed b j →
      (more j).Keeps (writing allowed inserts) b (Left allowed start)) :
    (Commit.round .request rules attempt mode again i).Keeps (writing allowed inserts) a
      (Left allowed start) := by
  have ignores : (writing (B := B) allowed inserts).IgnoresSurroundings := writing_ignores
  cases held : i.instance? with
  | none =>
    rw [Commit.round_of_unbound held]
    exact left_of_error
  | some bound =>
    obtain ⟨saga, inst⟩ := bound
    obtain ⟨isSaga, isBound⟩ := Invocation.of_instance? held
    have counts : (writing (B := B) allowed inserts).Ignores (.count mode.counter) := by
      cases mode <;> exact writing_ignores_count nofun nofun
    refine Commit.keeps_round isSaga isBound ignores.note counts
      (writing_ignores_count nofun nofun) ((keeps_write _ isSaga isBound able).imp ?_)
    rintro reply b ⟨rfl, named⟩
    cases reply with
    | ok stored =>
      -- The instance adopts the identity that was written, which is its own.
      intro updates _
      obtain rfl := begun updates
      have adopted : i.adopt stored.metadata = { i with bound := some { inst with
          data := saga.dataType.metadata.set inst.data stored.metadata, isNew := false } } := by
        simp [Invocation.adopt, isSaga, isBound]
      have own := able _ (document?_of_bound isSaga isBound)
      rw [adopted]
      refine writable_of_bound lawful isSaga rfl own rfl ?_
      show saga.dataType.id inst.data = (saga.dataType.metadata.get _).id
      rw [saga.dataType.metadata.get_set]
      exact (named rfl stored rfl).symm
    | error e =>
      cases e with
      | backend reason => exact left_of_error
      | serialization e => exact left_of_error
      | conflict reason =>
        show ite _ _ _
        split
        next =>
          cases again with
          | none => exact left_of_error
          | some again => exact keeps_resolved lawful isSaga isBound able (further again rfl)
        next => exact left_of_error

theorem keeps_rounds {maxAttempts : Nat} (lawful : Lawful goals allowed)
    (able : Able allowed inserts mode a i) :
    (Commit.persist .request maxAttempts rules mode i).Keeps (writing allowed inserts) a
      (Left allowed mode) := by
  refine Commit.keeps_rounds (fun _ now j b => Able allowed inserts now b j ∧
    (mode = .update → now = .update)) ?_ ?_ ⟨able, id⟩
  · rintro attempt now j b ⟨able, begun⟩
    exact keeps_round lawful able begun nofun
  · rintro more attempt now again j b ⟨able, begun⟩ further
    refine keeps_round lawful able begun fun other member k c writable => ?_
    obtain rfl := Option.some.inj member
    exact further k c ⟨writable, fun _ => rfl⟩

theorem keeps_delete (writable : Writable allowed a i) :
    (Commit.delete i).Keeps (writing allowed inserts) a fun _ b => Writable allowed b i :=
  Commit.keeps_deletion writing_ignores.note (writing_ignores_count nofun nofun)
    (writing_ignores_count nofun nofun) writable fun d held =>
      ⟨writable d held, fun _ _ => writable⟩

/-! ## Handling -/

/-- What a handler may leave of the data. -/
abbrev Moved (goals : Uuid → Prop) (s : Saga D B) (inst : Instance D) (v : Verdict D) : Prop :=
  s.dataType.id v.data = s.dataType.id inst.data ∨ goals (s.dataType.id v.data)

theorem Writable.handled {j : Invocation D B} (lawful : Lawful goals allowed)
    (writable : Writable allowed a i) (handled : i.Handled (Moved goals) j) :
    Writable allowed a j := by
  cases isBound : i.bound with
  | none => exact writable_of_unbound (handled.unbound isBound)
  | some inst =>
    cases handler : i.handler with
    | plain name run =>
      intro d held
      simp [Invocation.document?, Invocation.instance?, handled.handler, handler] at held
    | saga saga =>
      have isSaga := handled.handler.trans handler
      have own := writable _ (document?_of_bound handler isBound)
      rcases handled.bound inst isBound saga handler with unchanged | ⟨v, moved, left⟩
      · exact writable_of_bound lawful isSaga unchanged own rfl rfl
      · intro d held
        cases (document?_of_bound isSaga left).symm.trans held
        exact lawful.moves (d := saga.dataType.toDocument inst.data) rfl moved own

/-! ## Binding -/

/-- Handlers of the message keep to the goals, and what is not new may be written. -/
structure Owned (goals : Uuid → Prop) (context : Context) (a : Receipts) (i : Invocation D B) :
    Prop where
  moves : ∀ saga, i.handler = .saga saga → saga.MovesTo i.message context goals
  writable : i.isNew = false → Writable (received goals) a i

variable {context : Context}

theorem Owned.within (owned : Owned goals context a i) (within : a.Within b) :
    Owned goals context b i :=
  ⟨owned.moves, fun isOld => (owned.writable isOld).within lawful_received within⟩

theorem Owned.handled {j : Invocation D B} (owned : Owned goals context a i)
    (handled : i.Handled (Moved goals) j) (isOld : j.isNew = false) :
    Writable (received goals) a j := by
  cases isBound : i.bound with
  | none => exact writable_of_unbound (handled.unbound isBound)
  | some inst =>
    cases handler : i.handler with
    | plain name run =>
      intro d held
      simp [Invocation.document?, Invocation.instance?, handled.handler, handler] at held
    | saga saga =>
      -- A handler does not change whether its instance is new.
      have same : j.isNew = i.isNew := by
        unfold Invocation.isNew
        rcases handled.bound inst isBound saga handler with unchanged | ⟨v, -, left⟩
        · rw [unchanged, isBound]
        · rw [left, isBound]
          rfl
      exact (owned.writable (same.symm.trans isOld)).handled lawful_received handled

theorem keeps_bindFound {r : Rule B} {d : Document} (owned : Owned goals context a i)
    (found : a.pending = some d) :
    (Incoming.bindFound r d i).Keeps (owning goals) a fun r b => Owned goals context b r.1 := by
  have ignores : (owning (B := B) goals).IgnoresSurroundings := writing_ignores
  refine (Invocation.keeps_load ignores.note i d false a).bind ?_
  rintro ⟨j, answer⟩ b ⟨rfl, loads⟩
  cases bind : i.bind d false with
  | error e =>
    rw [bind] at loads
    cases loads
    exact owned
  | ok bound =>
    rw [bind] at loads
    cases loads
    obtain ⟨saga, data, isSaga, reads, rfl⟩ := Invocation.bind_eq_ok bind
    obtain ⟨typed, decoded, -, rfl⟩ := Invocation.read_eq_ok reads
    refine ⟨trivial, fun _ _ => Program.keeps_ignored_bind (ignores.note _) fun _ => ?_⟩
    refine ⟨owned.moves, fun _ => ?_⟩
    have allows : received goals (b.next (B := B) (.count .loaded) ()) d :=
      receives_received _ _ (.inl (by simp [Receipts.next, found]))
    refine writable_of_bound lawful_received isSaga rfl allows typed ?_
    simp [Instance.ofData, DataType.id, Document.metadata]

theorem keeps_create (owned : Owned goals context a i) (values : List PropertyValue) :
    (i.create values).Keeps (owning goals) a fun r b => Owned goals context b r.1 := by
  cases handler : i.handler with
  | plain name run =>
    unfold Invocation.create
    rw [handler]
    exact owned
  | saga saga =>
    refine Invocation.keeps_create writing_ignores.note handler trivial fun fresh _ => ?_
    exact ⟨owned.moves, nofun⟩

theorem keeps_bindOne {onMiss : MissHandler D B} {message : Message B} {delivered : Context}
    {rules : List (Rule B)} (owned : Owned goals context a i) :
    (Incoming.bindOne onMiss message delivered rules i).Keeps (owning goals) a fun r b =>
      Owned goals context b r.1 := by
  have ignores : (owning (B := B) goals).IgnoresSurroundings := writing_ignores
  refine (Incoming.keeps_lookUp ignores.note (fun _ _ _ => rfl) (fun _ _ _ _ => trivial) []).bind ?_
  intro result b looked
  rcases result with e | ⟨r, d⟩ | values
  · obtain ⟨r, -, value, -, -, rfl⟩ := looked
    exact owned
  · obtain ⟨-, value, -, -, rfl⟩ := looked
    exact keeps_bindFound (owned.within (Receipts.within_next _ _ _)) rfl
  · obtain ⟨rfl, -⟩ := looked
    show (ite _ _ _ : Program B _).Keeps _ _ _
    split
    next =>
      refine (keeps_create owned values).bind ?_
      rintro ⟨j, answer⟩ c owned
      cases answer with
      | error e => exact owned
      | ok fresh =>
        refine Program.keeps_ignored_bind (writing_ignores_count nofun nofun) fun _ => ?_
        exact Program.keeps_ignored_bind (ignores.note _) fun _ => owned
    next =>
      have missed : (owning (B := B) goals).Ignores (.count .correlationMiss) :=
        writing_ignores_count nofun nofun
      exact Incoming.keeps_bindNone ignores.note (missed.owes b) (missed.next b ())
        (fun _ => ⟨owned.moves, owned.writable⟩) (fun values _ => keeps_create owned values)
        (fun _ => owned) fun _ _ => owned

/-! ## The whole message -/

/-- All invocations of a message. -/
def AllOwned (goals : Uuid → Prop) (context : Context) (m : Incoming D B) (a : Receipts) : Prop :=
  m.context = context ∧ ∀ i ∈ m.invocations, Owned goals context a i

theorem AllOwned.put {m : Incoming D B} {index : Nat} {r : Invocation D B}
    (owned : AllOwned goals context m a) (within : a.Within b) (here : Owned goals context b r) :
    AllOwned goals context (m.put index r) b := by
  refine ⟨owned.1, fun i member => ?_⟩
  rcases List.mem_or_eq_of_mem_set member with old | rfl
  · exact (owned.2 i old).within within
  · exact here

theorem keeps_bindAll {onMiss : MissHandler D B} {bindings : List (Binding B)} {m : Incoming D B}
    (owned : AllOwned goals context m a) :
    (Incoming.bindAll onMiss bindings m).Keeps (owning goals) a fun r b =>
      r.2 = .ok () → AllOwned goals context r.1 b := by
  refine Incoming.keeps_steps (AllOwned goals context) (fun step member m a owned => ?_) owned
  obtain ⟨b, -, rfl⟩ := List.mem_map.1 member
  refine Incoming.keeps_onInvocation (fun _ => trivial) fun i place => ?_
  have here := owned.2 i (List.mem_of_getElem? place)
  exact (writing_grows (keeps_bindOne here)).imp fun r c bound _ => owned.put bound.2 bound.1

/-- What the writes of a message start from: what is not new may be written. -/
def Ready (goals : Uuid → Prop) (m : Incoming D B) (a : Receipts) : Prop :=
  ∀ i ∈ m.invocations, i.isNew = false → Writable (received goals) a i

theorem keeps_handlers {m : Incoming D B} (owned : AllOwned goals context m a) :
    (Stage.dispatch .request (fun m => return (m, .ok ())) m).Keeps (owning goals) a fun r b =>
      r.2 = .ok () → Ready goals r.1 b := by
  have ignores : (owning (B := B) goals).IgnoresSurroundings := writing_ignores
  refine Stage.keeps_dispatch (Invocation.Handled (Moved goals)) True ignores.note
    (Invocation.Handled.refl _) ?_ (fun _ _ _ _ => nofun) ?_
  · intro i member runs
    refine (Invocation.keeps_invoke (Moved goals) trivial ignores.toIgnoresActs ?_).imp ?_
    · intro saga inst isSaga _
      rw [owned.1]
      exact (owned.2 i member).moves saga isSaga inst
    · exact fun r b left => ⟨left.1, left.2, fun _ _ => trivial⟩
  · intro invocations pairs _ j member isOld
    obtain ⟨k, inRange, rfl⟩ := List.getElem_of_mem member
    have inRange' : k < m.invocations.length := pairs.length_eq ▸ inRange
    exact (owned.2 _ (List.getElem_mem inRange')).handled (pairs.get inRange' inRange) isOld

/-- Between the writes of a message: what was not new when they began may be written. -/
def Begun (goals : Uuid → Prop) (m₀ m : Incoming D B) (a : Receipts) : Prop :=
  ∀ (k : Nat) (i₀ i : Invocation D B), m₀.invocations[k]? = some i₀ → i₀.isNew = false →
    m.invocations[k]? = some i → Writable (received goals) a i

theorem Begun.put {m₀ m : Incoming D B} {index : Nat} {r : Invocation D B}
    (begun : Begun goals m₀ m a) (within : a.Within b) (place : m.invocations[index]? = some i)
    (here : ∀ i₀, m₀.invocations[index]? = some i₀ → i₀.isNew = false →
      Writable (received goals) b r) :
    Begun goals m₀ (m.put index r) b := by
  intro k i₀ j wasThere isOld found
  rcases Incoming.getElem?_put place found with ⟨rfl, rfl⟩ | old
  · exact here i₀ wasThere isOld
  · exact (begun k i₀ j wasThere isOld old).within lawful_received within

theorem keeps_persist {maxAttempts : Nat} {bindings : List (Binding B)} {m : Incoming D B}
    (ready : Ready goals m a) :
    (Incoming.persist .request maxAttempts bindings m).Keeps (owning goals) a fun _ _ => True := by
  have ignores : (owning (B := B) goals).IgnoresSurroundings := writing_ignores
  have start : Begun goals m m a := fun k i₀ i wasThere isOld found => by
    cases wasThere.symm.trans found
    exact ready i₀ (List.mem_of_getElem? wasThere) isOld
  refine Incoming.keeps_persist ignores.note (writing_ignores_count nofun nofun)
    ((Incoming.keeps_steps (Begun goals m) (fun step member m' c begun => ?_) start).imp
      fun _ _ _ => trivial)
  obtain ⟨index, i₀, wasThere, planned⟩ := Incoming.write_cases member
  rcases planned with ⟨isNew, rules, rfl⟩ | ⟨isOld, rules, rfl⟩ | ⟨isOld, rfl⟩ <;>
    refine Incoming.keeps_onInvocation (fun _ => trivial) fun i place => ?_
  · have able : Able (received goals) True .insert c i := ⟨trivial, receives_received⟩
    refine (writing_grows (keeps_rounds lawful_received able)).imp fun r d ended _ =>
      begun.put ended.2 place ?_
    intro i₀' wasThere' isOld
    cases wasThere.symm.trans wasThere'
    exact nomatch isNew.symm.trans isOld
  · have writable := begun index i₀ i wasThere isOld place
    have able : Able (received goals) True .update c i := writable
    refine (writing_grows (keeps_rounds lawful_received able)).imp fun r d ended succeeds => ?_
    exact begun.put ended.2 place fun _ _ _ => ended.1 rfl succeeds
  · have writable := begun index i₀ i wasThere isOld place
    refine (writing_grows (keeps_delete writable)).bind fun answer d ended _ => ?_
    exact begun.put ended.2 place fun _ _ _ => ended.1

/-- An instance that was loaded from a document: whatever its handler leaves, it is never inserted,
and updated and deleted only under the identity of the document or one of the goals. -/
theorem keeps_home {j : Invocation D B} {home : Document} (loads : i.bind home false = .ok j)
    (moves : ∀ saga, i.handler = .saga saga → saga.MovesTo i.message context goals)
    (maxAttempts : Nat) (rules : List (Rule B)) :
    (j.invoke .request context).Keeps (writing (atHome home goals) False) a fun r b =>
      (Commit.persist .request maxAttempts rules .update r.1).Keeps
        (writing (atHome home goals) False) b (fun _ _ => True) ∧
      (Commit.delete r.1).Keeps (writing (atHome home goals) False) b fun _ _ => True := by
  have ignores : (writing (B := B) (atHome home goals) False).IgnoresSurroundings := writing_ignores
  obtain ⟨saga, data, isSaga, reads, rfl⟩ := Invocation.bind_eq_ok loads
  obtain ⟨typed, decoded, -, rfl⟩ := Invocation.read_eq_ok reads
  have start : Writable (atHome home goals) a { i with
      bound := some (.ofData (saga.dataType.metadata.set decoded home.metadata) false) } := by
    refine writable_of_bound (d := home) lawful_atHome isSaga rfl ⟨rfl, .inl rfl⟩ typed ?_
    simp [Instance.ofData, DataType.id, Document.metadata]
  refine (Invocation.keeps_invoke (Moved goals) trivial ignores.toIgnoresActs ?_).imp ?_
  · intro saga' inst isSaga' _
    exact moves saga' isSaga' inst
  · rintro r b ⟨rfl, handled⟩
    have writable := start.handled lawful_atHome handled
    have able : Able (atHome home goals) False .update b r.1 := writable
    exact ⟨(keeps_rounds lawful_atHome able).imp fun _ _ _ => trivial,
      (keeps_delete writable).imp fun _ _ _ => trivial⟩

end Ownership

open Ownership in
theorem Job.keeps_owning {job : Job D B} (moves : ∀ saga ∈ job.sagas,
    saga.MovesTo job.delivery.message job.delivery.context goals) :
    job.program.Keeps (owning goals) .none fun _ _ => True := by
  have ignores : (owning (B := B) goals).IgnoresSurroundings := writing_ignores
  have start : AllOwned goals job.delivery.context job.incoming .none := by
    refine ⟨job.context_incoming, fun i member => ?_⟩
    obtain ⟨unbound, -, routed⟩ := Job.start_of_mem member
    refine ⟨fun saga isSaga => ?_, fun _ => writable_of_unbound unbound⟩
    rw [Job.message_of_mem member]
    exact moves saga (routed saga isSaga)
  refine Job.keeps_program ignores.note (Incoming.keeps_coordinate ignores
    (Incoming.keeps_bindings (fun _ _ => True) (fun _ _ => rfl)
      (fun _ _ _ => trivial) fun _ _ _ _ => trivial) ?_ ?_ ?_ ?_)
  · exact fun _ _ => trivial
  · exact fun _ _ _ _ _ => trivial
  · exact fun _ => (keeps_handlers start).imp fun _ _ _ => trivial
  · intro bindings _
    refine Incoming.keeps_inTurn_cons ((keeps_bindAll start).imp ?_)
    rintro ⟨m, answer⟩ a bound
    cases answer with
    | error e => trivial
    | ok =>
      refine Incoming.keeps_inTurn_cons ((keeps_handlers (bound rfl)).imp ?_)
      rintro ⟨m, answer⟩ a handled
      cases answer with
      | error e => trivial
      | ok =>
        refine Incoming.keeps_inTurn_cons ((keeps_persist (handled rfl)).imp ?_)
        rintro ⟨m, answer⟩ a -
        cases answer with
        | error e => trivial
        | ok => trivial

end Sagas
