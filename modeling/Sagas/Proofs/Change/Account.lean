import Sagas.Proofs.Committing
import Sagas.Proofs.Plan

/-!
# One message that changes one stored instance

An account follows the storage calls of a message: which document its saga received last, how many
instances it loaded and how many writes it committed. A message whose every lookup leads to one and
the same instance, which creates nothing and deletes nothing, keeps these books:

* it never inserts;
* it updates only before its first commit, and then under the identity and the revision of the
  document that its saga received last;
* if it succeeds, it has committed exactly once, unless its handler asked to leave the instance
  unchanged; if it fails, it has committed nothing.

Results:
1. `keeps_rounds`: the retry loop, where every lost write leads to another document received.
2. `keeps_bindOne`, `keeps_handlers`, `keeps_writes`: the stages of a message.
3. `Job.keeps_changes`: a whole message.
-/

namespace Sagas

structure Account where
  /-- What the last successful lookup found. -/
  pending : Option Document
  /-- What the saga received last, by being bound or by resolving a conflict. -/
  received : Option Document
  loads : Nat
  commits : Nat

namespace Account

variable {B : Type}

def zero : Account := ⟨none, none, 0, 0⟩

/-- The saga has the document that was found once binding it, or resolving the conflict, is
counted. -/
def next (a : Account) : (request : Request B) → Reply request → Account
  | .find .., .ok (some d) => { a with pending := some d }
  | .count .loaded, _ => { a with received := a.pending, loads := a.loads + 1 }
  | .count .conflictResolved, _ => { a with received := a.pending }
  | .insert .., .ok _ => { a with commits := a.commits + 1 }
  | .update .., .ok _ => { a with commits := a.commits + 1 }
  | _, _ => a

end Account

/-- The contract of a message that changes the instance `id` and touches no other. -/
def changes {B : Type} (dataType : String) (id : Uuid) : Contract B Account where
  owes a
    | .insert .. => False
    | .update d _ => a.commits = 0 ∧ d.dataType = dataType ∧
        ∃ received, a.received = some received ∧ d.metadata = received.metadata
    | _ => True
  expects a
    | .find .., .ok (some d) => d.dataType = dataType ∧ d.id = id
    | .freshId, _ => False
    | .delete _, .ok () => False
    | .count .loaded, _ => a.loads = 0
    | _, _ => True
  next := Account.next

/-- Handlers leave the identity and the revision of their instance alone. -/
def Saga.KeepsMetadata {D B : Type} (s : Saga D B) : Prop :=
  ∀ message context inst, (s.handle message context inst).Ends fun v =>
    s.dataType.metadata.get v.data = s.dataType.metadata.get inst.data

variable {D B : Type} {dataType : String} {id : Uuid} {a : Account}

theorem changes_ignores : (changes (B := B) dataType id).IgnoresSurroundings where
  send _ _ := ⟨trivial, fun _ _ => rfl⟩
  draw _ := ⟨fun _ => trivial, fun _ _ => rfl⟩
  note _ := ⟨fun _ => trivial, fun _ _ => rfl⟩
  shutdown := ⟨fun _ => trivial, fun _ _ => rfl⟩
  acquire _ _ := ⟨fun _ => trivial, fun _ _ => rfl⟩
  release _ := ⟨fun _ => trivial, fun _ _ => rfl⟩

/-- Counting anything but what the account follows. -/
theorem changes_ignores_count {counter : Counter} (other : counter ≠ .loaded)
    (another : counter ≠ .conflictResolved) :
    (changes (B := B) dataType id).Ignores (.count counter) where
  owes _ := trivial
  next a reply := by
    show a.next (.count counter) reply = a
    cases counter <;> first | rfl | contradiction

namespace Change

/-! ## The instance at hand -/

/-- The invocation is bound to what its saga received last. -/
structure Carries (dataType : String) (a : Account) (i : Invocation D B) : Prop where
  runs : i.skipped = false
  bound : ∃ s inst d, i.handler = .saga s ∧ s.dataType.name = dataType ∧ i.bound = some inst ∧
    inst.isNew = false ∧ a.received = some d ∧ s.dataType.metadata.get inst.data = d.metadata

/-- How a commit ends: with one write if it succeeds, else with none. -/
def Committed (r : Commit.Outcome D B) (a : Account) : Prop :=
  match r.2 with
  | .ok () => a.commits = 1 ∧ r.1.bound ≠ none
  | .error _ => a.commits = 0

/-- After a lost write: the saga receives what is stored now, and goes on with it. -/
theorem keeps_resolved {attempt : Nat} {document : Document} {values : List PropertyValue}
    {again : Invocation D B → Program B (Commit.Outcome D B)} {i : Invocation D B}
    (carries : Carries dataType a i) (unwritten : a.commits = 0)
    (further : ∀ j b, Carries dataType b j → b.commits = 0 →
      (again j).Keeps (changes dataType id) b Committed) :
    (Commit.resolveConflict .request attempt .update document values again i).Keeps
      (changes dataType id) a Committed := by
  have ignores : (changes (B := B) dataType id).IgnoresSurroundings := changes_ignores
  obtain ⟨saga, inst, d, isSaga, named, isBound, isOld, received, same⟩ := carries.bound
  refine Commit.keeps_resolveConflict ignores.note ⟨trivial, fun reply expected => ?_⟩
  rcases reply with e | _ | fresh
  · exact unwritten
  · exact unwritten
  · refine (Invocation.keeps_resolve trivial isSaga isBound ignores.toIgnoresActs).imp ?_
    rintro ⟨j, answer⟩ b ⟨rfl, -, merges⟩
    cases answer with
    | error e => exact unwritten
    | ok =>
      obtain ⟨data, rfl⟩ := merges rfl
      refine ⟨trivial, fun _ _ => further _ _ ⟨carries.runs, ?_⟩ unwritten⟩
      exact ⟨saga, _, fresh, isSaga, named, rfl, rfl, rfl, by simp⟩

/-- Every round starts from what was received last, with nothing written yet. -/
theorem keeps_round {rules : List (Rule B)} {attempt : Nat}
    {again : Option (Invocation D B → Program B (Commit.Outcome D B))} {i : Invocation D B}
    (carries : Carries dataType a i) (unwritten : a.commits = 0)
    (further : ∀ more ∈ again, ∀ j b, Carries dataType b j → b.commits = 0 →
      (more j).Keeps (changes dataType id) b Committed) :
    (Commit.round .request rules attempt .update again i).Keeps (changes dataType id) a
      Committed := by
  have ignores : (changes (B := B) dataType id).IgnoresSurroundings := changes_ignores
  obtain ⟨saga, inst, d, isSaga, named, isBound, isOld, received, same⟩ := carries.bound
  refine Commit.keeps_round isSaga isBound ignores.note (changes_ignores_count nofun nofun)
    (changes_ignores_count (by simp) (by simp)) ?_
  refine ⟨⟨unwritten, named, d, received, same⟩, fun reply _ => ?_⟩
  cases reply with
  | ok stored =>
    refine ⟨congrArg (· + 1) unwritten, ?_⟩
    simp [Invocation.adopt, isSaga, isBound]
  | error e =>
    cases e with
    | backend reason => exact unwritten
    | serialization e => exact unwritten
    | conflict reason =>
      -- Only a saga that resolves conflicts goes on, and only if an attempt is left.
      show ite _ _ _
      split
      next =>
        cases again with
        | none => exact unwritten
        | some again => exact keeps_resolved carries unwritten (further again rfl)
      next => exact unwritten

theorem keeps_rounds {rules : List (Rule B)} {more attempt : Nat} {i : Invocation D B}
    (carries : Carries dataType a i) (unwritten : a.commits = 0) :
    (Commit.rounds .request rules more attempt .update i).Keeps (changes dataType id) a
      Committed := by
  refine Commit.keeps_rounds
    (fun _ mode i a => mode = .update ∧ Carries dataType a i ∧ a.commits = 0) ?_ ?_
    ⟨rfl, carries, unwritten⟩
  · rintro attempt mode i a ⟨rfl, carries, unwritten⟩
    exact keeps_round carries unwritten nofun
  · rintro more attempt mode again i a ⟨rfl, carries, unwritten⟩ further
    refine keeps_round carries unwritten ?_
    intro more member j b carries unwritten
    obtain rfl := Option.some.inj member
    exact further j b ⟨rfl, carries, unwritten⟩

/-! ## Binding -/

/-- What binding makes of an unbound invocation: nothing, or it holds what its saga received. -/
def BoundOrNot (dataType : String) (a : Account) (i : Invocation D B) (r : Invocation D B)
    (b : Account) : Prop :=
  b.commits = a.commits ∧ r.handler = i.handler ∧
    ((r.bound = none ∧ b.loads = a.loads ∧ b.received = a.received) ∨
      (a.loads = 0 ∧ b.loads = 1 ∧ Carries dataType b r))

theorem boundOrNot_self {i : Invocation D B} (unbound : i.bound = none) :
    BoundOrNot dataType a i i a :=
  ⟨rfl, rfl, .inl ⟨unbound, rfl, rfl⟩⟩

theorem keeps_bindFound {r : Rule B} {d : Document} {i : Invocation D B} (runs : i.skipped = false)
    (unbound : i.bound = none) (typed : d.dataType = dataType) (found : a.pending = some d) :
    (Incoming.bindFound r d i).Keeps (changes dataType id) a fun r b =>
      BoundOrNot dataType a i r.1 b := by
  have ignores : (changes (B := B) dataType id).IgnoresSurroundings := changes_ignores
  refine (Invocation.keeps_load ignores.note i d false a).bind ?_
  rintro ⟨j, answer⟩ b ⟨rfl, loads⟩
  cases bind : i.bind d false with
  | error e =>
    rw [bind] at loads
    cases loads
    exact boundOrNot_self unbound
  | ok bound =>
    rw [bind] at loads
    cases loads
    obtain ⟨saga, data, isSaga, reads, rfl⟩ := Invocation.bind_eq_ok bind
    obtain ⟨same, decoded, -, rfl⟩ := Invocation.read_eq_ok reads
    refine ⟨trivial, fun _ unloaded => ?_⟩
    refine Program.keeps_ignored_bind (ignores.note _) fun _ => ?_
    refine ⟨rfl, rfl, .inr ⟨unloaded, congrArg (· + 1) unloaded, runs, ?_⟩⟩
    exact ⟨saga, _, d, isSaga, same ▸ typed, rfl, rfl, found, by simp [Instance.ofData]⟩

theorem keeps_bindNone {onMiss : MissHandler D B} {message : Message B} {rules : List (Rule B)}
    {i : Invocation D B} (unbound : i.bound = none)
    (creates : ∀ values, (i.create values).Keeps (changes dataType id) a fun r b =>
      r.1 = i ∧ b = a) :
    (Incoming.bindNone onMiss message rules i).Keeps (changes dataType id) a fun r b =>
      BoundOrNot dataType a i r.1 b := by
  have ignores : (changes (B := B) dataType id).IgnoresSurroundings := changes_ignores
  have missed : (changes (B := B) dataType id).Ignores (.count .correlationMiss) :=
    changes_ignores_count (by simp) (by simp)
  refine Incoming.keeps_bindNone ignores.note (missed.owes a) (missed.next a ())
    (fun _ => ⟨rfl, rfl, .inl ⟨unbound, rfl, rfl⟩⟩) (fun values _ => (creates values).imp ?_)
    (fun _ => boundOrNot_self unbound) (fun _ _ => boundOrNot_self unbound)
  rintro ⟨j, answer⟩ b ⟨rfl, rfl⟩
  exact boundOrNot_self unbound

theorem keeps_bindOne {onMiss : MissHandler D B} {message : Message B} {context : Context}
    {rules : List (Rule B)} {i : Invocation D B} (runs : i.skipped = false)
    (unbound : i.bound = none) :
    (Incoming.bindOne onMiss message context rules i).Keeps (changes dataType id) a fun r b =>
      BoundOrNot dataType a i r.1 b := by
  have ignores : (changes (B := B) dataType id).IgnoresSurroundings := changes_ignores
  -- No identifier is given out, so nothing new is bound.
  have creates : ∀ values, (i.create values).Keeps (changes dataType id) a fun r b =>
      r.1 = i ∧ b = a := by
    intro values
    cases handler : i.handler with
    | plain name run =>
      unfold Invocation.create
      rw [handler]
      exact ⟨rfl, rfl⟩
    | saga saga => exact Invocation.keeps_create ignores.note handler trivial fun _ => False.elim
  refine (Incoming.keeps_lookUp ignores.note (fun _ _ _ => rfl) (fun _ _ _ _ => trivial) []).bind ?_
  intro result b looked
  rcases result with e | ⟨r, d⟩ | values
  · obtain ⟨r, -, value, -, -, rfl⟩ := looked
    exact boundOrNot_self unbound
  · obtain ⟨-, value, -, expected, rfl⟩ := looked
    exact keeps_bindFound runs unbound expected.1 rfl
  · obtain ⟨rfl, -⟩ := looked
    show (ite _ _ _ : Program B _).Keeps _ _ _
    split
    next =>
      refine (creates values).bind ?_
      rintro ⟨j, answer⟩ c ⟨rfl, rfl⟩
      cases answer with
      | error e => exact boundOrNot_self unbound
      | ok fresh =>
        refine Program.keeps_ignored_bind (changes_ignores_count (by simp) (by simp)) fun _ => ?_
        exact Program.keeps_ignored_bind (ignores.note _) fun _ => boundOrNot_self unbound
    next => exact keeps_bindNone unbound creates

/-! ## The whole message -/

/-- Before the writes of a message: nothing is written, and at most one invocation is bound, at a
place that has rules. -/
structure Steady (dataType : String) (bindings : List (Binding B)) (m : Incoming D B)
    (a : Account) : Prop where
  unwritten : a.commits = 0
  sagas : ∀ i ∈ m.invocations, ∀ saga, i.handler = .saga saga → saga.KeepsMetadata
  carries : ∀ {index : Nat} {i : Invocation D B}, m.invocations[index]? = some i → i.bound ≠ none →
    Carries dataType a i ∧ index ∈ bindings.map (·.index)
  single : ∀ {j k : Nat} {i i' : Invocation D B}, m.invocations[j]? = some i →
    m.invocations[k]? = some i' → i.bound ≠ none → i'.bound ≠ none → j = k
  unloaded : a.loads = 0 → ∀ i ∈ m.invocations, i.bound = none
  loaded : a.loads ≠ 0 → ∃ i ∈ m.invocations, i.bound ≠ none

/-- The places that are left to bind. -/
def Waiting (bindings : List (Binding B)) (m : Incoming D B) : Prop :=
  (bindings.map (·.index)).Nodup ∧ ∀ b ∈ bindings, ∀ i, m.invocations[b.index]? = some i →
    i.bound = none ∧ i.skipped = false

theorem Carries.congr {i : Invocation D B} {b : Account} (carries : Carries dataType a i)
    (same : b.received = a.received) : Carries dataType b i :=
  ⟨carries.runs, by simpa only [same] using carries.bound⟩

section Put

variable {bindings : List (Binding B)} {m : Incoming D B} {b : Account} {index : Nat}
  {i r : Invocation D B}

theorem Steady.sagas_put (steady : Steady dataType bindings m a)
    (place : m.invocations[index]? = some i) (handler : r.handler = i.handler) :
    ∀ j ∈ (m.put index r).invocations, ∀ saga, j.handler = .saga saga → saga.KeepsMetadata := by
  intro j member saga isSaga
  rcases List.mem_or_eq_of_mem_set member with old | rfl
  · exact steady.sagas j old saga isSaga
  · exact steady.sagas i (List.mem_of_getElem? place) saga (handler ▸ isSaga)

/-- An invocation stays unbound. -/
theorem Steady.put_unbound (steady : Steady dataType bindings m a)
    (place : m.invocations[index]? = some i) (unbound : i.bound = none)
    (handler : r.handler = i.handler) (nothing : r.bound = none)
    (commits : b.commits = a.commits) (loads : b.loads = a.loads)
    (received : b.received = a.received) : Steady dataType bindings (m.put index r) b := by
  -- What is bound was so before, and what was bound still is.
  have was : ∀ {k : Nat} {j : Invocation D B}, (m.put index r).invocations[k]? = some j →
      j.bound ≠ none → m.invocations[k]? = some j := by
    intro k j found isBound
    rcases Incoming.getElem?_put place found with ⟨rfl, rfl⟩ | old
    · exact absurd nothing isBound
    · exact old
  refine ⟨commits.trans steady.unwritten, steady.sagas_put place handler, ?_, ?_, ?_, ?_⟩
  · intro k j found isBound
    obtain ⟨carries, named⟩ := steady.carries (was found isBound) isBound
    exact ⟨carries.congr received, named⟩
  · intro j k i i' first second isBound isBound'
    exact steady.single (was first isBound) (was second isBound') isBound isBound'
  · intro unloaded j member
    obtain ⟨k, found⟩ := List.getElem?_of_mem member
    by_contra isBound
    have old := List.mem_of_getElem? (was found isBound)
    exact isBound (steady.unloaded (loads ▸ unloaded) j old)
  · intro loaded
    obtain ⟨j, member, isBound⟩ := steady.loaded (loads ▸ loaded)
    obtain ⟨k, old⟩ := List.getElem?_of_mem member
    have apart : index ≠ k := by
      rintro rfl
      cases place.symm.trans old
      exact isBound unbound
    have stays : (m.put index r).invocations[k]? = some j := by
      simpa [Incoming.put, apart] using old
    exact ⟨j, List.mem_of_getElem? stays, isBound⟩

/-- The first invocation is bound. -/
theorem Steady.put_bound (steady : Steady dataType bindings m a)
    (place : m.invocations[index]? = some i) (named : index ∈ bindings.map (·.index))
    (handler : r.handler = i.handler) (commits : b.commits = a.commits) (unloaded : a.loads = 0)
    (loaded : b.loads = 1) (carries : Carries dataType b r) :
    Steady dataType bindings (m.put index r) b := by
  have isNew : ∀ {k : Nat} {j : Invocation D B}, (m.put index r).invocations[k]? = some j →
      j.bound ≠ none → k = index ∧ j = r := by
    intro k j found isBound
    rcases Incoming.getElem?_put place found with same | old
    · exact same
    · exact absurd (steady.unloaded unloaded j (List.mem_of_getElem? old)) isBound
  refine ⟨commits.trans steady.unwritten, steady.sagas_put place handler, ?_, ?_, ?_, ?_⟩
  · intro k j found isBound
    obtain ⟨rfl, rfl⟩ := isNew found isBound
    exact ⟨carries, named⟩
  · intro j k i i' first second isBound isBound'
    exact (isNew first isBound).1.trans (isNew second isBound').1.symm
  · intro none
    exact nomatch loaded.symm.trans none
  · intro _
    obtain ⟨-, inst, -, -, -, isBound, -⟩ := carries.bound
    have inRange : index < m.invocations.length := (List.getElem?_eq_some_iff.1 place).1
    exact ⟨r, List.mem_set inRange r, by simp [isBound]⟩

theorem Steady.put (steady : Steady dataType bindings m a)
    (place : m.invocations[index]? = some i) (unbound : i.bound = none)
    (named : index ∈ bindings.map (·.index)) (outcome : BoundOrNot dataType a i r b) :
    Steady dataType bindings (m.put index r) b := by
  obtain ⟨commits, handler, ⟨nothing, loads, received⟩ | ⟨unloaded, loaded, carries⟩⟩ := outcome
  · exact steady.put_unbound place unbound handler nothing commits loads received
  · exact steady.put_bound place named handler commits unloaded loaded carries

end Put

theorem keeps_bindAll {onMiss : MissHandler D B} {bindings : List (Binding B)} {m : Incoming D B}
    (steady : Steady dataType bindings m a) (waiting : Waiting bindings m) :
    (Incoming.bindAll onMiss bindings m).Keeps (changes dataType id) a fun r b =>
      match r.2 with
      | .ok () => Steady dataType bindings r.1 b
      | .error _ => b.commits = 0 := by
  refine (Incoming.keeps_each
    (fun rest m a => rest ⊆ bindings ∧ Waiting rest m ∧ Steady dataType bindings m a)
    (fun _ _ a => a.commits = 0) ?_ ⟨List.Subset.refl _, waiting, steady⟩).imp ?_
  · rintro b rest m a ⟨known, ⟨distinct, waiting⟩, steady⟩
    refine Incoming.keeps_onInvocation (fun _ => trivial) fun i place => ?_
    obtain ⟨unbound, runs⟩ := waiting b List.mem_cons_self i place
    refine (keeps_bindOne runs unbound).imp ?_
    rintro ⟨j, answer⟩ c outcome
    cases answer with
    | error e => exact outcome.1.trans steady.unwritten
    | ok =>
      have named : b.index ∈ bindings.map (·.index) :=
        List.mem_map_of_mem (known List.mem_cons_self)
      refine ⟨fun c member => known (List.mem_cons_of_mem _ member), ⟨?_, ?_⟩,
        steady.put place unbound named outcome⟩
      · exact (List.nodup_cons.1 distinct).2
      · intro other member j found
        have apart : other.index ≠ b.index := fun same =>
          (List.nodup_cons.1 distinct).1 (List.mem_map.2 ⟨other, member, same⟩)
        exact waiting other (List.mem_cons_of_mem _ member) j
          (by simpa [Incoming.put, Ne.symm apart] using found)
  · rintro ⟨m, answer⟩ a ended
    cases answer with
    | ok => exact ended.2.2
    | error e => exact ended

/-- What a handler may leave of the data. -/
abbrev SameMetadata (s : Saga D B) (inst : Instance D) (v : Verdict D) : Prop :=
  s.dataType.metadata.get v.data = s.dataType.metadata.get inst.data

theorem Carries.handled {i j : Invocation D B} (carries : Carries dataType a i)
    (handled : i.Handled SameMetadata j) : Carries dataType a j := by
  obtain ⟨s, inst, d, isSaga, named, isBound, isOld, received, same⟩ := carries.bound
  refine ⟨handled.skipped.trans carries.runs, ?_⟩
  rcases handled.bound inst isBound s isSaga with unchanged | ⟨v, kept, left⟩
  · exact ⟨s, inst, d, handled.handler.trans isSaga, named, unchanged, isOld, received, same⟩
  · exact ⟨s, inst.after v, d, handled.handler.trans isSaga, named, left, isOld, received,
      kept.trans same⟩

theorem Steady.handled {bindings : List (Binding B)} {m : Incoming D B}
    {invocations : List (Invocation D B)} (steady : Steady dataType bindings m a)
    (pairs : List.Forall₂ (Invocation.Handled SameMetadata) m.invocations invocations) :
    Steady dataType bindings { m with invocations } a := by
  -- Every invocation comes from the one at its place, which was bound if it is.
  have from' : ∀ {k : Nat} {j : Invocation D B}, invocations[k]? = some j →
      ∃ i, m.invocations[k]? = some i ∧ i.Handled SameMetadata j := by
    intro k j found
    obtain ⟨inRange, rfl⟩ := List.getElem?_eq_some_iff.1 found
    have inRange' : k < m.invocations.length := pairs.length_eq ▸ inRange
    exact ⟨_, List.getElem?_eq_getElem inRange', pairs.get inRange' inRange⟩
  refine ⟨steady.unwritten, ?_, ?_, ?_, ?_, ?_⟩
  · intro j member saga isSaga
    obtain ⟨k, found⟩ := List.getElem?_of_mem member
    obtain ⟨i, old, handled⟩ := from' found
    exact steady.sagas i (List.mem_of_getElem? old) saga (handled.handler ▸ isSaga)
  · intro k j found isBound
    obtain ⟨i, old, handled⟩ := from' found
    have wasBound : i.bound ≠ none := fun unbound => isBound (handled.unbound unbound)
    exact ⟨(steady.carries old wasBound).1.handled handled, (steady.carries old wasBound).2⟩
  · intro j k i i' first second isBound isBound'
    obtain ⟨_, old, handled⟩ := from' first
    obtain ⟨_, old', handled'⟩ := from' second
    exact steady.single old old' (fun unbound => isBound (handled.unbound unbound))
      (fun unbound => isBound' (handled'.unbound unbound))
  · intro unloaded j member
    obtain ⟨k, found⟩ := List.getElem?_of_mem member
    obtain ⟨i, old, handled⟩ := from' found
    exact handled.unbound (steady.unloaded unloaded i (List.mem_of_getElem? old))
  · intro loaded
    obtain ⟨i, member, isBound⟩ := steady.loaded loaded
    obtain ⟨k, old⟩ := List.getElem?_of_mem member
    obtain ⟨inRange, rfl⟩ := List.getElem?_eq_some_iff.1 old
    have inRange' : k < invocations.length := pairs.length_eq ▸ inRange
    have handled := pairs.get inRange inRange'
    obtain ⟨-, inst, -, -, -, held, -⟩ := ((steady.carries old isBound).1.handled handled).bound
    exact ⟨_, List.getElem_mem inRange', fun unbound => nomatch held.symm.trans unbound⟩

/-- How a message ends: if it succeeds, whatever it bound is written once, unless that is marked as
unchanged; if it fails, nothing is written. -/
def Settled (r : Processed D B) (a : Account) : Prop :=
  match r.2 with
  | .ok () => (a.loads ≠ 0 → ∃ i ∈ r.1.invocations, i.bound ≠ none) ∧
      ∀ i ∈ r.1.invocations, i.bound ≠ none → i.isUnchanged = false → a.commits = 1
  | .error _ => a.commits = 0

theorem keeps_handlers {bindings : List (Binding B)} {m : Incoming D B}
    (steady : Steady dataType bindings m a) :
    (Stage.dispatch .request (fun m => return (m, .ok ())) m).Keeps (changes dataType id) a
      fun r b =>
        match r.2 with
        | .ok () => Steady dataType bindings r.1 b
        | .error _ => b.commits = 0 := by
  have ignores : (changes (B := B) dataType id).IgnoresSurroundings := changes_ignores
  refine Stage.keeps_dispatch (Invocation.Handled SameMetadata) True ignores.note
    (Invocation.Handled.refl _) ?_ ?_ ?_
  · intro i member runs
    refine (Invocation.keeps_invoke SameMetadata trivial ignores.toIgnoresActs ?_).imp ?_
    · exact fun saga inst isSaga isBound => steady.sagas i member saga isSaga _ _ inst
    · exact fun r b left => ⟨left.1, left.2, fun _ _ => trivial⟩
  · exact fun _ _ _ _ => steady.unwritten
  · exact fun invocations pairs => steady.handled pairs

theorem keeps_delete {i : Invocation D B} (carries : Carries dataType a i)
    (unwritten : a.commits = 0) :
    (Commit.delete i).Keeps (changes dataType id) a fun r b =>
      (∃ e, r = .error e) ∧ b.commits = 0 := by
  have ignores : (changes (B := B) dataType id).IgnoresSurroundings := changes_ignores
  obtain ⟨saga, inst, -, isSaga, -, isBound, -⟩ := carries.bound
  have held : i.instance? = some (saga, inst) := by simp [Invocation.instance?, isSaga, isBound]
  unfold Commit.delete Invocation.document?
  rw [held]
  refine ⟨trivial, fun reply expected => ?_⟩
  cases reply with
  | ok => exact expected.elim
  | error e =>
    cases e with
    | conflict reason =>
      refine Program.keeps_ignored_bind (changes_ignores_count (by simp) (by simp)) fun _ => ?_
      exact Program.keeps_ignored_bind (ignores.note _) fun _ => ⟨⟨_, rfl⟩, unwritten⟩
    | backend reason => exact ⟨⟨_, rfl⟩, unwritten⟩
    | serialization e => exact ⟨⟨_, rfl⟩, unwritten⟩

/-- At most one invocation holds an instance. -/
theorem Steady.holders_cases {bindings : List (Binding B)} {m : Incoming D B}
    (steady : Steady dataType bindings m a) (distinct : (bindings.map (·.index)).Nodup) :
    Touched.holders m.invocations bindings = [] ∨
      ∃ h, Touched.holders m.invocations bindings = [h] := by
  have places := distinct.sublist (Touched.holders_sublist m.invocations bindings)
  -- Two holders would be at one place, as only one invocation is bound.
  rcases all : Touched.holders m.invocations bindings with
    _ | ⟨⟨id, ⟨j, i⟩, rules⟩, _ | ⟨⟨id', ⟨k, i'⟩, rules'⟩, rest⟩⟩
  · exact .inl rfl
  · exact .inr ⟨_, rfl⟩
  · rw [all] at places
    have first : (id, (j, i), rules) ∈ Touched.holders m.invocations bindings := by simp [all]
    have second : (id', (k, i'), rules') ∈ Touched.holders m.invocations bindings := by simp [all]
    obtain ⟨-, -, -, -, place, -, holds⟩ := Touched.mem_holders.1 first
    obtain ⟨-, -, -, -, place', -, holds'⟩ := Touched.mem_holders.1 second
    have same : j = k := steady.single place place' (Touched.bound_of_id? holds)
      (Touched.bound_of_id? holds')
    simp [same] at places

/-- Whatever is bound is a holder. -/
theorem Steady.holds {bindings : List (Binding B)} {m : Incoming D B} {i : Invocation D B}
    (steady : Steady dataType bindings m a) (member : i ∈ m.invocations)
    (isBound : i.bound ≠ none) : ∃ h ∈ Touched.holders m.invocations bindings, h.2.1.2 = i := by
  obtain ⟨k, place⟩ := List.getElem?_of_mem member
  obtain ⟨⟨runs, saga, inst, -, isSaga, -, held, -⟩, named⟩ := steady.carries place isBound
  obtain ⟨b, known, rfl⟩ := List.mem_map.1 named
  exact ⟨(_, (b.index, i), b.indexed), Touched.mem_holders.2 ⟨b, known, rfl, rfl, place, runs,
    Touched.id?_of_bound isSaga held⟩, rfl⟩

/-- The write of the instance that is bound. -/
theorem keeps_written {maxAttempts index : Nat} {rules : List (Rule B)} {m : Incoming D B}
    {i : Invocation D B} (carries : Carries dataType a i) (unwritten : a.commits = 0)
    (place : m.invocations[index]? = some i) :
    (Incoming.inTurn [Incoming.onInvocation index
      (Commit.persist .request maxAttempts rules .update)] m).Keeps (changes dataType id) a
      Settled := by
  refine Incoming.keeps_inTurn_cons (Incoming.keeps_onInvocation (fun _ => trivial) ?_)
  intro j there
  obtain rfl : i = j := Option.some.inj (place.symm.trans there)
  refine (keeps_rounds carries unwritten).imp ?_
  rintro ⟨j, answer⟩ b committed
  cases answer with
  | ok =>
    have inRange : index < m.invocations.length := (List.getElem?_eq_some_iff.1 place).1
    have written : j ∈ (m.put index j).invocations := List.mem_set inRange j
    exact ⟨fun _ => ⟨j, written, committed.2⟩, fun _ _ _ _ => committed.1⟩
  | error e => exact committed

theorem keeps_writes {maxAttempts : Nat} {bindings : List (Binding B)} {m : Incoming D B}
    (steady : Steady dataType bindings m a) (distinct : (bindings.map (·.index)).Nodup) :
    (Incoming.persist .request maxAttempts bindings m).Keeps (changes dataType id) a Settled := by
  have ignores : (changes (B := B) dataType id).IgnoresSurroundings := changes_ignores
  refine Incoming.keeps_persist ignores.note (changes_ignores_count (by simp) (by simp)) ?_
  rcases steady.holders_cases distinct with none | ⟨⟨hid, ⟨index, i⟩, rules⟩, only⟩
  · rw [show Touched.groups m.invocations bindings = [] by simp [Touched.groups_eq, none]]
    refine ⟨steady.loaded, fun i member isBound => ?_⟩
    obtain ⟨h, isHolder, -⟩ := steady.holds member isBound
    simp [none] at isHolder
  · rw [Incoming.writes_of_single only]
    have isHolder : (hid, (index, i), rules) ∈ Touched.holders m.invocations bindings := by
      simp [only]
    obtain ⟨-, -, -, -, place, -, held⟩ := Touched.mem_holders.1 isHolder
    have carries := (steady.carries place (Touched.bound_of_id? held)).1
    have isOld : i.isNew = false := by
      obtain ⟨-, inst, -, -, -, isBound, isOld, -⟩ := carries.bound
      simp [Invocation.isNew, isBound, isOld]
    rw [isOld]
    cases i.isCompleted with
    | true =>
      refine Incoming.keeps_inTurn_cons (Incoming.keeps_onInvocation (fun _ => trivial) ?_)
      intro j there
      obtain rfl : i = j := Option.some.inj (place.symm.trans there)
      refine (keeps_delete carries steady.unwritten).bind ?_
      rintro answer b ⟨⟨e, rfl⟩, unwritten⟩
      exact unwritten
    | false =>
      cases unchanged : i.isUnchanged with
      | true =>
        refine ⟨steady.loaded, fun j member isBound changed => ?_⟩
        obtain ⟨h, isHolder, rfl⟩ := steady.holds member isBound
        rw [only, List.mem_singleton] at isHolder
        subst isHolder
        exact nomatch unchanged.symm.trans changed
      | false => exact keeps_written carries steady.unwritten place

theorem steady_start {m : Incoming D B} (bindings : List (Binding B))
    (unbound : ∀ i ∈ m.invocations, i.bound = none)
    (sagas : ∀ i ∈ m.invocations, ∀ saga, i.handler = .saga saga → saga.KeepsMetadata) :
    Steady dataType bindings m .zero where
  unwritten := rfl
  sagas := sagas
  carries place isBound := absurd (unbound _ (List.mem_of_getElem? place)) isBound
  single place _ isBound _ := absurd (unbound _ (List.mem_of_getElem? place)) isBound
  unloaded _ := unbound
  loaded loaded := absurd rfl loaded

end Change

open Change in
theorem Job.keeps_changes {job : Job D B} (identity : ∀ saga ∈ job.sagas, saga.KeepsMetadata) :
    job.program.Keeps (changes dataType id) .zero Settled := by
  have ignores : (changes (B := B) dataType id).IgnoresSurroundings := changes_ignores
  have unbound : ∀ i ∈ job.incoming.invocations, i.bound = none := fun i member =>
    (Job.start_of_mem member).1
  have start : ∀ bindings : List (Binding B), Steady dataType bindings job.incoming .zero :=
    fun bindings => steady_start bindings unbound fun i member saga isSaga =>
      identity saga ((Job.start_of_mem member).2.2 saga isSaga)
  refine Job.keeps_program ignores.note (Incoming.keeps_coordinate ignores
    (Incoming.keeps_bindings (fun _ _ => True) (fun _ _ => rfl)
      (fun _ _ _ => trivial) fun _ _ _ _ => trivial) ?_ ?_ ?_ ?_)
  · exact fun _ _ => rfl
  · exact fun _ _ _ _ _ => rfl
  · intro _
    refine (keeps_handlers (start [])).imp ?_
    rintro ⟨m, answer⟩ a ended
    cases answer with
    | error e => exact ended
    | ok =>
      refine ⟨Steady.loaded ended, fun i member isBound => ?_⟩
      obtain ⟨k, place⟩ := List.getElem?_of_mem member
      exact nomatch (Steady.carries ended place isBound).2
  · intro bindings served
    have distinct : (bindings.map (·.index)).Nodup :=
      (served bindings rfl).1.imp fun before => Nat.ne_of_lt before
    have waiting : Waiting bindings job.incoming := ⟨distinct, fun b _ i place =>
      ⟨unbound i (List.mem_of_getElem? place),
        (Job.start_of_mem (List.mem_of_getElem? place)).2.1⟩⟩
    refine Incoming.keeps_inTurn_cons ((keeps_bindAll (start bindings) waiting).imp ?_)
    rintro ⟨m, answer⟩ a bound
    cases answer with
    | error e => exact bound
    | ok =>
      refine Incoming.keeps_inTurn_cons ((keeps_handlers bound).imp ?_)
      rintro ⟨m, answer⟩ a handled
      cases answer with
      | error e => exact handled
      | ok =>
        refine Incoming.keeps_inTurn_cons ((keeps_writes handled distinct).imp ?_)
        rintro ⟨m, answer⟩ a settled
        cases answer with
        | error e => exact settled
        | ok => exact settled

end Sagas
