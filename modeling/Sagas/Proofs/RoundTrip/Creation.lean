import Sagas.Proofs.RoundTrip.Values
import Sagas.Proofs.Single

/-!
# A message that starts an instance

A message that a single saga sees, and that finds no instance, creates one from the values that it
yields and inserts it with the values of all paths of the saga. Only if that first write is lost may
others follow, and these are updates of what won.

Results:
1. `keeps_bindOne`, `keeps_handlers`: the instance holds the last value for every path throughout.
2. `keeps_commit`: the one insert carries these values; a lost one is followed by updates only.
3. `Job.keeps_creating`: a whole message, which gives back every lock that it took.
-/

namespace Sagas

/-- Whether the new instance is stored yet. -/
inductive Phase where
  | before
  | stored (d : Document) (values : List PropertyValue)
  /-- Another write came first. -/
  | lost

structure Creation where
  phase : Phase
  /-- The locks that were given back, since one was last taken. -/
  free : List String

variable {D B : Type}

/-- The values that are put into a new instance make up its data, of which one is the document, and
they are among those that it is written with. -/
def Saga.Carries (s : Saga D B) (looked : List PropertyValue) (d : Document)
    (values : List PropertyValue) : Prop :=
  ∃ data, d = s.dataType.toDocument data ∧
    ∀ path v, PropertyValue.last? path looked = some v →
      s.dataType.valueAt path data = some v ∧ ⟨path, v⟩ ∈ values

/-- The contract of a message that looks up these values, finds nothing, and starts an instance. -/
def creating (s : Saga D B) (rules : RuleSet B) (looked : List PropertyValue) :
    Contract B Creation where
  owes a
    | .find dataType property value => a.phase = .before →
        dataType = s.dataType.name ∧ ⟨property, value⟩ ∈ looked
    | .insert d values => a.phase = .before ∧ s.Carries looked d values
    | .update .. => a.phase = .lost
    | .delete _ => False
    | .rules type => type = s.type
    | _ => True
  expects a
    | .find .., reply => a.phase = .before → reply = .ok none
    | .rules _, reply => reply = .ok rules
    | .acquire _ token, reply => reply = .ok true → token ≠ .fixed true
    | _, _ => True
  next a
    | .insert d values, .ok _ => { a with phase := .stored d values }
    | .insert .., .error _ => { a with phase := .lost }
    | .acquire .., _ => { a with free := [] }
    | .release key, _ => { a with free := key :: a.free }
    | _, _ => a

variable {s : Saga D B} {rules : RuleSet B} {looked : List PropertyValue} {a : Creation}

theorem creating_ignores : (creating s rules looked).IgnoresActs Send.request where
  send _ _ := ⟨trivial, fun _ _ => rfl⟩
  draw _ := ⟨fun _ => trivial, fun _ _ => rfl⟩
  note _ := ⟨fun _ => trivial, fun _ _ => rfl⟩
  shutdown := ⟨fun _ => trivial, fun _ _ => rfl⟩

theorem creating_ignores_count (counter : Counter) :
    (creating s rules looked).Ignores (.count counter) :=
  ⟨fun _ => trivial, fun _ _ => rfl⟩

/-- The handler of a new instance changes neither its identity nor a path that these rules name. -/
def Saga.Settles (s : Saga D B) (rules : RuleSet B) (message : Message B) (context : Context) :
    Prop :=
  ∀ inst, inst.isNew = true → (s.handle message context inst).Ends fun v => v.outcome = .ok () →
    ∀ path, path = identityPath ∨ (∃ r ∈ rules.rules, r.property = path) →
      s.dataType.valueAt path v.data = s.dataType.valueAt path inst.data

/-- A message that this saga alone sees, by these of its rules, and that may start an instance which
keeps its identity and its correlation values. -/
structure Job.Starts (job : Job D B) (s : Saga D B) (rules : RuleSet B) (chosen : List (Rule B)) :
    Prop where
  alone : job.incoming.invocations.map (·.handler) = [.saga s]
  starts : s.isStartedBy job.delivery.message = true
  declared : s.type.declaration = .ok rules
  accepted : rules.forMessage job.delivery.message = .ok chosen
  settles : s.Settles rules job.delivery.message job.delivery.context

/-- The values that the message yields for these rules. -/
def Job.yields (job : Job D B) (chosen : List (Rule B)) : List PropertyValue :=
  Incoming.yields job.delivery.message job.delivery.context chosen

/-- The locks that the message takes, if locks are in use. -/
def Job.keys (job : Job D B) (rules : RuleSet B) (chosen : List (Rule B)) : List String :=
  job.incoming.keys job.settings.lockBuckets [⟨0, chosen, rules.indexed⟩]

namespace RoundTrip

variable {job : Job D B} {chosen : List (Rule B)}

/-- The invocation of the saga before anything is bound. -/
abbrev unbound (s : Saga D B) (job : Job D B) : Invocation D B :=
  .start (.saga s) job.delivery.message (!job.pooled)

/-- The invocation holds a new instance, with the last of these values for every path. -/
structure Created (s : Saga D B) (message : Message B) (looked : List PropertyValue)
    (i : Invocation D B) : Prop where
  handler : i.handler = .saga s
  message : i.message = message
  runs : i.skipped = false
  bound : ∃ inst, i.bound = some inst ∧ inst.isNew = true ∧
    ∀ path v, PropertyValue.last? path looked = some v →
      s.dataType.valueAt path inst.data = some v

/-! ## Binding -/

theorem keeps_bindOne {onMiss : MissHandler D B} (distinct : s.dataType.Distinct)
    (starts : job.Starts s rules chosen) (before : a.phase = .before) :
    (Incoming.bindOne onMiss job.delivery.message job.delivery.context chosen
      (unbound s job)).Keeps (creating s rules (job.yields chosen)) a fun r b =>
        b = a ∧ (r.2 = .ok () → Created s job.delivery.message (job.yields chosen) r.1) := by
  have ignores : (creating s rules (job.yields chosen)).IgnoresActs Send.request := creating_ignores
  have typed : ∀ r ∈ chosen, r.dataType = s.dataType.name := fun r among =>
    (Correlator.declare_eq_ok starts.declared r
      (RuleSet.mem_of_forMessage starts.accepted among)).1
  refine (Incoming.keeps_lookUp ignores.note (fun _ _ _ => rfl) ?_ []).bind ?_
  · exact fun r among value reads _ => ⟨typed r among, Incoming.mem_yields.2 ⟨r, among, reads, rfl⟩⟩
  intro result b found
  rcases result with e | ⟨r, d⟩ | values
  · obtain ⟨r, -, value, -, expected, -⟩ := found
    exact nomatch expected before
  · obtain ⟨-, value, -, expected, -⟩ := found
    exact nomatch expected before
  · obtain ⟨rfl, rfl, -⟩ := found
    show (ite _ _ _ : Program B _).Keeps _ _ _
    rw [if_pos (show job.delivery.message.hierarchy.any (unbound s job).isInitiatedBy = true from
      starts.starts), List.nil_append]
    have suit : ∀ p ∈ job.yields chosen, s.dataType.Suits p := fun p =>
      Incoming.yields_fit starts.declared starts.accepted
    have creates : ((unbound s job).create (job.yields chosen)).Keeps
        (creating s rules (job.yields chosen)) b fun r c => c = b ∧ (∃ id, r.2 = .ok id) ∧
          Created s job.delivery.message (job.yields chosen) r.1 := by
      refine Invocation.keeps_create ignores.note rfl trivial fun fresh _ => ?_
      refine ⟨rfl, ⟨_, rfl⟩, rfl, rfl, rfl, _, rfl, rfl, fun path v last => ?_⟩
      exact Invocation.newData_holds distinct suit last fresh
    refine creates.bind ?_
    rintro ⟨j, answer⟩ c ⟨rfl, ⟨id, rfl⟩, created⟩
    refine Program.keeps_ignored_bind (creating_ignores_count _) fun _ => ?_
    exact Program.keeps_ignored_bind (ignores.note _) fun _ => ⟨rfl, fun _ => created⟩

/-! ## Handling -/

/-- A path that the message yields a value for is named by a rule. -/
theorem named_of_last? (starts : job.Starts s rules chosen) {path : String} {v : Scalar}
    (last : PropertyValue.last? path (job.yields chosen) = some v) :
    ∃ r ∈ rules.rules, r.property = path := by
  obtain ⟨r, among, -, named⟩ := Incoming.mem_yields.1 (PropertyValue.mem_of_last? last)
  exact ⟨r, RuleSet.mem_of_forMessage starts.accepted among, named⟩

theorem keeps_handler {i : Invocation D B} (starts : job.Starts s rules chosen)
    (created : Created s job.delivery.message (job.yields chosen) i) :
    (i.invoke .request job.delivery.context).Keeps (creating s rules looked) a fun r b =>
      b = a ∧ (r.2 = .ok () → Created s job.delivery.message (job.yields chosen) r.1) := by
  have ignores : (creating s rules looked).IgnoresActs Send.request := creating_ignores
  obtain ⟨inst, isBound, isNew, holds⟩ := created.bound
  have ends := starts.settles inst isNew
  rw [← created.message] at ends
  refine (Invocation.keeps_invoke_saga created.runs created.handler isBound ignores ends
    (.inl trivial)).imp ?_
  rintro r b ⟨rfl, verdict, settled, rfl⟩
  refine ⟨rfl, fun succeeds => ⟨created.handler, created.message, created.runs, _, rfl, isNew, ?_⟩⟩
  intro path v last
  have outcome : verdict.outcome = .ok () := by
    cases outcome : verdict.outcome with
    | ok => rfl
    | error e => simp [outcome, Except.mapError] at succeeds
  exact (settled outcome path (.inr (named_of_last? starts last))).trans (holds path v last)

/-! ## Writing -/

/-- What may still be asked once the insert is lost. -/
def afterLoss : Request B → Prop
  | .insert .. | .delete _ | .rules _ | .acquire .. | .release _ => False
  | _ => True

theorem permits_afterLoss (s : Saga D B) (group : List (Rule B)) :
    Commit.Permits (Program.asking afterLoss) s group .update where
  send _ _ := ⟨trivial, fun _ _ => rfl⟩
  draw _ := ⟨fun _ => trivial, fun _ _ => rfl⟩
  note _ := ⟨fun _ => trivial, fun _ _ => rfl⟩
  shutdown := ⟨fun _ => trivial, fun _ _ => rfl⟩
  dies := trivial
  count _ _ := ⟨fun _ => trivial, fun _ _ => rfl⟩
  find _ _ := trivial
  write mode updates _ := by
    obtain rfl := or_self_iff.1 updates
    exact ⟨trivial, fun _ _ => trivial⟩

theorem quiet_afterLoss (lost : a.phase = .lost) (request : Request B) (later : afterLoss request) :
    (creating s rules looked).owes a request ∧
      ∀ reply, (creating s rules looked).next a request reply = a := by
  cases request with
  | find dataType property value =>
    exact ⟨fun before => (by rw [lost] at before; cases before), fun _ => rfl⟩
  | update d values => exact ⟨lost, fun _ => rfl⟩
  | insert d values => exact later.elim
  | delete d => exact later.elim
  | rules type => exact later.elim
  | acquire key token => exact later.elim
  | release key => exact later.elim
  | _ => exact ⟨trivial, fun _ => rfl⟩

/-- The insert carries the value of every path that the message yields one for. -/
theorem carries_of_created {inst : Instance D} (starts : job.Starts s rules chosen)
    (holds : ∀ path v, PropertyValue.last? path (job.yields chosen) = some v →
      s.dataType.valueAt path inst.data = some v) :
    s.Carries (job.yields chosen) (s.dataType.toDocument inst.data)
      (Invocation.valuesOf s inst.data (RuleSet.distinctPaths [] rules.indexed)) := by
  refine ⟨inst.data, rfl, fun path v last => ⟨holds path v last, ?_⟩⟩
  obtain ⟨r, among, rfl⟩ := named_of_last? starts last
  obtain ⟨indexed, isIndexed, same⟩ := RuleSet.indexed_covers among
  obtain ⟨kept, isKept, same'⟩ : ∃ kept ∈ RuleSet.distinctPaths [] rules.indexed,
      kept.property = indexed.property := RuleSet.distinctPaths_covers (.inr isIndexed)
  have named : kept.property = r.property := same'.trans same
  obtain ⟨accessor, known, rfl⟩ := Option.map_eq_some_iff.1 (holds _ v last)
  have listed := (RuleSet.mem_distinctPaths isKept).resolve_left List.not_mem_nil
  have typed := (Correlator.declare_eq_ok starts.declared kept (RuleSet.mem_indexed listed)).1
  have covers : ⟨kept.property, accessor.value inst.data⟩ ∈
      Invocation.valuesOf s inst.data (RuleSet.distinctPaths [] rules.indexed) :=
    Invocation.valuesOf_covers isKept typed (named ▸ known)
  rwa [named] at covers

theorem keeps_first {i : Invocation D B} {more : Option (Invocation D B →
      Program B (Commit.Outcome D B))} (starts : job.Starts s rules chosen)
    (before : a.phase = .before) (created : Created s job.delivery.message (job.yields chosen) i)
    (further : ∀ again ∈ more, ∀ j, j.handler = i.handler →
      (again j).Keeps (Program.asking afterLoss) () (Commit.SameHandler i)) :
    (Commit.round .request (RuleSet.distinctPaths [] rules.indexed) 1 .insert more i).Keeps
      (creating s rules (job.yields chosen)) a fun _ _ => True := by
  obtain ⟨inst, isBound, isNew, holds⟩ := created.bound
  have carries := carries_of_created starts holds
  refine Commit.keeps_round created.handler isBound creating_ignores.note
    (creating_ignores_count _) (creating_ignores_count _) ⟨⟨before, carries⟩, fun reply _ => ?_⟩
  cases reply with
  | ok stored => trivial
  | error e =>
    cases e with
    | backend reason => trivial
    | serialization e => trivial
    | conflict reason =>
      show ite _ _ _
      split
      next =>
        cases more with
        | none => trivial
        | some again =>
          have resolved : (Commit.resolveConflict .request 1 .insert
              (s.dataType.toDocument inst.data)
              (Invocation.valuesOf s inst.data (RuleSet.distinctPaths [] rules.indexed)) again
              i).Keeps (Program.asking afterLoss) () (Commit.SameHandler i) :=
            (permits_afterLoss s (RuleSet.distinctPaths [] rules.indexed)).keeps_resolved
              created.handler isBound rfl (further again rfl)
          exact (resolved.of_asking trivial (quiet_afterLoss rfl)).imp fun _ _ _ => trivial
      next => trivial

theorem keeps_commit {i : Invocation D B} (starts : job.Starts s rules chosen)
    (before : a.phase = .before) (created : Created s job.delivery.message (job.yields chosen) i)
    (maxAttempts : Nat) :
    (Commit.persist .request maxAttempts (RuleSet.distinctPaths [] rules.indexed) .insert i).Keeps
      (creating s rules (job.yields chosen)) a fun _ _ => True := by
  unfold Commit.persist
  cases maxAttempts - 1 with
  | zero => exact keeps_first starts before created nofun
  | succ more =>
    refine keeps_first starts before created fun again member j same => ?_
    obtain rfl := Option.some.inj member
    refine ((permits_afterLoss s _).keeps_rounds (same.trans created.handler)).imp ?_
    exact fun r _ kept => kept.trans same

/-! ## The whole message -/

theorem keeps_runBound {onMiss : MissHandler D B} {maxAttempts : Nat}
    (distinct : s.dataType.Distinct)
    (starts : job.Starts s rules chosen) (before : a.phase = .before) :
    (Incoming.runBound .request maxAttempts onMiss [⟨0, chosen, rules.indexed⟩]
      (Stage.dispatch .request fun m => return (m, .ok ())) job.incoming).Keeps
        (creating s rules (job.yields chosen)) a fun _ _ => True := by
  have ignores : (creating s rules (job.yields chosen)).IgnoresActs Send.request := creating_ignores
  refine Incoming.keeps_inTurn_cons
    (Incoming.keeps_bindAll_alone (Job.invocations_of_alone starts.alone) ?_)
  rw [job.message_incoming, job.context_incoming]
  refine (keeps_bindOne distinct starts before).imp ?_
  rintro ⟨i, answer⟩ b ⟨rfl, created⟩
  cases answer with
  | error e => trivial
  | ok =>
    have created := created rfl
    refine Incoming.keeps_inTurn_cons (Incoming.keeps_dispatch_alone rfl created.runs ?_)
    refine (keeps_handler starts created).imp ?_
    rintro ⟨j, answer⟩ b ⟨rfl, created⟩
    cases answer with
    | error e => trivial
    | ok =>
      have created := created rfl
      obtain ⟨inst, isBound, isNew, -⟩ := created.bound
      refine Incoming.keeps_inTurn_single (Incoming.keeps_persist_new rfl created.runs
        created.handler isBound isNew ignores.note (creating_ignores_count _) trivial ?_)
      exact keeps_commit starts before created maxAttempts

theorem keeps_releaseAll (held : List String) (a : Creation) :
    (Incoming.releaseAll (B := B) held).Keeps (creating s rules looked) a fun _ b =>
      b.phase = a.phase ∧ ∀ key, key ∈ held ∨ key ∈ a.free → key ∈ b.free := by
  have notes : ∀ entry, (creating s rules looked).Ignores (.note entry) := creating_ignores.note
  induction held generalizing a with
  | nil => exact ⟨rfl, fun key listed => listed.resolve_left List.not_mem_nil⟩
  | cons key earlier ih =>
    have further : (Incoming.releaseAll (B := B) earlier).Keeps (creating s rules looked)
        { a with free := key :: a.free } fun _ b =>
          b.phase = a.phase ∧ ∀ other, other ∈ key :: earlier ∨ other ∈ a.free →
            other ∈ b.free := by
      refine (ih { a with free := key :: a.free }).imp ?_
      rintro - b ⟨same, free⟩
      refine ⟨same, fun other listed => free other ?_⟩
      simp only [List.mem_cons] at listed ⊢
      tauto
    refine Program.keeps_call_bind trivial fun reply _ => ?_
    rcases reply with e | _ | _
    · exact Program.keeps_ignored_bind (notes _) fun _ => further
    · exact Program.keeps_ignored_bind (notes _) fun _ => further
    · exact further

theorem keeps_acquireAll (token : CancelToken) (keys held : List String) (a : Creation) :
    (Incoming.acquireAll token held keys).Keeps (creating s rules looked) a fun r b =>
      b.phase = a.phase ∧ ∀ all, r = .ok all →
        all = keys.reverse ++ held ∧ (keys ≠ [] → token ≠ .fixed true) := by
  have notes : ∀ entry, (creating s rules looked).Ignores (.note entry) := creating_ignores.note
  induction keys generalizing held a with
  | nil => exact ⟨rfl, fun all same => ⟨(Except.ok.inj same).symm, absurd rfl⟩⟩
  | cons key rest ih =>
    refine Program.keeps_call_bind trivial fun reply expected => ?_
    have refuse : ∀ e : SagaError, ((Incoming.releaseAll (B := B) held).bind fun _ =>
        .done (Except.error e : Except SagaError (List String))).Keeps (creating s rules looked)
          { a with free := [] } fun r b => b.phase = a.phase ∧ ∀ all, r = .ok all →
            all = (key :: rest).reverse ++ held ∧ (key :: rest ≠ [] → token ≠ .fixed true) :=
      fun e => (keeps_releaseAll held _).bind fun _ b released => ⟨released.1, nofun⟩
    rcases reply with e | _ | _
    · exact refuse _
    · exact Program.keeps_ignored_bind (notes _) fun _ => refuse _
    · refine (ih (key :: held) { a with free := [] }).imp ?_
      rintro r b ⟨same, taken⟩
      refine ⟨same, fun all isAll => ⟨?_, fun _ => expected rfl⟩⟩
      simpa using (taken all isAll).1

end RoundTrip

open RoundTrip in
/-- A message that succeeds has given back every lock that it took, and was not cancelled. -/
theorem Job.keeps_creating {job : Job D B} {chosen : List (Rule B)} (distinct : s.dataType.Distinct)
    (starts : job.Starts s rules chosen) :
    job.program.Keeps (creating s rules (job.yields chosen)) ⟨.before, []⟩ fun r a =>
      r.2 = .ok () → job.locking = true → (∀ key ∈ job.keys rules chosen, key ∈ a.free) ∧
        (job.keys rules chosen ≠ [] → job.incoming.token ≠ .fixed true) := by
  have ignores : (creating s rules (job.yields chosen)).IgnoresActs Send.request := creating_ignores
  refine Job.keeps_program ignores.note (Incoming.keeps_coordinate_locking ignores.note
    (Incoming.keeps_bindings_alone (Job.invocations_of_alone starts.alone) rfl rfl
      (fun reply expected => ⟨expected, rfl⟩) (job.message_incoming ▸ starts.accepted))
    nofun nofun ?_ ?_)
  · rintro bindings served unlocked
    obtain rfl := Except.ok.inj served
    exact (keeps_runBound distinct starts rfl).imp fun r b _ _ locks =>
      nomatch unlocked.symm.trans locks
  · rintro bindings served -
    obtain rfl := Except.ok.inj served
    refine (keeps_acquireAll _ _ [] _).imp ?_
    rintro (e | held) b ⟨before, taken⟩
    · exact nofun
    · obtain ⟨rfl, uncancelled⟩ := taken held rfl
      refine (keeps_runBound distinct starts before).imp fun r u _ => ?_
      refine (keeps_releaseAll _ u).imp fun _ v released _ _ => ⟨fun key listed => ?_, uncancelled⟩
      exact released.2 key (.inl (by simpa [Job.keys] using listed))

end Sagas
