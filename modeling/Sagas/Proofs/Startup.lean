import Sagas.Proofs.Causes
import Sagas.Proofs.World

/-!
# What startup finds out about sagas

Registering all sagas at startup builds the rules of the first saga of every name, which owns the
name from then on. Any other saga of that name is looked at for the first time when a message comes
for it: if it has the owner's data type, it gets the owner's rules, and if not, the message fails.

Results:
1. `mem_sagaTypes`: startup asks for the rules of the owners.
2. `checked_of_run`: what the rule cache holds once startup has succeeded.
3. `keeps_bindings_consulting`: the rules of a message, out of such a cache.
4. `startup_checks_owners`: which configuration errors are left to messages.
-/

namespace Sagas

variable {D B : Type}

theorem RuleSet.noCorrelation_of_forMessage {rules : RuleSet B} {message : Message B}
    {cause : ConfigError} (unmatched : rules.forMessage message = .error cause) :
    ∃ name, cause = .noCorrelation name message.type := by
  unfold forMessage at unmatched
  split at unmatched
  next => exact ⟨_, (Except.error.inj unmatched).symm⟩
  next => cases unmatched

/-! ## Owners of names -/

namespace Registry

/-- The saga that is registered first under a name. -/
def owner? (r : Registry D B) (name : String) : Option (Saga D B) :=
  r.sagas.find? (·.name = name)

variable {r : Registry D B} {saga owner : Saga D B} {name : String} {type : SagaType B}

theorem owner_name (owns : r.owner? name = some owner) : owner.name = name := by
  simpa using List.find?_some owns

theorem owner_mem (owns : r.owner? name = some owner) : owner ∈ r.sagas :=
  List.mem_of_find?_eq_some owns

theorem exists_owner (registered : saga ∈ r.sagas) : ∃ owner, r.owner? saga.name = some owner := by
  refine Option.isSome_iff_exists.1 (List.find?_isSome.2 ⟨saga, registered, ?_⟩)
  simp

/-- Startup asks for the rules of the owners. -/
theorem mem_sagaTypes :
    type ∈ r.sagaTypes ↔ ∃ owner, r.owner? type.name = some owner ∧ owner.type = type := by
  have collected : ∀ (sagas : List (Saga D B)) (types : List (SagaType B)),
      type ∈ sagas.foldl (fun types s =>
          if types.any (·.name = s.name) then types else types ++ [s.type]) types ↔
        type ∈ types ∨ (∀ t ∈ types, t.name ≠ type.name) ∧
          ∃ owner, sagas.find? (·.name = type.name) = some owner ∧ owner.type = type := by
    intro sagas
    induction sagas with
    | nil => simp
    | cons s rest ih =>
      intro types
      have named : s.type.name = s.name := rfl
      rw [List.foldl_cons, ih, List.find?_cons]
      by_cases same : s.name = type.name
      · grind
      · grind
  have all := collected r.sagas []
  simpa [sagaTypes, sagas, owner?] using all

end Registry

/-! ## The cache after startup -/

namespace RuleCache

variable {c c' : RuleCache B} {type : SagaType B} {rules : RuleSet B}

/-- Rules that were handed out are kept, under the data type they were asked for with. -/
theorem known_of_get (accepted : (c.get type).1 = .ok rules) :
    (c.get type).2.built.get? type.name = some ⟨type.dataType, .ok rules⟩ := by
  cases known : c.built.get? type.name with
  | none =>
    simp only [get, known] at accepted ⊢
    simp [Dictionary.get?_insert, accepted]
  | some built =>
    obtain ⟨dataType, rules'⟩ := built
    simp only [get, known] at accepted ⊢
    split at accepted
    next same =>
      obtain rfl := accepted
      obtain rfl : dataType = type.dataType := same
      rfl
    next => cases accepted

/-- What is known of a name stays known. -/
theorem get?_get {name : String} {built : Built B} (known : c.built.get? name = some built) :
    (c.get type).2.built.get? name = some built := by
  cases here : c.built.get? type.name with
  | some other =>
    simp only [get, here]
    exact known
  | none =>
    have differs : name ≠ type.name := by
      rintro rfl
      cases here.symm.trans known
    simp only [get, here]
    rw [Dictionary.get?_insert, if_neg differs, known]

/-- What is known was known before, or is what the saga declares. -/
theorem origin_get {name : String} {built : Built B}
    (known : (c.get type).2.built.get? name = some built) :
    c.built.get? name = some built ∨
      type.name = name ∧ built = ⟨type.dataType, type.declaration⟩ := by
  cases here : c.built.get? type.name with
  | some other =>
    simp only [get, here] at known
    exact .inl known
  | none =>
    simp only [get, here, Dictionary.get?_insert] at known
    split at known
    next same => exact .inr ⟨same.symm, (Option.some.inj known).symm⟩
    next => exact .inl known

/-- What asking for the rules of these sagas, all of them with success, makes of a cache. -/
structure Checked (types : List (SagaType B)) (before after : RuleCache B) : Prop where
  grows : ∀ {name built}, before.built.get? name = some built →
    after.built.get? name = some built
  accepted : ∀ type ∈ types, ∃ rules,
    after.built.get? type.name = some ⟨type.dataType, .ok rules⟩
  origin : ∀ {name built}, after.built.get? name = some built →
    before.built.get? name = some built ∨
      ∃ type ∈ types, type.name = name ∧ built = ⟨type.dataType, type.declaration⟩

end RuleCache

theorem Program.run_call_bind {α σ : Type} {answer : Answering B σ} {request : Request B}
    {next : Reply request → Program B α} {s : σ} :
    (call request >>= next).run answer s =
      (next (answer request s).1).run answer (answer request s).2 := rfl

theorem Registry.checked_of_run {types : List (SagaType B)} {w w' : World B}
    (ran : (buildAll types).run World.answer w = (some (.ok ()), w')) :
    RuleCache.Checked types w.cache w'.cache := by
  induction types generalizing w with
  | nil =>
    obtain rfl : w = w' := congrArg Prod.snd ran
    exact ⟨id, nofun, .inl⟩
  | cons type rest ih =>
    obtain ⟨answered, cached⟩ := w.answer_rules type
    rw [buildAll, Program.run_call_bind, answered] at ran
    cases accepted : (w.cache.get type).1 with
    | error e =>
      rw [accepted] at ran
      cases congrArg Prod.fst ran
    | ok rules =>
      rw [accepted] at ran
      have checked := ih ran
      rw [cached] at checked
      refine ⟨fun known => checked.grows (RuleCache.get?_get known), ?_, fun known => ?_⟩
      · refine List.forall_mem_cons.2 ⟨⟨rules, ?_⟩, checked.accepted⟩
        exact checked.grows (RuleCache.known_of_get accepted)
      · rcases checked.origin known with before | ⟨other, listed, origin⟩
        · refine (RuleCache.origin_get before).imp_right fun origin => ?_
          exact ⟨type, List.mem_cons_self, origin⟩
        · exact .inr ⟨other, List.mem_cons_of_mem _ listed, origin⟩

/-- After startup a saga gets the rules of the owner of its name, provided that it has the owner's
data type, and the cache stays as it is. -/
theorem RuleCache.Checked.get {r : Registry D B} {cache : RuleCache B}
    (checked : Checked r.sagaTypes .empty cache) {saga : Saga D B} (registered : saga ∈ r.sagas) :
    ∃ owner rules, r.owner? saga.name = some owner ∧ owner.type.declaration = .ok rules ∧
      cache.get saga.type = (if owner.dataType.name = saga.dataType.name then .ok rules
        else .error (.duplicateSagaType saga.name owner.dataType.name), cache) := by
  obtain ⟨owner, owns⟩ := Registry.exists_owner registered
  have named : owner.name = saga.name := Registry.owner_name owns
  have itself : r.owner? owner.name = some owner := by rw [named, owns]
  have listed : owner.type ∈ r.sagaTypes := Registry.mem_sagaTypes.2 ⟨owner, itself, rfl⟩
  obtain ⟨rules, known⟩ := checked.accepted owner.type listed
  have declared : owner.type.declaration = .ok rules := by
    rcases checked.origin known with before | ⟨type, among, same, built⟩
    · cases before
    · obtain ⟨owner', owns', rfl⟩ := Registry.mem_sagaTypes.1 among
      rw [same] at owns'
      obtain rfl : owner = owner' := Option.some.inj (itself.symm.trans owns')
      exact (congrArg Built.rules built).symm
  have known : cache.built.get? saga.name = some ⟨owner.dataType.name, .ok rules⟩ := by
    rw [← named]
    exact known
  refine ⟨owner, rules, owns, declared, ?_⟩
  have asked : saga.type.name = saga.name := rfl
  simp only [RuleCache.get, asked, known]
  rfl

/-- Only sagas of the owner's data type have rules. -/
theorem RuleCache.Checked.accepts_iff {r : Registry D B} {cache : RuleCache B}
    (checked : Checked r.sagaTypes .empty cache) {saga owner : Saga D B}
    (registered : saga ∈ r.sagas) (owns : r.owner? saga.name = some owner) :
    (∃ rules, (cache.get saga.type).1 = .ok rules) ↔
      owner.dataType.name = saga.dataType.name := by
  obtain ⟨_, rules, owns', -, gets⟩ := checked.get registered
  obtain rfl := Option.some.inj (owns.symm.trans owns')
  rw [gets]
  split
  next same => exact ⟨fun _ => same, fun _ => ⟨rules, rfl⟩⟩
  next other => exact ⟨nofun, fun same => absurd same other⟩

/-! ## Messages after startup -/

/-- The contract of a message whose rules come from this cache. -/
def consulting (cache : RuleCache B) : Contract B Unit where
  owes _ _ := True
  expects _ request reply :=
    match request, reply with
    | .rules type, reply => reply = (cache.get type).1
    | _, _ => True
  next _ _ _ := ()

/-- The rules that were asked for in these exchanges came from this cache. -/
def RuleCache.Serves (cache : RuleCache B) (past : List (Exchange B)) : Prop :=
  ∀ type reply, (⟨.rules type, reply⟩ : Exchange B) ∈ past → reply = (cache.get type).1

theorem RuleCache.Serves.met {cache : RuleCache B} {past : List (Exchange B)}
    (serves : cache.Serves past) : (consulting cache).Met () past := by
  induction past with
  | nil => trivial
  | cons x earlier ih =>
    refine ⟨ih fun type reply member => serves type reply (List.mem_cons_of_mem _ member), ?_⟩
    obtain ⟨request, reply⟩ := x
    cases request with
    | rules type => exact serves type reply List.mem_cons_self
    | _ => trivial

/-- Why a saga has no rules for a message. -/
def RuleCache.Refuses (cache : RuleCache B) (saga : Saga D B) (message : Message B)
    (cause : ConfigError) : Prop :=
  (cache.get saga.type).1 = .error cause ∨
    ∃ rules, (cache.get saga.type).1 = .ok rules ∧ rules.forMessage message = .error cause

namespace Incoming

/-- A message has the rules of all its sagas, or one of its sagas is refused. -/
theorem keeps_bindings_consulting (cache : RuleCache B) (m : Incoming D B) :
    m.bindings.Keeps (consulting cache) () fun r _ =>
      match r with
      | .ok _ => ∀ i ∈ m.invocations, ∀ saga, i.saga? = some saga →
        ∀ cause, ¬ cache.Refuses saga m.message cause
      | .error e => ∃ i ∈ m.invocations, ∃ saga cause, i.saga? = some saga ∧
        cache.Refuses saga m.message cause ∧ e = .configuration cause := by
  unfold Incoming.bindings
  generalize 0 = index, m.invocations = invocations
  induction invocations generalizing index with
  | nil => exact nofun
  | cons i rest ih =>
    rw [bindingsFrom]
    split
    next plain =>
      refine (ih _).imp fun r _ ended => ?_
      cases r with
      | ok bindings =>
        refine List.forall_mem_cons.2 ⟨fun saga isSaga => ?_, ended⟩
        cases plain.symm.trans isSaga
      | error e =>
        obtain ⟨j, among, refused⟩ := ended
        exact ⟨j, List.mem_cons_of_mem _ among, refused⟩
    next saga isSaga =>
      refine Program.keeps_call_bind trivial fun reply served => ?_
      obtain rfl : reply = (cache.get saga.type).1 := served
      cases answered : (cache.get saga.type).1 with
      | error cause => exact ⟨i, List.mem_cons_self, saga, cause, isSaga, .inl answered, rfl⟩
      | ok rules =>
        cases chosen : rules.forMessage m.message with
        | error cause =>
          simp only [chosen]
          exact ⟨i, List.mem_cons_self, saga, cause, isSaga, .inr ⟨rules, answered, chosen⟩, rfl⟩
        | ok forMessage =>
          simp only [chosen]
          refine (ih _).bind fun r _ ended => ?_
          cases r with
          | error e =>
            obtain ⟨j, among, refused⟩ := ended
            exact ⟨j, List.mem_cons_of_mem _ among, refused⟩
          | ok bindings =>
            refine List.forall_mem_cons.2 ⟨fun other same => ?_, ended⟩
            obtain rfl := Option.some.inj (isSaga.symm.trans same)
            rintro cause (refused | ⟨_, given, refused⟩)
            · cases answered.symm.trans refused
            · cases answered.symm.trans given
              cases chosen.symm.trans refused

end Incoming

/-- A message fails over the configuration exactly if one of its sagas is refused, unless its error
handler makes up such a failure. -/
theorem Job.configuration_of_returns {job : Job D B} {cache : RuleCache B}
    {past : List (Exchange B)} {m : Incoming D B} {answer : Except SagaError Unit}
    (serves : cache.Serves past) (returns : job.program.Returns past (m, answer)) :
    (∀ i ∈ job.incoming.invocations, ∀ saga, i.saga? = some saga →
        ∀ cause, ¬ cache.Refuses saga job.delivery.message cause) ∧
        (∀ cause, answer = .error (.configuration cause) →
          job.onMiss.Fails (.configuration cause)) ∨
      ∃ i ∈ job.incoming.invocations, ∃ saga cause, i.saga? = some saga ∧
        cache.Refuses saga job.delivery.message cause ∧
        answer = .error (.configuration cause) := by
  have whole := returns
  rw [job.program_stages, Program.returns_bind] at returns
  obtain ⟨served, early, late, first, follows, rfl⟩ := returns
  have part {some : List (Exchange B)} (within : some ⊆ late ++ early) : cache.Serves some :=
    fun type reply member => serves type reply (within member)
  have kept := first.keeps (Incoming.keeps_bindings_consulting cache job.incoming)
    (part (List.subset_append_right late early)).met
  rw [job.message_incoming] at kept
  cases served with
  | error e =>
    obtain ⟨i, among, saga, cause, isSaga, refused, rfl⟩ := kept
    have ended : (finish [] (job.incoming, .error (.configuration cause))).Returns late
        (m, answer) := follows
    have same := congrArg Prod.snd (returns_finish ended).1
    exact .inr ⟨i, among, saga, cause, isSaga, refused, same⟩
  | ok bindings =>
    refine .inl ⟨kept, fun cause same => ?_⟩
    subst same
    obtain ⟨stop, held, before, after, fails, -, split⟩ := failsAt_of_returns whole
    have raised := fails.raises
    cases fails with
    | rules fails =>
      have again := fails.keeps (Incoming.keeps_bindings_consulting cache job.incoming)
        (part (split ▸ List.subset_append_right after before)).met
      rw [job.message_incoming] at again
      obtain ⟨i, among, saga, cause, isSaga, refused, -⟩ := again
      exact absurd refused (kept i among saga isSaga cause)
    | binding => exact raised
    | _ => exact raised.elim

/-- What a cache that startup has filled is good for. -/
structure Registry.Started (registry : Registry D B) (cache : RuleCache B) : Prop where
  /-- A saga has the rules that the owner of its name declares, or is refused for another data type
  than the owner's, and the cache stays as it is. -/
  owners : ∀ saga ∈ registry.sagas, ∃ owner rules, registry.owner? saga.name = some owner ∧
    owner.type.declaration = .ok rules ∧ cache.get saga.type =
      (if owner.dataType.name = saga.dataType.name then .ok rules
        else .error (.duplicateSagaType saga.name owner.dataType.name), cache)
  /-- All sagas have rules exactly if those of one name have one data type. -/
  served : (∀ saga ∈ registry.sagas, ∃ rules, (cache.get saga.type).1 = .ok rules) ↔
    ∀ saga ∈ registry.sagas, ∀ other ∈ registry.sagas, saga.name = other.name →
      saga.dataType.name = other.dataType.name
  /-- A message that fails over the configuration does so because a saga has no rule for it, or has
  another data type than the owner of its name, or because its error handler wants it to, never
  because of a declaration. -/
  causes : ∀ job : Job D B, job.registry = registry → ∀ past m cause,
    job.program.Returns past (m, .error (.configuration cause)) → cache.Serves past →
      (∃ name, cause = .noCorrelation name job.delivery.message.type) ∨
        (∃ i ∈ job.incoming.invocations, ∃ saga owner, i.saga? = some saga ∧
          registry.owner? saga.name = some owner ∧ owner.dataType.name ≠ saga.dataType.name ∧
          cause = .duplicateSagaType saga.name owner.dataType.name) ∨
        job.onMiss.Fails (.configuration cause)
  /-- And with such a saga among its handlers, a message does fail over the configuration. -/
  fails : ∀ job : Job D B, job.registry = registry → ∀ past m answer,
    job.program.Returns past (m, answer) → cache.Serves past →
      ∀ i ∈ job.incoming.invocations, ∀ saga owner, i.saga? = some saga →
        registry.owner? saga.name = some owner → owner.dataType.name ≠ saga.dataType.name →
          ∃ cause, answer = .error (.configuration cause)

/-- Startup with a fresh cache finds out about the owners of names, and about no other saga. -/
theorem startup_checks_owners (registry : Registry D B) {w w' : World B} (fresh : w.cache = .empty)
    (started : registry.registerAll.run World.answer w = (some (.ok ()), w')) :
    registry.Started w'.cache := by
  have checked := Registry.checked_of_run started
  rw [fresh] at checked
  have registered {job : Job D B} {i : Invocation D B} (among : i ∈ job.incoming.invocations)
      {saga : Saga D B} (isSaga : i.saga? = some saga) : saga ∈ job.registry.sagas :=
    (Job.start_of_mem among).2.2 saga (Invocation.handler_of_saga? isSaga)
  constructor
  case owners => exact fun saga registered => checked.get registered
  case served =>
    constructor
    · intro served saga registered other registered' same
      obtain ⟨owner, owns⟩ := Registry.exists_owner registered
      have first := (checked.accepts_iff registered owns).1 (served saga registered)
      rw [same] at owns
      exact first.symm.trans ((checked.accepts_iff registered' owns).1 (served other registered'))
    · intro agree saga registered
      obtain ⟨owner, owns⟩ := Registry.exists_owner registered
      exact (checked.accepts_iff registered owns).2
        (agree owner (Registry.owner_mem owns) saga registered (Registry.owner_name owns))
  case causes =>
    rintro job rfl past m cause returns serves
    rcases Job.configuration_of_returns serves returns with ⟨-, passes⟩ |
      ⟨i, among, saga, cause', isSaga, refused, same⟩
    · exact .inr (.inr (passes cause rfl))
    cases same
    obtain ⟨owner, rules, owns, -, gets⟩ := checked.get (registered among isSaga)
    rw [RuleCache.Refuses, gets] at refused
    dsimp only at refused
    split at refused
    next =>
      obtain ⟨given, same, unmatched⟩ := refused.resolve_left nofun
      exact .inl (RuleSet.noCorrelation_of_forMessage unmatched)
    next differs =>
      refine .inr (.inl ⟨i, among, saga, owner, isSaga, owns, differs, ?_⟩)
      rcases refused with duplicate | ⟨rules, given, -⟩
      · exact (Except.error.inj duplicate).symm
      · cases given
  case fails =>
    rintro job rfl past m answer returns serves i among saga owner isSaga owns differs
    rcases Job.configuration_of_returns serves returns with ⟨accepted, -⟩ |
      ⟨-, -, -, cause, -, -, failed⟩
    · have known := (checked.accepts_iff (registered among isSaga) owns).not.2 differs
      cases gets : (w'.cache.get saga.type).1 with
      | ok rules => exact absurd ⟨rules, gets⟩ known
      | error cause => exact absurd (.inl gets) (accepted i among saga isSaga cause)
    · exact ⟨cause, failed⟩

/-! ## Tallies at startup -/

section Tally

open Demo

theorem tallies_start_up :
    let started := (Tally.registry false).registerAll.run World.answer (World.start .default)
    started.1 = some (.ok ()) ∧ (Tally.registry false).Started started.2.cache := by
  intro started
  have fresh : (World.start (B := Posting) .default).cache = .empty := rfl
  have accepted : started.1 = some (.ok ()) := rfl
  exact ⟨accepted, startup_checks_owners _ fresh (Prod.ext accepted rfl)⟩

/-- A second saga of the name that tallies have, over another data type. -/
def impostor : Saga Tally Posting :=
  { Tally.saga false with dataType := { Tally.dataType with name := "demo.budget" } }

def disputed : Registry Tally Posting :=
  (Registry.empty.add "demo.post" (.saga (Tally.saga false))).add "demo.post" (.saga impostor)

/-- Startup accepts both, the rules of the second are refused afterwards, and the first message for
it fails. -/
theorem impostor_found_too_late :
    let started := disputed.registerAll.run World.answer (World.start .default)
    let duplicate := ConfigError.duplicateSagaType "saga.tally" "demo.tally"
    started.1 = some (.ok ()) ∧
      (∃ i ∈ disputed.invocations (Tally.post "rent" 5).message true, i.saga? = some impostor) ∧
      (started.2.cache.get impostor.type).1 = .error duplicate ∧
      (((Bus.standard .default false .logAndSkip disputed 0).process (Tally.post "rent" 5)).run
        World.answer started.2).1.map (·.2) = some (.error (.configuration duplicate)) :=
  ⟨rfl, ⟨_, List.mem_cons_of_mem _ List.mem_cons_self, rfl⟩, rfl, rfl⟩

end Tally

end Sagas
