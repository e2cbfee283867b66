import Sagas.Demo.Tally
import Sagas.Proofs.RoundTrip.Values
import Sagas.Proofs.Stages

/-!
# Values that are not set

The default of a kind stands for a value that is not set. No row is indexed under such a value, so
nothing is found by it, with one exception: the identity is looked up without the index, and a new
instance takes over whatever identity its message yields. So an instance can be stored under the
nil identity, and messages that have no identity to offer, but name the nil one, meet there.

Results:
1. `Consistent.find_unset`: an unset value finds the row of the nil identity, by `Id`, if anything.
2. `KeepsIdentity.id_newData`: a new instance keeps its own identity, unless the nil one is named.
3. `Binds.loaded_unset`, `Binds.id_unset`: what unset values bind an invocation to.
4. `unset_meets_at_nil`: the messages of every run.
-/

namespace Sagas

variable {ι D B : Type}

/-! ## Looking up -/

/-- Of all values that are not set, the nil identifier alone is one. -/
theorem Scalar.coerceTo_uuid_of_unset {v : Scalar} (unset : v.isUnset = true) :
    v.coerceTo .uuid = if v = .uuid .nil then some .nil else none := by
  rw [Scalar.isUnset_iff] at unset
  cases v with
  | uuid u =>
    obtain rfl : u = .nil := Scalar.uuid.inj unset
    rfl
  | string s =>
    obtain rfl : s = "" := Scalar.string.inj unset
    decide
  | bool b => rfl
  | int w n => rfl

/-- No row is found by a value that is not set, but by the nil identity. -/
theorem Store.Consistent.find_unset {s : Store} (kept : s.Consistent) {v : Scalar}
    (unset : v.isUnset = true) (dataType property : String) :
    s.find dataType property v =
      if property = identityPath ∧ v = .uuid .nil then (s.row? dataType .nil).map (·.document)
      else none := by
  by_cases identity : property = identityPath
  · subst identity
    by_cases isNil : v = .uuid .nil
    · rw [if_pos ⟨rfl, isNil⟩, isNil, s.find_identity]
    · rw [if_neg fun both => isNil both.2]
      simp [Store.find, Partition.find, Scalar.coerceTo_uuid_of_unset unset, isNil]
  · rw [if_neg fun both => identity both.1, s.find_property identity]
    cases owned : s.owner? dataType ⟨property, v⟩ with
    | none => rfl
    | some id =>
      obtain ⟨row, present, key⟩ := kept.owner.1 owned
      have set : v.isUnset = false := (kept.indexed present key).2
      rw [unset] at set
      cases set

/-! ## New instances -/

/-- `Id` reaches the identity, and no other path does. -/
structure DataType.KeepsIdentity (t : DataType D) : Prop where
  identity : t.table.get? identityPath =
    some ⟨identityPath, .uuid, t.metadata.comp Metadata.idLens⟩
  apart : ∀ {path : String} {a : Accessor D}, t.table.get? path = some a → path ≠ identityPath →
    ∀ d x, t.id (a.field.set d x) = t.id d

theorem DataType.Distinct.keepsIdentity {t : DataType D} (distinct : t.Distinct) :
    t.KeepsIdentity where
  identity := distinct.identity
  apart known other := distinct.apart known distinct.identity other

namespace DataType.KeepsIdentity

variable {t : DataType D} {values : List PropertyValue}

theorem id_assign (keeps : t.KeepsIdentity) {p : PropertyValue} (unset : p.value.isUnset = true)
    (d : D) :
    t.id (((t.table.get? p.name).bind (·.assign? p.value d)).getD d) =
      if p = ⟨identityPath, .uuid .nil⟩ then .nil else t.id d := by
  obtain ⟨name, v⟩ := p
  by_cases identity : name = identityPath
  · subst identity
    rw [keeps.identity, Option.bind_some, Accessor.assign?, Scalar.coerceTo_uuid_of_unset unset]
    by_cases isNil : v = .uuid .nil
    · rw [if_pos isNil, if_pos (by rw [isNil])]
      exact (t.metadata.comp Metadata.idLens).get_set d .nil
    · rw [if_neg isNil, if_neg fun same => isNil (congrArg PropertyValue.value same)]
      rfl
  · rw [if_neg fun same => identity (congrArg PropertyValue.name same)]
    cases known : t.table.get? name with
    | none => rfl
    | some a =>
      rw [Option.bind_some, Accessor.assign?]
      cases v.coerceTo a.kind with
      | none => rfl
      | some x => exact keeps.apart known identity d x

/-- Values that are not set leave an instance its identity, unless they name the nil one. -/
theorem id_assigned (keeps : t.KeepsIdentity) (unset : ∀ p ∈ values, p.value.isUnset = true)
    (d : D) :
    t.id (Invocation.assigned t.table values d) =
      if ⟨identityPath, .uuid .nil⟩ ∈ values then .nil else t.id d := by
  induction values generalizing d with
  | nil => rfl
  | cons p rest ih =>
    rw [Invocation.assigned, ih fun q member => unset q (List.mem_cons_of_mem _ member),
      keeps.id_assign (unset p List.mem_cons_self)]
    by_cases later : ⟨identityPath, .uuid .nil⟩ ∈ rest
    · rw [if_pos later, if_pos (List.mem_cons_of_mem _ later)]
    · rw [if_neg later]
      simp [later, eq_comm]

theorem id_newData {saga : Saga D B} (keeps : saga.dataType.KeepsIdentity)
    (unset : ∀ p ∈ values, p.value.isUnset = true) (fresh : Uuid) :
    saga.dataType.id (Invocation.newData saga values fresh) =
      if ⟨identityPath, .uuid .nil⟩ ∈ values then .nil else fresh := by
  rw [Invocation.newData, keeps.id_assigned unset]
  unfold DataType.id
  rw [saga.dataType.metadata.get_set]

end DataType.KeepsIdentity

/-! ## Binding -/

namespace Incoming

variable (message : Message B) (context : Context) (rules : List (Rule B))

/-- No value that the message yields for these rules is set. -/
def OnlyUnset : Prop :=
  ∀ p ∈ yields message context rules, p.value.isUnset = true

/-- The message yields an identity, which is the nil one. -/
def NamesNil : Prop :=
  ⟨identityPath, .uuid .nil⟩ ∈ yields message context rules

end Incoming

namespace Invocation

/-- An instance was found, and is bound. -/
def isLoaded (i : Invocation D B) : Bool :=
  i.bound.any (!·.isNew)

theorem id?_bound {i : Invocation D B} {saga : Saga D B} (isSaga : i.handler = .saga saga)
    (data : D) (isNew : Bool) :
    ({ i with bound := some (.ofData data isNew) } : Invocation D B).id? =
      some (saga.dataType.id data) := by
  simp [id?, instance?, isSaga, Instance.ofData]

variable {whole : List (Exchange B)} {onMiss : MissHandler D B} {message : Message B}
  {context : Context} {rules : List (Rule B)} {i j : Invocation D B}

/-- By unset values no other instance is loaded than that of the nil identity, and only if the
message names it. -/
theorem Binds.loaded_unset (binds : i.Binds whole onMiss message context rules j)
    (answered : ∀ x ∈ whole, ∃ s t : Store, s.Consistent ∧ s.Answers x.request x.reply t)
    (unset : Incoming.OnlyUnset message context rules) (unbound : i.bound = none)
    (loaded : j.isLoaded = true) :
    Incoming.NamesNil message context rules ∧ j.id? = some .nil := by
  cases binds with
  | @loaded saga r value d data isSaga among reads found decodes =>
    have yielded : ⟨r.property, value⟩ ∈ Incoming.yields message context rules :=
      Incoming.mem_yields.2 ⟨r, among, reads, rfl⟩
    obtain ⟨s, -, kept, answer, -⟩ := answered _ found
    have finds : s.find r.dataType r.property value = some d := (Except.ok.inj answer).symm
    rw [kept.find_unset (unset _ yielded)] at finds
    split at finds
    next both =>
      obtain ⟨identity, rfl⟩ := both
      rw [identity] at yielded
      obtain ⟨row, present, rfl⟩ := Option.map_eq_some_iff.1 finds
      obtain ⟨-, decoded, -, rfl⟩ := read_eq_ok decodes
      refine ⟨yielded, ?_⟩
      rw [id?_bound isSaga, DataType.id, saga.dataType.metadata.get_set]
      exact congrArg some (kept.id present)
    next => cases finds
  | started => cases loaded
  | supplied => cases loaded
  | skipped => simp [isLoaded, unbound] at loaded
  | ignored => simp [isLoaded, unbound] at loaded

/-- If no instance is loaded, none was found by any value. -/
theorem Binds.missed (binds : i.Binds whole onMiss message context rules j)
    (unloaded : j.isLoaded = false) : Incoming.Missed whole message context rules := by
  cases binds with
  | loaded => cases unloaded
  | started _ missed => exact missed
  | supplied _ missed => exact missed
  | skipped missed => exact missed
  | ignored missed => exact missed

/-- A message that starts instances, but yields only unset values, is bound to a new instance under
a generated identity, unless it names the nil identity: then it is bound to that one. -/
theorem Binds.id_unset (binds : i.Binds whole onMiss message context rules j)
    (answered : ∀ x ∈ whole, ∃ s t : Store, s.Consistent ∧ s.Answers x.request x.reply t)
    (unset : Incoming.OnlyUnset message context rules) (unbound : i.bound = none)
    (starts : message.hierarchy.any j.isInitiatedBy = true)
    (keeps : ∀ saga, j.handler = .saga saga → saga.dataType.KeepsIdentity) :
    (Incoming.NamesNil message context rules → j.id? = some .nil) ∧
      (¬ Incoming.NamesNil message context rules →
        j.isNew = true ∧ ∃ fresh, ⟨.freshId, fresh⟩ ∈ whole ∧ j.id? = some fresh) := by
  have loads := binds.loaded_unset answered unset unbound
  cases binds with
  | loaded =>
    obtain ⟨names, isNil⟩ := loads rfl
    exact ⟨fun _ => isNil, fun other => absurd names other⟩
  | @started saga fresh isSaga _ _ drawn =>
    rw [id?_bound isSaga, (keeps saga isSaga).id_newData unset]
    constructor
    · intro names
      exact congrArg some (if_pos names)
    · intro other
      exact ⟨rfl, fresh, drawn, congrArg some (if_neg other)⟩
  | supplied _ _ refused => cases starts.symm.trans refused
  | skipped _ refused => cases starts.symm.trans refused
  | ignored _ refused => cases starts.symm.trans refused

end Invocation

/-! ## All messages of a run -/

/-- The message, on its way, has bound an invocation by these rules. -/
def Party.HasBound (party : Party B (Processed D B)) (job : Job D B) (rules : List (Rule B))
    (i : Invocation D B) : Prop :=
  ∃ bindings held m past b, job.Bound bindings held m past ∧ past <:+ party.past ∧ b ∈ bindings ∧
    b.rules = rules ∧ m.invocations[b.index]? = some i

/-- An invocation is bound, from nothing, in one of the ways there are. -/
theorem Party.HasBound.binds {party : Party B (Processed D B)} {job : Job D B}
    {rules : List (Rule B)} {j : Invocation D B} (has : party.HasBound job rules j) :
    ∃ i : Invocation D B, i.bound = none ∧
      i.Binds party.past job.onMiss job.delivery.message job.delivery.context rules j := by
  obtain ⟨bindings, held, m, past, b, bound, earlier, known, rfl, place⟩ := has
  obtain ⟨served, half, -⟩ := bound.bound earlier.subset
  have here : b.index ∈ bindings.map (·.index) := List.mem_map_of_mem known
  rcases half.bound b.index j (fun left => nomatch left) place with
    ⟨outside, -⟩ | ⟨b', known', same, i, first, binds⟩
  · exact absurd here outside
  · obtain rfl : b' = b := List.inj_on_of_nodup_map served.nodup known' known same
    rw [job.message_incoming, job.context_incoming] at binds
    exact ⟨i, (Job.start_of_mem (List.mem_of_getElem? first)).1, binds⟩

/-- The message yields nothing but unset values for these rules, and by them has bound an invocation
whose saga may start an instance for it. -/
structure Party.StartsUnset (party : Party B (Processed D B)) (job : Job D B)
    (rules : List (Rule B)) (i : Invocation D B) : Prop where
  bound : party.HasBound job rules i
  unset : Incoming.OnlyUnset job.delivery.message job.delivery.context rules
  starts : job.delivery.message.hierarchy.any i.isInitiatedBy = true
  keeps : ∀ saga, i.handler = .saga saga → saga.dataType.KeepsIdentity

/-- The message names the nil identity. -/
def Job.NamesNil (job : Job D B) (rules : List (Rule B)) : Prop :=
  Incoming.NamesNil job.delivery.message job.delivery.context rules

/-- Identifiers that were generated are not nil, and no two parties were given the same one. -/
structure Crew.DrawsApart {α : Type} (crew : Crew ι B α) : Prop where
  set : ∀ k, ⟨.freshId, .nil⟩ ∉ (crew.parties k).past
  apart : ∀ j k fresh, ⟨.freshId, fresh⟩ ∈ (crew.parties j).past →
    ⟨.freshId, fresh⟩ ∈ (crew.parties k).past → j = k

section Runs

variable {store : Store} {jobs : ι → Job D B} {crew : Crew ι B (Processed D B)}

/-- What a message is bound to that starts instances, but yields only unset values. -/
theorem Party.StartsUnset.id {k : ι} {rules : List (Rule B)} {i : Invocation D B}
    (starts : (crew.parties k).StartsUnset (jobs k) rules i) (consistent : store.Consistent)
    (run : (Crew.start store fun k => (jobs k).program).Run crew) :
    ((jobs k).NamesNil rules → i.id? = some .nil) ∧
      (¬ (jobs k).NamesNil rules → i.isNew = true ∧
        ∃ fresh, ⟨.freshId, fresh⟩ ∈ (crew.parties k).past ∧ i.id? = some fresh) := by
  obtain ⟨i₀, unbound, binds⟩ := starts.bound.binds
  exact binds.id_unset (run.answered consistent k) starts.unset unbound starts.starts starts.keeps

/-- Two messages that start instances, but yield only unset values, are bound to one identity
exactly if both name the nil one. -/
theorem meet_iff_nil (consistent : store.Consistent)
    (run : (Crew.start store fun k => (jobs k).program).Run crew) (draws : crew.DrawsApart)
    {j k : ι} (differ : j ≠ k) {rules rules' : List (Rule B)} {i i' : Invocation D B}
    (starts : (crew.parties j).StartsUnset (jobs j) rules i)
    (starts' : (crew.parties k).StartsUnset (jobs k) rules' i') :
    i.id? = i'.id? ↔ (jobs j).NamesNil rules ∧ (jobs k).NamesNil rules' := by
  obtain ⟨atNil, atFresh⟩ := starts.id consistent run
  obtain ⟨atNil', atFresh'⟩ := starts'.id consistent run
  constructor
  · intro same
    by_cases names : (jobs j).NamesNil rules
    · by_cases names' : (jobs k).NamesNil rules'
      · exact ⟨names, names'⟩
      · obtain ⟨-, fresh, drawn, isFresh⟩ := atFresh' names'
        rw [atNil names, isFresh] at same
        obtain rfl := Option.some.inj same
        exact absurd drawn (draws.set k)
    · obtain ⟨-, fresh, drawn, isFresh⟩ := atFresh names
      rw [isFresh] at same
      by_cases names' : (jobs k).NamesNil rules'
      · rw [atNil' names'] at same
        obtain rfl := Option.some.inj same
        exact absurd drawn (draws.set j)
      · obtain ⟨-, fresh', drawn', isFresh'⟩ := atFresh' names'
        rw [isFresh'] at same
        obtain rfl := Option.some.inj same
        exact absurd (draws.apart j k fresh drawn drawn') differ
  · rintro ⟨names, names'⟩
    rw [atNil names, atNil' names']

/-- At every moment of every run, a value that is not set finds the row of the nil identity, by
`Id`, and no other. So a message that yields only unset values loads no instance, unless it names
the nil identity and finds that one; and if it loads none, nothing was stored under its values when
it looked them up. If it may start an instance, it is bound to a new one under an identity of its
own, unless it names the nil identity: then it is bound to that. So two such messages are never
bound to one instance, unless both name the nil identity. -/
theorem unset_meets_at_nil (reachable : store.Reachable)
    (run : (Crew.start store fun k => (jobs k).program).Run crew) :
    (∀ dataType property v, v.isUnset = true → crew.store.find dataType property v =
      if property = identityPath ∧ v = .uuid .nil
      then (crew.store.row? dataType .nil).map (·.document) else none) ∧
    (∀ k rules i, (crew.parties k).HasBound (jobs k) rules i →
      Incoming.OnlyUnset (jobs k).delivery.message (jobs k).delivery.context rules →
        (i.isLoaded = true → (jobs k).NamesNil rules ∧ i.id? = some .nil) ∧
        (i.isLoaded = false → Incoming.Missed (crew.parties k).past (jobs k).delivery.message
          (jobs k).delivery.context rules)) ∧
    (∀ k rules i, (crew.parties k).StartsUnset (jobs k) rules i →
      ((jobs k).NamesNil rules → i.id? = some .nil) ∧
      (¬ (jobs k).NamesNil rules → i.isNew = true ∧
        ∃ fresh, ⟨.freshId, fresh⟩ ∈ (crew.parties k).past ∧ i.id? = some fresh)) ∧
    (crew.DrawsApart → ∀ j k, j ≠ k → ∀ rules i rules' i',
      (crew.parties j).StartsUnset (jobs j) rules i →
      (crew.parties k).StartsUnset (jobs k) rules' i' →
        (i.id? = i'.id? ↔ (jobs j).NamesNil rules ∧ (jobs k).NamesNil rules')) := by
  have consistent := reachable.consistent
  refine ⟨?_, ?_, ?_, ?_⟩
  · intro dataType property v unset
    exact (run.consistent consistent).find_unset unset dataType property
  · intro k rules i bound unset
    obtain ⟨i₀, unbound, binds⟩ := bound.binds
    exact ⟨binds.loaded_unset (run.answered consistent k) unset unbound, binds.missed⟩
  · intro k rules i starts
    exact starts.id consistent run
  · intro draws j k differ rules i rules' i' starts starts'
    exact meet_iff_nil consistent run draws differ starts starts'

end Runs

/-! ## Tallies without a name -/

section Tally

open Demo

/-- What a message of two is answered that is given an identity of its own. -/
def answersTo (second : Bool) : (request : Request Posting) → Reply request :=
  obliging (Tally.number (if second then 2 else 1))

def turnsOf (job : Job Tally Posting) (schedule : List Bool) :
    Crew Bool Posting (Processed Tally Posting) :=
  (Crew.start .empty fun _ => job.program).play answersTo schedule

/-- All turns of the message that comes first. -/
def firstTurns : List Bool :=
  List.replicate 20 false

/-- The message is processed twice, one time after the other. -/
def twice (job : Job Tally Posting) : Crew Bool Posting (Processed Tally Posting) :=
  turnsOf job (firstTurns ++ List.replicate 20 true)

/-- What is stored when one of the two comes. -/
def foundBy (job : Job Tally Posting) (k : Bool) : Store :=
  (turnsOf job (if k then firstTurns else [])).store

theorem twice_apart (job : Job Tally Posting) : (twice job).DrawsApart := by
  have given : ∀ k, ∀ x ∈ ((twice job).parties k).past,
      ∀ fresh, x = ⟨.freshId, fresh⟩ → fresh = Tally.number (if k then 2 else 1) := by
    refine Crew.past_of_play (fun (k : Bool) x => ∀ fresh, x = ⟨.freshId, fresh⟩ →
      fresh = Tally.number (if k then 2 else 1)) ?_ _ _ ?_
    · intro k request s fresh same
      cases request with
      | freshId =>
        cases same
        rfl
      | _ => cases same
    · exact fun k x member => nomatch member
  constructor
  · intro k drawn
    have isNil := given k _ drawn .nil rfl
    revert isNil
    cases k <;> decide
  · intro j k fresh drawn drawn'
    have same := (given j _ drawn fresh rfl).symm.trans (given k _ drawn' fresh rfl)
    revert same
    cases j <;> cases k <;> decide

/-- One of the two, by its stages up to the binding of its tally. -/
theorem startsUnset_of_runs (job : Job Tally Posting) (k : Bool)
    {b : Binding Posting} {m : Incoming Tally Posting} {i : Invocation Tally Posting}
    {saga : Saga Tally Posting} {second third fourth : Store}
    {rules locks binds : List (Exchange Posting)}
    (served : job.incoming.bindings.run
      (Program.traced fun request s => s.serve (answersTo k) request) (foundBy job k, []) =
        (some (.ok [b]), second, rules))
    (taken : (job.takeLocks [b]).run
      (Program.traced fun request s => s.serve (answersTo k) request) (second, []) =
        (some (.ok []), third, locks))
    (bound : (job.bind [b] job.incoming).run
      (Program.traced fun request s => s.serve (answersTo k) request) (third, []) =
        (some (m, .ok ()), fourth, binds))
    (earlier : binds ++ (locks ++ rules) <:+ ((twice job).parties k).past)
    (place : m.invocations[b.index]? = some i) (isSaga : i.handler = .saga saga)
    (isTally : saga.dataType = Tally.dataType)
    (starts : job.delivery.message.hierarchy.any i.isInitiatedBy = true)
    (unset : Incoming.OnlyUnset job.delivery.message job.delivery.context b.rules) :
    ((twice job).parties k).StartsUnset job b.rules i where
  bound := ⟨[b], [], m, _, b, Job.bound_of_runs served taken bound, earlier,
    List.mem_singleton_self b, rfl, place⟩
  unset := unset
  starts := starts
  keeps other isOther := by
    cases isSaga.symm.trans isOther
    exact isTally ▸ Tally.distinct.keepsIdentity

/-- Posts to no name. -/
def unnamed : Job Tally Posting :=
  ⟨.default, false, .logAndSkip, Tally.registry true, Tally.post "" 5, false⟩

theorem unnamed_startsUnset (k : Bool) : ∃ i,
    ((twice unnamed).parties k).StartsUnset unnamed Tally.rules.rules i := by
  have unset : Incoming.OnlyUnset unnamed.delivery.message unnamed.delivery.context
      Tally.rules.rules := by
    intro p member
    cases List.mem_singleton.1 member
    rfl
  cases k with
  | false =>
    have starts := startsUnset_of_runs unnamed false rfl rfl rfl
      (List.suffix_iff_eq_drop.2 rfl) rfl rfl rfl rfl unset
    exact ⟨_, starts⟩
  | true =>
    have starts := startsUnset_of_runs unnamed true rfl rfl rfl
      (List.suffix_iff_eq_drop.2 rfl) rfl rfl rfl rfl unset
    exact ⟨_, starts⟩

/-- Two postings to no name go to two tallies. -/
theorem unnamed_tallies_apart :
    let crew := twice unnamed
    (∃ i i', (crew.parties false).StartsUnset unnamed Tally.rules.rules i ∧
      (crew.parties true).StartsUnset unnamed Tally.rules.rules i' ∧ i.id? ≠ i'.id?) ∧
    (crew.store.row? "demo.tally" (Tally.number 1)).isSome ∧
    (crew.store.row? "demo.tally" (Tally.number 2)).isSome := by
  intro crew
  refine ⟨?_, by decide +kernel, by decide +kernel⟩
  obtain ⟨i, starts⟩ := unnamed_startsUnset false
  obtain ⟨i', starts'⟩ := unnamed_startsUnset true
  have meets := (unset_meets_at_nil .empty (.play .start _ _)).2.2.2 (twice_apart unnamed)
    false true nofun _ i _ i' starts starts'
  refine ⟨i, i', starts, starts', fun same => ?_⟩
  have named : unnamed.NamesNil Tally.rules.rules := (meets.1 same).1
  exact absurd (List.mem_singleton.1 named) (by decide)

/-- Clears the tally that is identified by the message, and opens one if there is none. -/
def opening : Job Tally Posting :=
  let saga : Saga Tally Posting :=
    { Tally.clearing with name := "saga.opening", initiators := ["demo.clear"] }
  ⟨.default, false, .logAndSkip, Registry.empty.add "demo.clear" (.saga saga), Tally.clear .nil,
    false⟩

/-- Two messages that name the nil identity, each of which may open a tally of its own, are both
bound to one: the second loads the tally that the first has opened, and changes it. -/
theorem nil_tallies_meet :
    let crew := twice opening
    (∃ rules i i', (crew.parties false).StartsUnset opening rules i ∧
      (crew.parties true).StartsUnset opening rules i' ∧
      i.isNew = true ∧ i'.isLoaded = true ∧ i.id? = some .nil ∧ i'.id? = some .nil) ∧
    (crew.store.row? "demo.tally" .nil).map (·.document.revision) = some ⟨1⟩ := by
  intro crew
  refine ⟨?_, by decide +kernel⟩
  have starts := startsUnset_of_runs opening false rfl rfl rfl
    (List.suffix_iff_eq_drop.2 rfl) rfl rfl rfl rfl fun p member => by
      cases List.mem_singleton.1 member
      rfl
  have starts' := startsUnset_of_runs opening true rfl rfl rfl
    (List.suffix_iff_eq_drop.2 rfl) rfl rfl rfl rfl fun p member => by
      cases List.mem_singleton.1 member
      rfl
  exact ⟨_, _, _, starts, starts', rfl, rfl, rfl, rfl⟩

end Tally

end Sagas
