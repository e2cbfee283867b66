import Sagas.Proofs.Succession

/-!
# A conflict and its cause

Storage refuses a write by its rows and its index. What the loser then looks for is found by
lookups, which go by other code: the identity first, then, for an insert, the values one after the
other. As long as nobody else writes in between, the two agree. Whatever has refused an insert is
found, and a write under its identity and revision is refused only for a value of a third instance.

Results:
1. `Commit.keeps_fetchFresh`: what is found, as a function of the store.
2. `Store.refused_insert`, `Store.update_granted_iff`: why a write is refused, by way of rows.
3. `Store.winner_of_insert`, `Store.winner_of_update`: what is found after that.
4. `Store.Cause.granted_iff`: when a write under the identity and the revision that were found is
   granted.
5. `Commit.keeps_persist_present`: a commit does not miss an instance that is stored.
6. `Commit.conflict_leads_to_cause`: all of this for the programs that write and look.
-/

namespace Sagas

variable {D B τ : Type}

/-! ## Storage that nobody else writes to -/

/-- The contract of a program that has a store to itself. -/
def hosted (dies : Prop) : Contract B Store :=
  { sole with dies }

theorem hosted_ignores {dies : Prop} {request : Request B} (quiet : request.isWrite = false) :
    (hosted (B := B) dies).Ignores request where
  owes _ := trivial
  next s _ := s.after_of_quiet quiet

theorem hosted_acts {dies : Prop} : (hosted (B := B) dies).IgnoresActs Send.request where
  send _ s := ⟨trivial, fun _ _ => s.after_of_quiet rfl⟩
  draw _ := hosted_ignores rfl
  note _ := hosted_ignores rfl
  shutdown := hosted_ignores rfl

/-- These surroundings have their instances in a store that nobody else writes to. -/
def Hosts (store : τ → Store) (answer : Program.Answering B τ) : Prop :=
  ∀ request w, (store w).Answers request (answer request w).1 (store (answer request w).2)

theorem World.hosts : Hosts World.store (World.answer (B := B)) :=
  World.answers

theorem Store.Answers.after {s t : Store} {request : Request B} {reply : Reply request}
    (answers : s.Answers request reply t) : s.after request = t := by
  cases request with
  | find dataType property value => exact answers.2.symm
  | insert d values => exact congrArg Prod.snd answers
  | update d values => exact congrArg Prod.snd answers
  | delete d => exact congrArg Prod.snd answers
  | _ => exact Eq.symm answers

/-- Such surroundings meet the contract. -/
theorem Hosts.meets {store : τ → Store} {answer : Program.Answering B τ}
    (hosts : Hosts store answer) {dies : Prop} (w : τ) (s : Store) (request : Request B)
    (paired : store w = s) (_ : (hosted dies).owes s request) :
    (hosted dies).expects s request (answer request w).1 ∧
      store (answer request w).2 = (hosted dies).next s request (answer request w).1 := by
  subst paired
  have answers := hosts request w
  have same := answers.after
  exact ⟨show (store w).Answers _ _ _ from same.symm ▸ answers, same.symm⟩

/-! ## What is found -/

def Store.write (s : Store) (d : Document) (values : List PropertyValue) :
    Commit.Mode → Except StorageError Document × Store
  | .insert => s.insert d values
  | .update => s.update d values

/-- What stands in the way of a write, as far as lookups can tell. -/
def Store.winner? (s : Store) (d : Document) (values : List PropertyValue) :
    Commit.Mode → Option Document
  | .update => s.find d.dataType identityPath (.uuid d.id)
  | .insert => (s.find d.dataType identityPath (.uuid d.id)).or
      ((values.filter Commit.isIndexed).findSome? fun p => s.find d.dataType p.name p.value)

namespace Commit

variable {dies : Prop} {s : Store}

theorem keeps_findFirst (dataType : String) (values : List PropertyValue) :
    (findFirst (B := B) dataType values).Keeps (hosted dies) s fun r t => t = s ∧
      r = .ok (values.findSome? fun p => s.find dataType p.name p.value) := by
  induction values with
  | nil => exact ⟨rfl, rfl⟩
  | cons p rest ih =>
    refine ⟨trivial, fun reply answers => ?_⟩
    obtain ⟨rfl, -⟩ := answers
    rw [List.findSome?_cons]
    cases s.find dataType p.name p.value with
    | some winner => exact ⟨rfl, rfl⟩
    | none => exact ih

/-- Looking for the state that won comes to what the store says. -/
theorem keeps_fetchFresh (d : Document) (values : List PropertyValue) (mode : Mode) :
    (fetchFresh (B := B) d values mode).Keeps (hosted dies) s fun r t => t = s ∧
      r = .ok (s.winner? d values mode) := by
  refine ⟨trivial, fun reply answers => ?_⟩
  obtain ⟨rfl, -⟩ := answers
  unfold Store.winner?
  cases s.find d.dataType identityPath (.uuid d.id) with
  | some fresh => exact ⟨rfl, by cases mode <;> rfl⟩
  | none =>
    cases mode with
    | update => exact ⟨rfl, rfl⟩
    | insert => exact keeps_findFirst _ _

end Commit

namespace Store

variable {s : Store} {d fresh : Document} {values : List PropertyValue} {p : PropertyValue}
  {reason : String}

/-! ## Why a write is refused -/

/-- The instance was last written with this value. -/
def Belongs (s : Store) (dataType : String) (p : PropertyValue) (id : Uuid) : Prop :=
  ∃ row, s.row? dataType id = some row ∧ p ∈ row.keys

/-- None of these values, apart from identities and unset ones, belongs to another instance. -/
def Unclaimed (s : Store) (dataType : String) (id : Uuid) (values : List PropertyValue) : Prop :=
  ∀ p ∈ values, p.name ≠ identityPath → p.value.isUnset = false →
    ∀ other, s.Belongs dataType p other → other = id

theorem Consistent.spares_iff (kept : s.Consistent) {dataType : String} {id : Uuid} :
    s.Spares dataType id values ↔ s.Unclaimed dataType id values := by
  constructor
  · intro spares p member other set owner belongs
    exact spares p (Partition.mem_keysOf.2 ⟨member, other, set⟩) owner (kept.owner.2 belongs)
  · intro unclaimed key among owner owned
    obtain ⟨member, other, set⟩ := Partition.mem_keysOf.1 among
    exact unclaimed key member other set owner (kept.owner.1 owned)

theorem write_refused {mode : Commit.Mode} {e : StorageError}
    (refused : (s.write d values mode).1 = .error e) : (s.write d values mode).2 = s := by
  cases mode with
  | insert =>
    rcases s.insert_cases d values with ⟨e, failed⟩ | ⟨done, -⟩
    · exact congrArg Prod.snd failed
    · exact nomatch done.symm.trans refused
  | update =>
    rcases s.update_cases d values with ⟨reason, failed⟩ | ⟨old, done, -⟩
    · exact congrArg Prod.snd failed
    · exact nomatch done.symm.trans refused

theorem refused_insert (kept : s.Consistent)
    (refused : (s.insert d values).1 = .error (.conflict reason)) :
    s.row? d.dataType d.id ≠ none ∨ ¬ s.Unclaimed d.dataType d.id values := by
  by_contra possible
  obtain ⟨absent, unclaimed⟩ := not_or.1 possible
  by_cases initial : d.revision = .initial
  · have done := (inserts_of_free initial (not_not.1 absent)
      (kept.spares_iff.2 (not_not.1 unclaimed))).1
    exact nomatch refused.symm.trans done
  · simp [insert_eq, initial] at refused

/-- An update is granted exactly to who knows the stored revision and claims no value of others. -/
theorem update_granted_iff (kept : s.Consistent) :
    (∃ stored, (s.update d values).1 = .ok stored) ↔
      (∃ row, s.row? d.dataType d.id = some row ∧ d.revision = row.document.revision) ∧
        s.Unclaimed d.dataType d.id values := by
  constructor
  · rintro ⟨stored, granted⟩
    rcases s.update_cases d values with ⟨reason, failed⟩ | ⟨old, -, updates⟩
    · exact nomatch (congrArg Prod.fst failed).symm.trans granted
    · exact ⟨⟨old, updates.present, updates.agrees⟩, kept.spares_iff.1 updates.free⟩
  · rintro ⟨⟨row, current⟩, unclaimed⟩
    exact ⟨_, (updates_of_current current (kept.spares_iff.2 unclaimed)).1⟩

/-! ## What is found after that -/

/-- What stands in the way is stored, under the same identity or with one of the values. -/
structure Cause (s : Store) (d : Document) (values : List PropertyValue) (fresh : Document) :
    Prop where
  dataType : fresh.dataType = d.dataType
  stored : ∃ row, s.row? d.dataType fresh.id = some row ∧ row.document = fresh
  shares : fresh.id = d.id ∨ ∃ p ∈ values, p.name ≠ identityPath ∧ p.value.isUnset = false ∧
    s.Belongs d.dataType p fresh.id

theorem find_of_belongs (kept : s.Consistent) {dataType : String} {id : Uuid}
    (other : p.name ≠ identityPath) (belongs : s.Belongs dataType p id) :
    ∃ row, s.row? dataType id = some row ∧
      s.find dataType p.name p.value = some row.document := by
  have owned := kept.owner.2 belongs
  obtain ⟨row, present, -⟩ := belongs
  refine ⟨row, present, ?_⟩
  rw [find_property other, owned, Option.bind_some, present]
  rfl

theorem belongs_of_find (kept : s.Consistent) {dataType : String} (other : p.name ≠ identityPath)
    (found : s.find dataType p.name p.value = some fresh) : s.Belongs dataType p fresh.id := by
  rw [find_property other] at found
  obtain ⟨row, named, rfl⟩ := Option.map_eq_some_iff.1 found
  obtain ⟨id, owned, present⟩ := Option.bind_eq_some_iff.1 named
  have same : row.document.id = id := kept.id present
  exact same.symm ▸ kept.owner.1 owned

/-- Whatever a lookup for the winner finds is in the way. -/
theorem Cause.of_winner (kept : s.Consistent) {mode : Commit.Mode}
    (found : s.winner? d values mode = some fresh) : s.Cause d values fresh := by
  have identity : s.find d.dataType identityPath (.uuid d.id) = some fresh →
      s.Cause d values fresh := by
    intro found
    obtain ⟨typed, stored⟩ := kept.find_some found
    rw [find_identity] at found
    obtain ⟨row, present, rfl⟩ := Option.map_eq_some_iff.1 found
    exact ⟨typed, stored, .inl (kept.id present)⟩
  cases mode with
  | update => exact identity found
  | insert =>
    rcases Option.or_eq_some_iff.1 found with own | ⟨-, found⟩
    · exact identity own
    · obtain ⟨p, among, found⟩ := List.exists_of_findSome?_eq_some found
      obtain ⟨member, indexed⟩ := List.mem_filter.1 among
      obtain ⟨other, set⟩ : p.name ≠ identityPath ∧ p.value.isUnset = false := by
        simpa [Commit.isIndexed] using indexed
      obtain ⟨typed, stored⟩ := kept.find_some found
      exact ⟨typed, stored, .inr ⟨p, member, other, set, belongs_of_find kept other found⟩⟩

/-- Whatever has refused an insert is found. -/
theorem winner_of_insert (kept : s.Consistent)
    (refused : (s.insert d values).1 = .error (.conflict reason)) :
    ∃ fresh, s.winner? d values .insert = some fresh := by
  by_contra missing
  have missing : s.winner? d values .insert = none := by
    simpa [Option.eq_none_iff_forall_ne_some] using missing
  obtain ⟨absent, unfound⟩ := Option.or_eq_none_iff.1 missing
  rw [find_identity, Option.map_eq_none_iff] at absent
  rcases refused_insert kept refused with present | claimed
  · exact present absent
  · refine claimed fun p member other set id belongs => ?_
    obtain ⟨row, -, found⟩ := find_of_belongs kept other belongs
    have indexed : Commit.isIndexed p = true := by simp [Commit.isIndexed, other, set]
    have none := List.findSome?_eq_none_iff.1 unfound p (List.mem_filter.2 ⟨member, indexed⟩)
    exact nomatch none.symm.trans found

theorem winner_of_update : s.winner? d values .update = none ↔ s.row? d.dataType d.id = none := by
  rw [winner?, find_identity, Option.map_eq_none_iff]

/-- A write that has adopted the identity and the revision of what is stored. -/
theorem Cause.granted_iff (kept : s.Consistent) (cause : s.Cause d values fresh) {e : Document}
    {others : List PropertyValue} (typed : e.dataType = d.dataType)
    (adopts : e.metadata = fresh.metadata) :
    (∃ stored, (s.update e others).1 = .ok stored) ↔ s.Unclaimed d.dataType fresh.id others := by
  obtain ⟨sameId, sameRevision⟩ := Metadata.mk.inj adopts
  rw [update_granted_iff kept, typed, sameId, sameRevision]
  refine and_iff_right ?_
  obtain ⟨row, present, rfl⟩ := cause.stored
  exact ⟨row, present, rfl⟩

end Store

/-! ## Commits do not miss the winner -/

namespace Commit

open Store

variable {s : Store} {rules : List (Rule B)} {attempt : Nat} {mode : Mode} {i : Invocation D B}

/-- An update is of an instance that is stored. -/
def Present (s : Store) (mode : Mode) (i : Invocation D B) : Prop :=
  mode = .update → ∀ d, i.document? = some d → s.row? d.dataType d.id ≠ none

theorem keeps_hosted_write {dies : Prop} (d : Document) (values : List PropertyValue)
    (mode : Mode) : (write (B := B) mode d values).Keeps (hosted dies) s
      fun r t => (r, t) = s.write d values mode := by
  cases mode with
  | insert => exact ⟨trivial, fun _ answers => Eq.symm answers⟩
  | update => exact ⟨trivial, fun _ answers => Eq.symm answers⟩

/-- Whatever has refused a write is found, if what an update is of is stored. -/
theorem winner_of_write {d : Document} {values : List PropertyValue} {reason : String}
    (kept : s.Consistent) (present : mode = .update → s.row? d.dataType d.id ≠ none)
    (refused : (s.write d values mode).1 = .error (.conflict reason)) :
    ∃ fresh, s.winner? d values mode = some fresh := by
  cases mode with
  | insert => exact winner_of_insert kept refused
  | update =>
    exact Option.ne_none_iff_exists'.1 fun missing => present rfl (winner_of_update.1 missing)

/-- The instance was not found any more. -/
def Vanishes (r : Outcome D B) : Prop :=
  ∃ name id, r.2 = .error (.sagaVanished name id)

theorem not_vanishes_error {e : SagaError} (other : ∀ name id, e ≠ .sagaVanished name id) :
    ¬ Vanishes ((i, .error e) : Outcome D B) := by
  rintro ⟨name, id, same⟩
  exact other name id (Except.error.inj same)

theorem not_vanishes_ok : ¬ Vanishes ((i, .ok ()) : Outcome D B) := by
  simp [Vanishes]

/-- What is merged with a stored instance takes on its identity. -/
theorem Present.merged {saga : Saga D B} {inst : Instance D} {d fresh : Document}
    {values : List PropertyValue} (isSaga : i.handler = .saga saga)
    (typed : d.dataType = saga.dataType.name) (cause : s.Cause d values fresh) (data : D) :
    Present s .update (i.merged saga inst data fresh) := by
  intro _ e document
  have adopted : saga.dataType.metadata.get (saga.dataType.metadata.set data fresh.metadata) =
      fresh.metadata := saga.dataType.metadata.get_set ..
  simp only [Invocation.document?, Invocation.instance?, Invocation.merged, isSaga,
    Option.map_some, Option.some.injEq] at document
  obtain ⟨row, present, -⟩ := cause.stored
  rw [typed, show fresh.id = fresh.metadata.id from rfl, ← adopted] at present
  subst document
  exact Option.ne_none_iff_exists'.2 ⟨row, present⟩

/-- After a lost write: what is merged is of a stored instance again. -/
theorem keeps_resolveConflict_present {saga : Saga D B} {inst : Instance D} {d fresh : Document}
    {values : List PropertyValue} {again : Invocation D B → Program B (Outcome D B)}
    (kept : s.Consistent) (isSaga : i.handler = .saga saga) (isBound : i.bound = some inst)
    (typed : d.dataType = saga.dataType.name) (found : s.winner? d values mode = some fresh)
    (further : ∀ j, Present s .update j → (again j).Keeps (hosted True) s fun r _ => ¬ Vanishes r) :
    (resolveConflict .request attempt mode d values again i).Keeps (hosted True) s
      fun r _ => ¬ Vanishes r := by
  refine keeps_resolveConflict (fun _ => hosted_ignores rfl)
    ((keeps_fetchFresh d values mode).imp ?_)
  rintro r t ⟨rfl, rfl⟩
  rw [found]
  refine (Invocation.keeps_resolve trivial isSaga isBound hosted_acts).imp ?_
  rintro ⟨j, answer⟩ u ⟨rfl, -, merges⟩
  cases answer with
  | error e => exact not_vanishes_error (by simp)
  | ok =>
    obtain ⟨data, rfl⟩ := merges rfl
    exact Program.keeps_ignored_bind (hosted_ignores rfl) fun _ =>
      further _ (.merged isSaga typed (.of_winner kept found) data)

/-- A round does not find its instance vanished. -/
theorem keeps_round_present {again : Option (Invocation D B → Program B (Outcome D B))}
    (kept : s.Consistent) (present : Present s mode i)
    (further : ∀ more ∈ again, ∀ j, Present s .update j →
      (more j).Keeps (hosted True) s fun r _ => ¬ Vanishes r) :
    (round .request rules attempt mode again i).Keeps (hosted True) s fun r _ => ¬ Vanishes r := by
  cases held : i.instance? with
  | none =>
    rw [round_of_unbound held]
    exact not_vanishes_error (by simp)
  | some pair =>
    obtain ⟨saga, inst⟩ := pair
    obtain ⟨isSaga, isBound⟩ := Invocation.of_instance? held
    have document : i.document? = some (saga.dataType.toDocument inst.data) := by
      rw [Invocation.document?, held]
      rfl
    refine keeps_round isSaga isBound (fun _ => hosted_ignores rfl) (hosted_ignores rfl)
      (hosted_ignores rfl) ((keeps_hosted_write _ _ _).imp ?_)
    intro reply t wrote
    rcases reply with (reason | e | e) | stored
    · have refused := (congrArg Prod.fst wrote).symm
      obtain rfl : t = s := (congrArg Prod.snd wrote).trans (write_refused refused)
      obtain ⟨fresh, found⟩ :=
        winner_of_write kept (fun updates => present updates _ document) refused
      dsimp only
      split
      next =>
        cases again with
        | none => exact not_vanishes_error (by simp)
        | some again =>
          exact keeps_resolveConflict_present kept isSaga isBound rfl found (further again rfl)
      next => exact not_vanishes_error (by simp)
    · exact not_vanishes_error (by simp)
    · exact not_vanishes_error (by simp)
    · exact not_vanishes_ok

/-- A commit of a new instance, or of a stored one, does not find it vanished. -/
theorem keeps_persist_present {maxAttempts : Nat} (kept : s.Consistent)
    (present : Present s mode i) :
    (persist .request maxAttempts rules mode i).Keeps (hosted True) s fun r _ => ¬ Vanishes r := by
  refine keeps_rounds (fun _ mode j t => t.Consistent ∧ Present t mode j) ?_ ?_ ⟨kept, present⟩
  · rintro attempt mode j t ⟨kept, present⟩
    exact keeps_round_present kept present nofun
  · rintro more attempt mode again j t ⟨kept, present⟩ further
    refine keeps_round_present kept present fun more member k present' => ?_
    obtain rfl := Option.some.inj member
    exact further k t ⟨kept, present'⟩

/-! ## In hosted storage -/

section Hosted

variable {store : τ → Store} {answer : Program.Answering B τ}

theorem run_fetchFresh {store : τ → Store} {answer : Program.Answering B τ}
    (hosts : Hosts store answer) (d : Document) (values : List PropertyValue) (mode : Mode)
    (w : τ) : ∃ v, (fetchFresh d values mode).run answer w =
      (some (.ok ((store w).winner? d values mode)), v) ∧ store v = store w := by
  have keeps : (fetchFresh (B := B) d values mode).Keeps (hosted False) (store w) _ :=
    keeps_fetchFresh d values mode
  obtain ⟨_, _, v, ⟨rfl, rfl⟩, same, ran⟩ :=
    keeps.ends answer (fun w s => store w = s) hosts.meets id rfl
  exact ⟨v, ran, same⟩

theorem run_write (hosts : Hosts store answer) (d : Document) (values : List PropertyValue)
    (mode : Mode) (w : τ) : ∃ v, (write mode d values).run answer w =
      (some ((store w).write d values mode).1, v) ∧
        store v = ((store w).write d values mode).2 := by
  have keeps : (write (B := B) mode d values).Keeps (hosted False) (store w) _ :=
    keeps_hosted_write d values mode
  obtain ⟨reply, _, v, wrote, rfl, ran⟩ :=
    keeps.ends answer (fun w s => store w = s) hosts.meets id rfl
  rw [← wrote]
  exact ⟨v, ran, rfl⟩

/-- What comes of conflicts in these surroundings, from here on and with no other write in
between. -/
structure LeadsToCause (D : Type) (store : τ → Store) (answer : Program.Answering B τ) (w : τ) :
    Prop where
  /-- What has refused an insert is found. -/
  insert : ∀ d values reason v,
    (write .insert d values).run answer w = (some (.error (.conflict reason)), v) →
    ∀ v', store v' = store v → ∃ fresh u,
      (fetchFresh d values .insert).run answer v' = (some (.ok (some fresh)), u) ∧
        (store w).Cause d values fresh
  /-- So a commit that inserts does not find its instance vanished. -/
  stays : ∀ (i : Invocation D B) maxAttempts rules r,
    ((persist .request maxAttempts rules .insert i).run answer w).1 = some r → ¬ Vanishes r
  /-- After an update, nothing is found exactly if nothing is stored under the identity. -/
  update : ∀ d values reason v,
    (write .update d values).run answer w = (some (.error (.conflict reason)), v) →
    ∀ v', store v' = store v → ∃ found u,
      (fetchFresh d values .update).run answer v' = (some (.ok found), u) ∧
        (found = none ↔ (store w).row? d.dataType d.id = none)
  /-- Who adopts the identity and the revision of what was found is refused only for values that
  belong to another instance. -/
  adopted : ∀ mode d values reason v,
    (write mode d values).run answer w = (some (.error (.conflict reason)), v) →
    ∀ v', store v' = store v → ∀ fresh u,
      (fetchFresh d values mode).run answer v' = (some (.ok (some fresh)), u) →
    ∀ u', store u' = store u → ∀ e others, e.dataType = d.dataType → e.metadata = fresh.metadata →
      ((∃ stored u'', (write .update e others).run answer u' = (some (.ok stored), u'')) ↔
        (store w).Unclaimed d.dataType fresh.id others)

/-- In every store that can be reached, a conflict leads to its cause. -/
theorem conflict_leads_to_cause (D : Type) (hosts : Hosts store answer) {w : τ}
    (reachable : (store w).Reachable) : LeadsToCause D store answer w := by
  have kept := reachable.consistent
  -- A refused write leaves the store as it is, and so does the lookup after it.
  have refused : ∀ {mode d values reason v},
      (write mode d values).run answer w = (some (.error (.conflict reason)), v) →
      ((store w).write d values mode).1 = .error (.conflict reason) ∧ store v = store w := by
    intro mode d values reason v ran
    obtain ⟨v', ran', left⟩ := run_write hosts d values mode w
    obtain ⟨same, rfl⟩ := Prod.mk.inj (ran'.symm.trans ran)
    have same := Option.some.inj same
    exact ⟨same, left.trans (write_refused same)⟩
  exact {
    insert := by
      intro d values reason v ran v' here
      obtain ⟨lost, left⟩ := refused ran
      obtain ⟨u, fetched, -⟩ := run_fetchFresh hosts d values .insert v'
      obtain ⟨fresh, found⟩ := winner_of_insert kept lost
      rw [here, left, found] at fetched
      exact ⟨fresh, u, fetched, .of_winner kept found⟩
    stays := by
      intro i maxAttempts rules r ran
      have new : Present (store w) .insert i := fun updates => nomatch updates
      obtain ⟨t, -, ends⟩ := (keeps_persist_present kept new).run answer
        (fun w s => store w = s) hosts.meets rfl
      exact ends r ran
    update := by
      intro d values reason v ran v' here
      obtain ⟨-, left⟩ := refused ran
      obtain ⟨u, fetched, -⟩ := run_fetchFresh hosts d values .update v'
      rw [here, left] at fetched
      exact ⟨_, u, fetched, winner_of_update⟩
    adopted := by
      intro mode d values reason v ran v' here fresh u fetched u' there e others typed adopts
      obtain ⟨-, left⟩ := refused ran
      obtain ⟨x, fetched', stays⟩ := run_fetchFresh hosts d values mode v'
      obtain ⟨found, rfl⟩ := Prod.mk.inj (fetched'.symm.trans fetched)
      have found : (store w).winner? d values mode = some fresh := by
        simpa [here, left] using found
      obtain ⟨y, wrote, -⟩ := run_write hosts e others .update u'
      have same : store u' = store w := there.trans (stays.trans (here.trans left))
      rw [same] at wrote
      rw [← Cause.granted_iff kept (.of_winner kept found) typed adopts, wrote]
      simp [Store.write] }

end Hosted

end Commit

/-! ## Two tallies of one name -/

section Tally

open Demo

/-- A tally for the rent is stored. -/
def rentWorld : World Posting :=
  { World.start .default with store := rentStore }

/-- Another one is refused, and the first one is found in its way. -/
theorem second_rent_finds_first :
    let second := Tally.dataType.toDocument ⟨⟨Tally.number 2, .initial⟩, "rent", 3⟩
    let values := [⟨"Name", .string "rent"⟩]
    rentWorld.store.Reachable ∧
      (∃ reason v, (Commit.write .insert second values).run World.answer rentWorld =
        (some (.error (.conflict reason)), v) ∧
        ∃ fresh u, (Commit.fetchFresh second values .insert).run World.answer v =
          (some (.ok (some fresh)), u) ∧ fresh.id = Tally.number 1) ∧
      Commit.LeadsToCause Tally World.store World.answer rentWorld := by
  intro second values
  have reachable : rentWorld.store.Reachable := .insert _ _ .empty
  exact ⟨reachable, ⟨_, _, rfl, _, _, rfl, rfl⟩,
    Commit.conflict_leads_to_cause Tally World.hosts reachable⟩

end Tally

end Sagas
