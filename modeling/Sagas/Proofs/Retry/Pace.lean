import Sagas.Proofs.Crew
import Sagas.Proofs.Tasks

/-!
# The pace of a commit

A commit writes at most as often as it has attempts, whatever storage answers and whatever the
resolver does. The first write is the one it was started for. Every other one is an update under the
identity and the revision of what the lookup before it has found.

Results:
1. `keeps_fetchFresh_paced`: fetching the state that won returns what its latest lookup came to.
2. `keeps_round_paced`, `keeps_persist_paced`: a round, and with it the loop, writes when it is due.
3. `due_of_reached`, `length_writes`: what this says of every moment.
4. `persist_ends`: a commit ends, unless its resolver dies.
-/

namespace Sagas

variable {D B : Type}

/-! ## Writes and lookups -/

namespace Exchange

/-- What a write came to. -/
def writeReply? : Exchange B → Option (Except StorageError Document)
  | ⟨.insert .., reply⟩ => some reply
  | ⟨.update .., reply⟩ => some reply
  | _ => none

/-- What a lookup came to. -/
def lookReply? : Exchange B → Option (Except StorageError (Option Document))
  | ⟨.find .., reply⟩ => some reply
  | _ => none

end Exchange

/-- What the writes came to, the latest first. -/
def writesOf (past : List (Exchange B)) : List (Except StorageError Document) :=
  past.filterMap Exchange.writeReply?

/-- What the lookups came to, the latest first. -/
def looksOf (past : List (Exchange B)) : List (Except StorageError (Option Document)) :=
  past.filterMap Exchange.lookReply?

theorem writesOf_append (late early : List (Exchange B)) :
    writesOf (late ++ early) = writesOf late ++ writesOf early :=
  List.filterMap_append

theorem looksOf_append (late early : List (Exchange B)) :
    looksOf (late ++ early) = looksOf late ++ looksOf early :=
  List.filterMap_append

namespace Commit

/-- The write of this instance. -/
abbrev writeOf (saga : Saga D B) (rules : List (Rule B)) (mode : Mode) (inst : Instance D) :
    Request B :=
  mode.request (saga.dataType.toDocument inst.data) (Invocation.valuesOf saga inst.data rules)

/-! ## When a write is due -/

/-- How many writes there were, and what the latest lookup came to. -/
structure Pace where
  writes : Nat
  look : Option (Except StorageError (Option Document))

/-- Attempts are left; the first write is this one, and every other one an update of what was found
last. -/
structure Due (limit : Nat) (first : Request B) (pace : Pace) (request : Request B) : Prop where
  left : pace.writes < limit
  first : pace.writes = 0 → request = first
  later : pace.writes ≠ 0 → ∃ d values fresh, request = .update d values ∧
    pace.look = some (.ok (some fresh)) ∧ d.metadata = fresh.metadata

/-- The contract to write only when it is due. -/
def paced (dies : Prop) (limit : Nat) (first : Request B) : Contract B Pace where
  owes pace request := request.isWrite = true → Due limit first pace request
  expects _ _ _ := True
  next pace request reply :=
    { writes := pace.writes + (Exchange.writeReply? ⟨request, reply⟩).toList.length
      look := (Exchange.lookReply? ⟨request, reply⟩).or pace.look }
  dies := dies

variable {dies : Prop} {limit : Nat} {first : Request B} {pace : Pace}

theorem paced_acts : (paced dies limit first).IgnoresActs Send.request where
  send _ _ := ⟨nofun, fun _ _ => rfl⟩
  draw _ := ⟨nofun, fun _ _ => rfl⟩
  note _ := ⟨nofun, fun _ _ => rfl⟩
  shutdown := ⟨nofun, fun _ _ => rfl⟩

theorem paced_counts (counter : Counter) : (paced dies limit first).Ignores (.count counter) :=
  ⟨nofun, fun _ _ => rfl⟩

theorem after_paced (past : List (Exchange B)) : (paced dies limit first).after ⟨0, none⟩ past =
    ⟨(writesOf past).length, (looksOf past).head?⟩ := by
  induction past with
  | nil => rfl
  | cons x earlier ih =>
    show (paced dies limit first).next ((paced dies limit first).after _ earlier) _ _ = _
    rw [ih]
    obtain ⟨request, reply⟩ := x
    cases request <;> rfl

theorem met_paced (past : List (Exchange B)) (pace : Pace) :
    (paced dies limit first).Met pace past := by
  induction past with
  | nil => trivial
  | cons x earlier ih => exact ⟨ih, trivial⟩

/-! ## One round -/

theorem keeps_write_paced {d : Document} {values : List PropertyValue} {mode : Mode}
    {post : Except StorageError Document → Pace → Prop}
    (due : Due limit first pace (mode.request d values))
    (follows : ∀ reply, post reply { pace with writes := pace.writes + 1 }) :
    (write mode d values).Keeps (paced dies limit first) pace post := by
  cases mode with
  | insert => exact ⟨fun _ => due, fun reply _ => follows reply⟩
  | update => exact ⟨fun _ => due, fun reply _ => follows reply⟩

theorem keeps_findFirst_paced {dataType : String} {values : List PropertyValue}
    (missed : pace.look = some (.ok none)) :
    (findFirst dataType values).Keeps (paced dies limit first) pace fun found after =>
      after = { pace with look := some found } := by
  induction values generalizing pace with
  | nil => exact congrArg (Pace.mk pace.writes) missed
  | cons p rest ih =>
    refine ⟨nofun, fun reply _ => ?_⟩
    rcases reply with e | _ | winner
    · rfl
    · exact ih rfl
    · rfl

/-- Fetching the state that won returns what its latest lookup came to. -/
theorem keeps_fetchFresh_paced (d : Document) (values : List PropertyValue) (mode : Mode) :
    (fetchFresh d values mode).Keeps (paced dies limit first) pace fun found after =>
      after = { pace with look := some found } := by
  refine ⟨nofun, fun reply _ => ?_⟩
  rcases reply with e | _ | fresh
  · rfl
  · cases mode with
    | update => rfl
    | insert => exact keeps_findFirst_paced rfl
  · rfl

variable {rules : List (Rule B)} {attempt maxAttempts : Nat} {mode : Mode} {i : Invocation D B}
  {saga : Saga D B} {inst : Instance D}

/-- A resolution writes nothing and looks nothing up. -/
theorem keeps_resolve_paced {fresh : Document}
    {post : Invocation D B × Except InvokeError Unit → Pace → Prop}
    (isSaga : i.handler = .saga saga) (isBound : i.bound = some inst)
    (lives : dies ∨ ∀ own stored, (saga.resolve i.message own stored).Lives)
    (failed : ∀ j e, post (j, .error e) pace)
    (merged : ∀ data, post (i.merged saga inst data fresh, .ok ()) pace) :
    (i.resolve .request fresh).Keeps (paced dies limit first) pace post := by
  cases reads : Invocation.read saga fresh with
  | error e =>
    refine (Invocation.keeps_resolve_unread paced_acts.note isSaga reads).imp ?_
    rintro r t ⟨rfl, rfl⟩
    exact failed i e
  | ok stored =>
    refine (Invocation.keeps_resolve_read isSaga isBound reads paced_acts
      (Act.ends_of_forall (fun _ => trivial) _) (lives.imp_right fun lives => lives _ _)).imp ?_
    rintro ⟨j, answer⟩ t ⟨rfl, data, outcome, -, -, rfl, succeeds⟩
    cases outcome with
    | error reason => exact failed j _
    | ok =>
      obtain rfl := succeeds rfl
      exact merged data

/-- A round whose write is due, if the next one may go on from what it has found. -/
theorem keeps_round_paced {again : Option (Invocation D B → Program B (Outcome D B))}
    (isSaga : i.handler = .saga saga) (isBound : i.bound = some inst)
    (lives : dies ∨ ∀ own stored, (saga.resolve i.message own stored).Lives)
    (due : Due limit first pace (writeOf saga rules mode inst))
    (further : ∀ more ∈ again, ∀ data fresh, (more (i.merged saga inst data fresh)).Keeps
      (paced dies limit first) ⟨pace.writes + 1, some (.ok (some fresh))⟩ fun _ _ => True) :
    (round .request rules attempt mode again i).Keeps (paced dies limit first) pace
      fun _ _ => True := by
  refine keeps_round isSaga isBound paced_acts.note (paced_counts _) (paced_counts _)
    (keeps_write_paced due fun reply => ?_)
  rcases reply with (reason | e | e) | stored
  · dsimp only
    split
    next =>
      cases again with
      | none => trivial
      | some again =>
        refine keeps_resolveConflict paced_acts.note ((keeps_fetchFresh_paced _ _ _).imp ?_)
        rintro found after rfl
        rcases found with e | _ | fresh
        · trivial
        · trivial
        · refine keeps_resolve_paced isSaga isBound lives (fun _ _ => trivial) fun data => ?_
          exact Program.keeps_ignored_bind (paced_counts _) fun _ => further again rfl data fresh
    next => trivial
  all_goals trivial

/-! ## The loop -/

/-- A round starts: its write is due, and the attempts left are those that were not used up. -/
structure Starts (saga : Saga D B) (message : Message B) (rules : List (Rule B)) (limit : Nat)
    (first : Request B) (more : Nat) (mode : Mode) (i : Invocation D B) (pace : Pace) : Prop where
  handler : i.handler = .saga saga
  message : i.message = message
  left : pace.writes + more + 1 = limit
  bound : ∃ inst, i.bound = some inst ∧ Due limit first pace (writeOf saga rules mode inst)

/-- What was merged is due to be written next. -/
theorem Starts.merged {more : Nat} (starts : Starts saga i.message rules limit first (more + 1)
    mode i pace) (data : D) (fresh : Document) : Starts saga i.message rules limit first more
      .update (i.merged saga inst data fresh) ⟨pace.writes + 1, some (.ok (some fresh))⟩ where
  handler := starts.handler
  message := rfl
  left := by
    have := starts.left
    simp only
    omega
  bound := by
    have room := starts.left
    refine ⟨_, rfl, ?_, nofun, fun _ => ?_⟩
    · simp only
      omega
    · exact ⟨_, _, fresh, rfl, rfl, saga.dataType.metadata.get_set ..⟩

theorem keeps_rounds_paced {message : Message B} {more : Nat}
    (lives : dies ∨ ∀ own stored, (saga.resolve message own stored).Lives)
    (starts : Starts saga message rules limit first more mode i pace) :
    (rounds .request rules more attempt mode i).Keeps (paced dies limit first) pace
      fun _ _ => True := by
  refine keeps_rounds (Starts saga message rules limit first) ?_ ?_ starts
  · intro attempt mode j pace starts
    obtain ⟨isSaga, rfl, -, inst, isBound, due⟩ := starts
    exact keeps_round_paced isSaga isBound lives due nofun
  · intro more attempt mode again j pace starts further
    obtain ⟨isSaga, rfl, -, inst, isBound, due⟩ := id starts
    refine keeps_round_paced isSaga isBound lives due fun more' member data fresh => ?_
    obtain rfl := Option.some.inj member
    exact further _ _ (starts.merged data fresh)

section Persist

variable (isSaga : i.handler = .saga saga) (isBound : i.bound = some inst)

include isSaga isBound

theorem keeps_persist_paced
    (lives : dies ∨ ∀ own stored, (saga.resolve i.message own stored).Lives) :
    (persist .request maxAttempts rules mode i).Keeps
      (paced dies (max 1 maxAttempts) (writeOf saga rules mode inst)) ⟨0, none⟩
      fun _ _ => True := by
  refine keeps_rounds_paced lives ⟨isSaga, rfl, ?_, inst, isBound, ?_, fun _ => rfl, ?_⟩
  · simp only
    omega
  · simp only
    omega
  · exact fun other => absurd rfl other

/-- Whenever a commit is about to write, the write is due. -/
theorem due_of_reached {past : List (Exchange B)} {request : Request B}
    {rest : Reply request → Program B (Outcome D B)}
    (reached : Party.Reached (persist .request maxAttempts rules mode i)
      ⟨past, .ask request rest⟩) (isWrite : request.isWrite = true) :
    Due (max 1 maxAttempts) (writeOf saga rules mode inst)
      ⟨(writesOf past).length, (looksOf past).head?⟩ request := by
  have keeps := reached.keeps (keeps_persist_paced isSaga isBound (.inl trivial))
    (met_paced past _)
  rw [after_paced] at keeps
  exact keeps.1 isWrite

/-- At no moment has a commit written more often than it may. -/
theorem length_writes {party : Party B (Outcome D B)}
    (reached : Party.Reached (persist .request maxAttempts rules mode i) party) :
    (writesOf party.past).length ≤ max 1 maxAttempts := by
  induction reached with
  | start => exact Nat.zero_le _
  | @step past request rest reply reached ih =>
    have due := due_of_reached isSaga isBound reached
    cases request with
    | insert d values => exact (due rfl).left
    | update d values => exact (due rfl).left
    | _ => exact ih

/-- A commit ends, whatever it is answered, unless its resolver dies. -/
theorem persist_ends (lives : ∀ own stored, (saga.resolve i.message own stored).Lives) {σ : Type}
    (answer : Program.Answering B σ) (w : σ) :
    ∃ r v, (persist .request maxAttempts rules mode i).run answer w = (some r, v) := by
  have keeps : (persist .request maxAttempts rules mode i).Keeps (paced False _ _) _ _ :=
    keeps_persist_paced isSaga isBound (.inr lives)
  obtain ⟨r, -, v, -, -, ran⟩ :=
    keeps.ends answer (fun _ _ => True) (fun _ _ _ _ _ => ⟨trivial, trivial⟩) id trivial
  exact ⟨r, v, ran⟩

end Persist

end Commit

end Sagas
