import Sagas.Demo.Tally
import Sagas.Proofs.Course
import Sagas.Proofs.Retry.Pace

/-!
# How a commit ends

A commit is a machine whose state is the number of the attempt, the mode of its next write and the
instance that it is about to write. A lost write that can be made up for takes it to the next state,
with one resolution on the way. Everything else is an exit.

Results:
1. `returns_resolve`: a resolution reads what was found and calls the resolver, once.
2. `course_of_rounds`: a commit takes its course.
3. `Course.judged`: the exit can be told from the answers of storage.
4. `retries_bounded`: every commit, with every storage and every resolver.
-/

namespace Sagas

variable {D B : Type}

/-- The same invocation with this instance. -/
def Invocation.holding (i : Invocation D B) (inst : Instance D) : Invocation D B :=
  { i with bound := some inst }

theorem Invocation.holding_of_bound {i : Invocation D B} {inst : Instance D}
    (isBound : i.bound = some inst) : i.holding inst = i := by
  rw [holding, ← isBound]

/-- The instance as it is once storage has answered with this identity and revision. -/
def Saga.settle (saga : Saga D B) (inst : Instance D) (m : Metadata) : Instance D :=
  { inst with data := saga.dataType.metadata.set inst.data m, isNew := false }

namespace Program

variable {α : Type} {past : List (Exchange B)} {a : α}

theorem returns_call {request : Request B} {reply : Reply request} :
    (call request).Returns past reply ↔ past = [⟨request, reply⟩] := by
  refine returns_ask.trans ⟨?_, ?_⟩
  · rintro ⟨reply', later, ended, rfl⟩
    obtain ⟨rfl, rfl⟩ := returns_done.1 ended
    rfl
  · rintro rfl
    exact ⟨reply, [], .done _, rfl⟩

theorem returns_count_bind {counter : Counter} {next : Unit → Program B α} :
    (count counter >>= next).Returns past a ↔
      ∃ later, (next ()).Returns later a ∧ past = later ++ [⟨.count counter, ()⟩] := by
  refine returns_ask.trans ⟨?_, ?_⟩
  · rintro ⟨_, later, ended⟩
    exact ⟨later, ended⟩
  · rintro ⟨later, ended⟩
    exact ⟨(), later, ended⟩

theorem returns_note_bind {entry : Entry} {next : Unit → Program B α} :
    (note entry >>= next).Returns past a ↔
      ∃ later, (next ()).Returns later a ∧ past = later ++ [⟨.note entry, ()⟩] := by
  refine returns_ask.trans ⟨?_, ?_⟩
  · rintro ⟨_, later, ended⟩
    exact ⟨later, ended⟩
  · rintro ⟨later, ended⟩
    exact ⟨(), later, ended⟩

end Program

namespace Commit

open Program (returns_bind returns_done returns_count_bind returns_note_bind)

/-! ## Resolutions -/

section

variable (saga : Saga D B) (rules : List (Rule B)) (i : Invocation D B)

/-- What the journal says of a resolution. -/
def remarks (fresh : Document) (answer : Except InvokeError Unit) : List (Exchange B) :=
  if i.journaled then [⟨.note (.resolved saga.name fresh.id fresh.revision answer), ()⟩] else []

/-- One resolution, with what the resolver asked: either what was found cannot be read, or the
resolver is called once. -/
inductive Resolution (inst : Instance D) (fresh : Document) :
    List (Exchange B) → Instance D → Except InvokeError Unit → Prop
  | unread (e : InvokeError) :
      Invocation.read saga fresh = .error e →
      Resolution inst fresh [] inst (.error e)
  | failed {stored data : D} {acts : List (Exchange B)} (reason : String) :
      Invocation.read saga fresh = .ok stored →
      ((saga.resolve i.message inst.data stored).program .request).Returns acts
        (data, .error reason) →
      Resolution inst fresh acts { inst with data } (.error (.handler saga.name reason))
  | merged {stored data : D} {acts : List (Exchange B)} :
      Invocation.read saga fresh = .ok stored →
      ((saga.resolve i.message inst.data stored).program .request).Returns acts (data, .ok ()) →
      Resolution inst fresh acts (saga.settle { inst with data } fresh.metadata) (.ok ())

/-! ## The machine -/

/-- A write of the instance, with its answer. -/
def wrote (mode : Mode) (inst : Instance D) (reply : Except StorageError Document) : Exchange B :=
  match mode with
  | .insert => ⟨.insert (saga.dataType.toDocument inst.data)
      (Invocation.valuesOf saga inst.data rules), reply⟩
  | .update => ⟨.update (saga.dataType.toDocument inst.data)
      (Invocation.valuesOf saga inst.data rules), reply⟩

/-- A lost write, the latest exchange first. -/
def lost (attempt : Nat) (mode : Mode) (inst : Instance D) (reason : String) :
    List (Exchange B) :=
  [⟨.note (.log (.writeConflict saga.name (saga.dataType.id inst.data)
      (saga.dataType.revision inst.data) attempt reason)), ()⟩,
    ⟨.count .conflict, ()⟩, wrote saga rules mode inst (.error (.conflict reason))]

/-- What is left of a resolution that succeeds. -/
def settled (attempt : Nat) (fresh : Document) : List (Exchange B) :=
  [⟨.note (.log (.conflictResolved saga.name fresh.id fresh.revision attempt)), ()⟩,
    ⟨.count .conflictResolved, ()⟩] ++ remarks saga i fresh (.ok ())

/-- Looking for the state that won. -/
abbrev searching (mode : Mode) (inst : Instance D) :
    Program B (Except StorageError (Option Document)) :=
  fetchFresh (saga.dataType.toDocument inst.data) (Invocation.valuesOf saga inst.data rules) mode

/-- From this attempt on: the exchanges of a commit, the latest first, and what it returns. -/
inductive Course (limit : Nat) :
    Nat → Mode → Instance D → List (Exchange B) → Outcome D B → Prop
  /-- The write succeeds. -/
  | written {attempt : Nat} {mode : Mode} {inst : Instance D} (stored : Document) :
      Course limit attempt mode inst
        [⟨.count mode.counter, ()⟩, wrote saga rules mode inst (.ok stored)]
        (i.holding (saga.settle inst stored.metadata), .ok ())
  /-- The write fails for another reason than a conflict. -/
  | failed {attempt : Nat} {mode : Mode} {inst : Instance D} (e : StorageError) :
      (∀ reason, e ≠ .conflict reason) →
      Course limit attempt mode inst [wrote saga rules mode inst (.error e)]
        (i.holding inst, .error (.storage e))
  /-- The write is lost, and the saga does not resolve conflicts. -/
  | refused {attempt : Nat} {mode : Mode} {inst : Instance D} (reason : String) :
      saga.resolvesConflicts = false →
      Course limit attempt mode inst (lost saga rules attempt mode inst reason)
        (i.holding inst, .error (.concurrency saga.name (saga.dataType.id inst.data) reason))
  /-- The write is lost, and it was the last attempt. -/
  | exhausted {attempt : Nat} {mode : Mode} {inst : Instance D} (reason : String) :
      saga.resolvesConflicts = true → attempt = limit →
      Course limit attempt mode inst
        (⟨.note (.log (.retriesExhausted saga.name (saga.dataType.id inst.data) attempt)), ()⟩ ::
          lost saga rules attempt mode inst reason)
        (i.holding inst, .error (.conflictRetriesExhausted saga.name
          (saga.dataType.id inst.data) attempt reason))
  /-- The write is lost, and a lookup fails. -/
  | unsought {attempt : Nat} {mode : Mode} {inst : Instance D} {looks : List (Exchange B)}
      (reason : String) (e : StorageError) :
      saga.resolvesConflicts = true → attempt < limit →
      (searching saga rules mode inst).Returns looks (.error e) →
      Course limit attempt mode inst (looks ++ lost saga rules attempt mode inst reason)
        (i.holding inst, .error (.storage e))
  /-- The write is lost, and nothing is found. -/
  | vanished {attempt : Nat} {mode : Mode} {inst : Instance D} {looks : List (Exchange B)}
      (reason : String) :
      saga.resolvesConflicts = true → attempt < limit →
      (searching saga rules mode inst).Returns looks (.ok none) →
      Course limit attempt mode inst
        (⟨.note (.log (.vanished saga.name (saga.dataType.id inst.data))), ()⟩ ::
          (looks ++ lost saga rules attempt mode inst reason))
        (i.holding inst, .error (.sagaVanished saga.name (saga.dataType.id inst.data)))
  /-- The write is lost, and resolving the conflict fails. -/
  | unresolved {attempt : Nat} {mode : Mode} {inst last : Instance D}
      {looks acts : List (Exchange B)} (reason : String) (fresh : Document) (e : InvokeError) :
      saga.resolvesConflicts = true → attempt < limit →
      (searching saga rules mode inst).Returns looks (.ok (some fresh)) →
      Resolution saga i inst fresh acts last (.error e) →
      Course limit attempt mode inst
        (remarks saga i fresh (.error e) ++ acts ++ looks ++
          lost saga rules attempt mode inst reason)
        (i.holding last, .error (.handler e))
  /-- The write is lost, the conflict is resolved, and the next attempt is an update. -/
  | resolved {attempt : Nat} {mode : Mode} {inst next : Instance D}
      {looks acts later : List (Exchange B)} {r : Outcome D B} (reason : String)
      (fresh : Document) :
      saga.resolvesConflicts = true → attempt < limit →
      (searching saga rules mode inst).Returns looks (.ok (some fresh)) →
      Resolution saga i inst fresh acts next (.ok ()) →
      Course limit (attempt + 1) .update next later r →
      Course limit attempt mode inst
        (later ++ (settled saga i attempt fresh ++ acts ++ looks ++
          lost saga rules attempt mode inst reason)) r

end

/-! ## What a commit returns -/

variable {saga : Saga D B} {rules : List (Rule B)} {i : Invocation D B} {inst : Instance D}
  {attempt limit : Nat} {mode : Mode} {past : List (Exchange B)} {r : Outcome D B}

theorem returns_merge {fresh : Document} {j : Invocation D B} {answer : Except InvokeError Unit}
    (isSaga : i.handler = .saga saga) :
    ((i.holding inst).merge .request fresh).Returns past (j, answer) ↔
      ∃ last, Resolution saga i inst fresh past last answer ∧ j = i.holding last := by
  obtain ⟨handler, message, bound, skipped, journaled⟩ := i
  cases isSaga
  unfold Invocation.merge Invocation.holding
  dsimp only
  cases reads : Invocation.read saga fresh with
  | error e =>
    dsimp only
    rw [Program.pure_eq, returns_done]
    constructor
    · rintro ⟨rfl, same⟩
      cases same
      exact ⟨inst, .unread e reads, rfl⟩
    · rintro ⟨last, ⟨_, reads'⟩ | ⟨_, reads'⟩ | ⟨reads'⟩, rfl⟩ <;> cases reads.symm.trans reads'
      exact ⟨rfl, rfl⟩
  | ok stored =>
    dsimp only
    rw [returns_bind]
    constructor
    · rintro ⟨⟨data, outcome⟩, acts, late, called, follows, rfl⟩
      cases outcome with
      | error reason =>
        obtain ⟨rfl, same⟩ := returns_done.1 follows
        cases same
        exact ⟨_, .failed reason reads called, rfl⟩
      | ok =>
        obtain ⟨rfl, same⟩ := returns_done.1 follows
        cases same
        exact ⟨_, .merged reads called, rfl⟩
    · rintro ⟨last, ⟨_, reads'⟩ | ⟨reason, reads', called⟩ | ⟨reads', called⟩, rfl⟩ <;>
        cases reads.symm.trans reads'
      · exact ⟨_, past, [], called, .done _, rfl⟩
      · exact ⟨_, past, [], called, .done _, rfl⟩

/-- A resolution is what the machine takes it for. -/
theorem returns_resolve {fresh : Document} {j : Invocation D B} {answer : Except InvokeError Unit}
    (isSaga : i.handler = .saga saga) :
    ((i.holding inst).resolve .request fresh).Returns past (j, answer) ↔
      ∃ last acts, Resolution saga i inst fresh acts last answer ∧ j = i.holding last ∧
        past = remarks saga i fresh answer ++ acts := by
  have name : (i.holding inst).name = saga.name := congrArg Handler.name isSaga
  have remarked : ∀ r : Invocation D B × Except InvokeError Unit, ∀ late answer',
      ((i.holding inst).note (.resolved saga.name fresh.id fresh.revision answer') >>= fun _ =>
        Program.done r).Returns late (j, answer) ↔
          late = remarks saga i fresh answer' ∧ (j, answer) = r := by
    intro r late answer'
    show ((if i.journaled then Program.note _ else Program.done ()) >>= _).Returns late _ ↔ _
    unfold remarks
    split
    next =>
      rw [returns_note_bind]
      constructor
      · rintro ⟨later, ended, rfl⟩
        obtain ⟨rfl, same⟩ := returns_done.1 ended
        exact ⟨rfl, same⟩
      · rintro ⟨rfl, rfl⟩
        exact ⟨[], .done _, rfl⟩
    next => rw [Program.done_bind, returns_done]
  unfold Invocation.resolve
  rw [name, returns_bind]
  constructor
  · rintro ⟨⟨j', answer'⟩, acts, late, merges, follows, rfl⟩
    obtain ⟨rfl, same⟩ := (remarked _ _ _).1 follows
    cases same
    obtain ⟨last, resolution, rfl⟩ := (returns_merge isSaga).1 merges
    exact ⟨last, acts, resolution, rfl, rfl⟩
  · rintro ⟨last, acts, resolution, rfl, rfl⟩
    exact ⟨_, acts, _, (returns_merge isSaga).2 ⟨last, resolution, rfl⟩,
      (remarked _ _ _).2 ⟨rfl, rfl⟩, rfl⟩

theorem returns_write {d : Document} {values : List PropertyValue}
    {reply : Except StorageError Document} :
    (write mode d values).Returns past reply ↔ past = [match mode with
      | .insert => ⟨.insert d values, reply⟩
      | .update => ⟨.update d values, reply⟩] := by
  cases mode with
  | insert => exact Program.returns_call
  | update => exact Program.returns_call

/-- The next round as the machine has it, if there is one. -/
def Follows (saga : Saga D B) (rules : List (Rule B)) (i : Invocation D B) (limit attempt : Nat) :
    Option (Invocation D B → Program B (Outcome D B)) → Prop
  | none => attempt = limit
  | some again => attempt < limit ∧ ∀ next past r, (again (i.holding next)).Returns past r →
      Course saga rules i limit (attempt + 1) .update next past r

theorem course_of_resolveConflict {again : Invocation D B → Program B (Outcome D B)}
    {reason : String} (isSaga : i.handler = .saga saga) (resolves : saga.resolvesConflicts = true)
    (follows : Follows saga rules i limit attempt (some again))
    (returns : (resolveConflict .request attempt mode (saga.dataType.toDocument inst.data)
      (Invocation.valuesOf saga inst.data rules) again (i.holding inst)).Returns past r) :
    Course saga rules i limit attempt mode inst
      (past ++ lost saga rules attempt mode inst reason) r := by
  have name : (i.holding inst).name = saga.name := congrArg Handler.name isSaga
  obtain ⟨room, further⟩ := follows
  obtain ⟨found, looks, late, looked, returns, rfl⟩ := returns_bind.1 returns
  rcases found with e | _ | fresh
  · obtain ⟨rfl, rfl⟩ := returns_done.1 returns
    exact .unsought reason e resolves room looked
  · obtain ⟨later, ended, rfl⟩ := returns_note_bind.1 returns
    obtain ⟨rfl, rfl⟩ := returns_done.1 ended
    rw [name]
    exact .vanished reason resolves room looked
  · obtain ⟨⟨j, answer⟩, part, rest, resolving, goesOn, rfl⟩ := returns_bind.1 returns
    obtain ⟨last, acts, resolution, rfl, rfl⟩ := (returns_resolve isSaga).1 resolving
    cases answer with
    | error e =>
      obtain ⟨rfl, rfl⟩ := returns_done.1 goesOn
      rw [List.nil_append]
      exact .unresolved reason fresh e resolves room looked resolution
    | ok =>
      obtain ⟨counted, logs, rfl⟩ := returns_count_bind.1 goesOn
      obtain ⟨later, next, rfl⟩ := returns_note_bind.1 logs
      have course := Course.resolved reason fresh resolves room looked resolution
        (further last later r next)
      rw [name]
      simpa [settled] using course

theorem course_of_afterConflict {again : Option (Invocation D B → Program B (Outcome D B))}
    {reason : String} (isSaga : i.handler = .saga saga)
    (follows : Follows saga rules i limit attempt again)
    (returns : (afterConflict .request attempt mode (saga.dataType.toDocument inst.data)
      (Invocation.valuesOf saga inst.data rules) reason again (i.holding inst)).Returns past r) :
    Course saga rules i limit attempt mode inst
      (past ++ [wrote saga rules mode inst (.error (.conflict reason))]) r := by
  have name : (i.holding inst).name = saga.name := congrArg Handler.name isSaga
  have resolves : (i.holding inst).resolvesConflicts = saga.resolvesConflicts := by
    simp [Invocation.resolvesConflicts, Invocation.saga?, Invocation.holding, Handler.saga?, isSaga]
  unfold afterConflict at returns
  rw [name, resolves] at returns
  obtain ⟨counted, logs, rfl⟩ := returns_count_bind.1 returns
  obtain ⟨newer, ended, rfl⟩ := returns_note_bind.1 logs
  rw [List.append_assoc, List.append_assoc]
  cases resolving : saga.resolvesConflicts with
  | false =>
    rw [resolving] at ended
    obtain ⟨rfl, rfl⟩ := returns_done.1 ended
    exact .refused reason resolving
  | true =>
    rw [resolving] at ended
    cases again with
    | none =>
      obtain ⟨later, done, rfl⟩ := returns_note_bind.1 ended
      obtain ⟨rfl, rfl⟩ := returns_done.1 done
      exact .exhausted reason resolving follows
    | some again => exact course_of_resolveConflict isSaga resolving follows ended

theorem course_of_round {again : Option (Invocation D B → Program B (Outcome D B))}
    (isSaga : i.handler = .saga saga) (follows : Follows saga rules i limit attempt again)
    (returns : (round .request rules attempt mode again (i.holding inst)).Returns past r) :
    Course saga rules i limit attempt mode inst past r := by
  have held : (i.holding inst).instance? = some (saga, inst) := by
    simp [Invocation.instance?, Invocation.holding, isSaga]
  have adopted : ∀ m, (i.holding inst).adopt m = i.holding (saga.settle inst m) := by
    simp [Invocation.adopt, Invocation.holding, Saga.settle, isSaga]
  unfold round Invocation.document? Invocation.values at returns
  rw [held] at returns
  obtain ⟨reply, early, late, written, goesOn, rfl⟩ := returns_bind.1 returns
  obtain rfl := returns_write.1 written
  rcases reply with (reason | e | e) | stored
  · exact course_of_afterConflict isSaga follows goesOn
  · obtain ⟨rfl, rfl⟩ := returns_done.1 goesOn
    exact .failed _ (by simp)
  · obtain ⟨rfl, rfl⟩ := returns_done.1 goesOn
    exact .failed _ (by simp)
  · obtain ⟨later, ended, rfl⟩ := returns_count_bind.1 goesOn
    obtain ⟨rfl, rfl⟩ := returns_done.1 ended
    exact adopted _ ▸ .written stored

theorem course_of_rounds {more : Nat} (isSaga : i.handler = .saga saga)
    (last : attempt + more = limit)
    (returns : (rounds .request rules more attempt mode (i.holding inst)).Returns past r) :
    Course saga rules i limit attempt mode inst past r := by
  induction more generalizing attempt mode inst past r with
  | zero =>
    have follows : Follows saga rules i limit attempt none := last
    exact course_of_round isSaga follows returns
  | succ more ih =>
    have follows : Follows saga rules i limit attempt
        (some (rounds .request rules more (attempt + 1) .update)) :=
      ⟨by omega, fun _ _ _ => ih (by omega)⟩
    exact course_of_round isSaga follows returns

/-! ## Telling the exits apart -/

/-- What a commit has come to, by the answers to its writes and its lookups: the latest write
decides, and if it was lost, whether attempts are left and what the latest lookup has found. -/
def Decided (saga : Saga D B) (limit attempt : Nat) (writes : List (Except StorageError Document))
    (looks : List (Except StorageError (Option Document))) (answer : Except SagaError Unit) :
    Prop :=
  match writes with
  | [] => False
  | .ok _ :: _ => answer = .ok ()
  | .error (.conflict reason) :: earlier =>
    if saga.resolvesConflicts then
      if attempt + earlier.length = limit then
        ∃ id, answer = .error (.conflictRetriesExhausted saga.name id limit reason)
      else
        match looks with
        | [] => False
        | .error e :: _ => answer = .error (.storage e)
        | .ok none :: _ => ∃ id, answer = .error (.sagaVanished saga.name id)
        | .ok (some _) :: _ => ∃ e, answer = .error (.handler e)
    else earlier = [] ∧ ∃ id, answer = .error (.concurrency saga.name id reason)
  | .error e :: _ => answer = .error (.storage e)

theorem Decided.resolved {writes : List (Except StorageError Document)}
    {looks older : List (Except StorageError (Option Document))} {answer : Except SagaError Unit}
    (decided : Decided saga limit (attempt + 1) writes looks answer)
    (resolves : saga.resolvesConflicts = true) (reason : String) :
    Decided saga limit attempt (writes ++ [.error (.conflict reason)]) (looks ++ older) answer := by
  rcases writes with _ | ⟨(_ | _ | _) | _, earlier⟩
  · exact decided.elim
  · unfold Decided at decided ⊢
    simp only [resolves, if_true, List.cons_append, List.length_append, List.length_singleton] at *
    rw [show attempt + (earlier.length + 1) = attempt + 1 + earlier.length by omega]
    split at decided
    next last => rwa [if_pos last]
    next more =>
      rw [if_neg more]
      rcases looks with _ | ⟨_ | _ | _, rest⟩
      · exact decided.elim
      all_goals exact decided
  all_goals exact decided

theorem writesOf_wrote (reply : Except StorageError Document) (earlier : List (Exchange B)) :
    writesOf (wrote saga rules mode inst reply :: earlier) = reply :: writesOf earlier ∧
      looksOf (wrote saga rules mode inst reply :: earlier) = looksOf earlier := by
  cases mode <;> exact ⟨rfl, rfl⟩

/-- Lookups for the state that won write nothing, and the latest of them decides. -/
theorem looksOf_searching {looks : List (Exchange B)}
    {found : Except StorageError (Option Document)}
    (looked : (searching saga rules mode inst).Returns looks found) :
    writesOf looks = [] ∧ ∃ earlier, looksOf looks = found :: earlier := by
  have keeps : (searching saga rules mode inst).Keeps (paced True 0 .freshId) ⟨0, none⟩ _ :=
    keeps_fetchFresh_paced _ _ _
  have same := looked.keeps keeps (met_paced looks _)
  rw [after_paced] at same
  obtain ⟨none, latest⟩ := Pace.mk.inj same
  exact ⟨List.length_eq_zero_iff.1 none, List.head?_eq_some_iff.1 latest⟩

/-- What holds of the writes of a commit, and of what it returns. -/
structure Judged (saga : Saga D B) (i : Invocation D B) (limit attempt : Nat)
    (past : List (Exchange B)) (r : Outcome D B) : Prop where
  decided : Decided saga limit attempt (writesOf past) (looksOf past) r.2
  within : attempt + (writesOf past).tail.length ≤ limit
  /-- All writes but the last one were lost. -/
  earlier : ∀ reply ∈ (writesOf past).tail, ∃ reason, reply = .error (.conflict reason)
  resolves : (writesOf past).tail ≠ [] → saga.resolvesConflicts = true
  adopted : ∀ stored before, writesOf past = .ok stored :: before →
    ∃ inst, r.1 = i.holding (saga.settle inst stored.metadata)

theorem Decided.ne_nil {writes : List (Except StorageError Document)}
    {looks : List (Except StorageError (Option Document))} {answer : Except SagaError Unit}
    (decided : Decided saga limit attempt writes looks answer) : writes ≠ [] := by
  rintro rfl
  exact decided

/-- One write, with what was asked after it. -/
theorem Judged.once {reply : Except StorageError Document}
    {looks : List (Except StorageError (Option Document))} (room : attempt ≤ limit)
    (writes : writesOf past = [reply]) (looked : looksOf past = looks)
    (decided : Decided saga limit attempt [reply] looks r.2)
    (adopted : ∀ stored, reply = .ok stored →
      ∃ inst, r.1 = i.holding (saga.settle inst stored.metadata)) :
    Judged saga i limit attempt past r where
  decided := by rwa [writes, looked]
  within := by simpa [writes] using room
  earlier := by simp [writes]
  resolves := by simp [writes]
  adopted stored before same := adopted stored (List.cons.inj (writes.symm.trans same)).1

theorem writesOf_lost (attempt : Nat) (reason : String) :
    writesOf (lost saga rules attempt mode inst reason) = [.error (.conflict reason)] ∧
      looksOf (lost saga rules attempt mode inst reason) = [] := by
  cases mode <;> exact ⟨rfl, rfl⟩

/-- Exchanges that are neither writes nor lookups. -/
def Silent (part : List (Exchange B)) : Prop :=
  writesOf part = [] ∧ looksOf part = []

theorem silent_nil : Silent ([] : List (Exchange B)) :=
  ⟨rfl, rfl⟩

theorem silent_remarks (fresh : Document) (answer : Except InvokeError Unit) :
    Silent (remarks saga i fresh answer) := by
  unfold remarks
  split <;> exact ⟨rfl, rfl⟩

theorem Silent.append {late early : List (Exchange B)} (silent : Silent late)
    (silent' : Silent early) : Silent (late ++ early) := by
  rw [Silent, writesOf_append, looksOf_append, silent.1, silent.2, silent'.1, silent'.2]
  exact ⟨rfl, rfl⟩

/-- A resolution writes nothing and looks nothing up. -/
theorem Resolution.silent {fresh : Document} {acts : List (Exchange B)} {last : Instance D}
    {answer : Except InvokeError Unit}
    (resolution : Resolution saga i inst fresh acts last answer) : Silent acts := by
  have silent : ∀ (act : Act B (D × Except String Unit)) past result,
      (act.program .request).Returns past result → Silent past := by
    intro act past result returns
    have keeps : (act.program .request).Keeps (paced True 0 .freshId) ⟨0, none⟩ _ :=
      (Act.ends_of_forall (fun _ => trivial) act).keeps (.inl trivial) paced_acts _
    obtain ⟨-, same⟩ := returns.keeps keeps (met_paced past _)
    rw [after_paced] at same
    obtain ⟨none, latest⟩ := Pace.mk.inj same
    exact ⟨List.length_eq_zero_iff.1 none, List.head?_eq_none_iff.1 latest⟩
  cases resolution with
  | unread => exact ⟨rfl, rfl⟩
  | failed reason _ called => exact silent _ _ _ called
  | merged _ called => exact silent _ _ _ called

/-- A lost write, the lookups that it leads to, and what is neither. -/
theorem writesOf_search {newer looks : List (Exchange B)}
    {found : Except StorageError (Option Document)} (attempt : Nat) (reason : String)
    (silent : Silent newer) (looked : (searching saga rules mode inst).Returns looks found) :
    writesOf (newer ++ looks ++ lost saga rules attempt mode inst reason) =
        [.error (.conflict reason)] ∧
      ∃ older, looksOf (newer ++ looks ++ lost saga rules attempt mode inst reason) =
        found :: older := by
  obtain ⟨quiet, older, latest⟩ := looksOf_searching looked
  have ⟨writes, looks⟩ : writesOf (lost saga rules attempt mode inst reason) = _ ∧ _ :=
    writesOf_lost attempt reason
  rw [writesOf_append, writesOf_append, looksOf_append, looksOf_append, silent.1, silent.2, quiet,
    latest, writes, looks]
  exact ⟨rfl, older, List.append_nil _⟩

theorem silent_settled (fresh : Document) : Silent (settled saga i attempt fresh) :=
  Silent.append ⟨rfl, rfl⟩ (silent_remarks fresh _)

/-- A lost write before all others. -/
theorem Judged.resolved {later older : List (Exchange B)} {reason : String}
    (judged : Judged saga i limit (attempt + 1) later r) (resolves : saga.resolvesConflicts = true)
    (writes : writesOf older = [.error (.conflict reason)]) :
    Judged saga i limit attempt (later ++ older) r := by
  obtain ⟨latest, before, same⟩ := List.exists_cons_of_ne_nil judged.decided.ne_nil
  have all : writesOf (later ++ older) = latest :: (before ++ [.error (.conflict reason)]) := by
    rw [writesOf_append, same, writes, List.cons_append]
  have within := judged.within
  have earlier := judged.earlier
  rw [same, List.tail_cons] at within earlier
  refine ⟨?_, ?_, ?_, fun _ => resolves, ?_⟩
  · rw [writesOf_append, looksOf_append, writes]
    exact judged.decided.resolved resolves reason
  · rw [all, List.tail_cons, List.length_append, List.length_singleton]
    omega
  · rw [all, List.tail_cons]
    intro reply member
    rcases List.mem_append.1 member with member | member
    · exact earlier reply member
    · exact ⟨reason, List.mem_singleton.1 member⟩
  · intro stored others isOk
    rw [all] at isOk
    obtain ⟨rfl, -⟩ := List.cons.inj isOk
    exact judged.adopted stored before same

theorem Course.judged (course : Course saga rules i limit attempt mode inst past r)
    (room : attempt ≤ limit) : Judged saga i limit attempt past r := by
  induction course with
  | @written attempt mode inst stored =>
    obtain ⟨writes, looks⟩ := writesOf_wrote (.ok stored) []
    refine .once room writes looks rfl ?_
    rintro _ ⟨⟩
    exact ⟨inst, rfl⟩
  | @failed attempt mode inst e other =>
    obtain ⟨writes, looks⟩ := writesOf_wrote (.error e) []
    refine .once room writes looks ?_ nofun
    cases e with
    | conflict reason => exact absurd rfl (other reason)
    | backend reason => rfl
    | serialization e => rfl
  | @refused attempt mode inst reason resolves =>
    obtain ⟨writes, looks⟩ := writesOf_lost attempt reason
    refine .once room writes looks ?_ nofun
    simp [Decided, resolves]
  | @exhausted attempt mode inst reason resolves last =>
    obtain ⟨writes, looks⟩ := writesOf_lost attempt reason
    refine .once room writes looks ?_ nofun
    simp [Decided, resolves, last]
  | @unsought attempt mode inst looks reason e resolves more looked =>
    obtain ⟨writes, older, latest⟩ := writesOf_search attempt reason silent_nil looked
    refine .once room writes latest ?_ nofun
    simp [Decided, resolves, more.ne]
  | @vanished attempt mode inst looks reason resolves more looked =>
    obtain ⟨writes, older, latest⟩ := writesOf_search attempt reason silent_nil looked
    refine .once room writes latest ?_ nofun
    simp [Decided, resolves, more.ne]
  | @unresolved attempt mode inst last looks acts reason fresh e resolves more looked resolution =>
    obtain ⟨writes, older, latest⟩ := writesOf_search attempt reason
      ((silent_remarks fresh _).append resolution.silent) looked
    refine .once room writes latest ?_ nofun
    simp [Decided, resolves, more.ne]
  | @resolved attempt mode inst next looks acts later r reason fresh resolves more looked
      resolution _ ih =>
    exact (ih more).resolved resolves (writesOf_search attempt reason
      ((silent_settled fresh).append resolution.silent) looked).1

/-- The latest write was lost, and may be made up for. -/
def Undecided (saga : Saga D B) (limit : Nat) (writes : List (Except StorageError Document)) :
    Prop :=
  saga.resolvesConflicts = true ∧ writes.length < limit ∧
    ∃ reason before, writes = .error (.conflict reason) :: before

/-- The exits of a commit, each with the answers that lead to it. -/
structure Exits (saga : Saga D B) (limit : Nat) (writes : List (Except StorageError Document))
    (looks : List (Except StorageError (Option Document))) (answer : Except SagaError Unit) :
    Prop where
  ok : answer = .ok () ↔ ∃ stored before, writes = .ok stored :: before
  concurrency : (∃ name id reason, answer = .error (.concurrency name id reason)) ↔
    saga.resolvesConflicts = false ∧ ∃ reason, writes.getLast? = some (.error (.conflict reason))
  exhausted : (∃ name id attempts reason,
      answer = .error (.conflictRetriesExhausted name id attempts reason)) ↔
    saga.resolvesConflicts = true ∧ writes.length = limit ∧
      ∀ reply ∈ writes, ∃ reason, reply = .error (.conflict reason)
  attempts : ∀ name id attempts reason,
    answer = .error (.conflictRetriesExhausted name id attempts reason) → attempts = limit
  vanished : (∃ name id, answer = .error (.sagaVanished name id)) ↔
    Undecided saga limit writes ∧ looks.head? = some (.ok none)
  storage : ∀ e, answer = .error (.storage e) ↔
    ((∀ reason, e ≠ .conflict reason) ∧ ∃ before, writes = .error e :: before) ∨
      (Undecided saga limit writes ∧ looks.head? = some (.error e))
  handler : (∃ e, answer = .error (.handler e)) ↔
    Undecided saga limit writes ∧ ∃ fresh, looks.head? = some (.ok (some fresh))

theorem Decided.exits {writes : List (Except StorageError Document)}
    {looks : List (Except StorageError (Option Document))} {answer : Except SagaError Unit}
    (decided : Decided saga limit 1 writes looks answer) (within : writes.tail.length + 1 ≤ limit)
    (earlier : ∀ reply ∈ writes.tail, ∃ reason, reply = .error (.conflict reason))
    (resolves : writes.tail ≠ [] → saga.resolvesConflicts = true) :
    Exits saga limit writes looks answer := by
  rcases writes with _ | ⟨(reason | e | e) | stored, before⟩
  · exact decided.elim
  · simp only [List.tail_cons] at within earlier resolves
    cases resolving : saga.resolvesConflicts with
    | false =>
      simp only [Decided, resolving] at decided
      obtain ⟨rfl, id, rfl⟩ := decided
      constructor <;> simp [Undecided, resolving]
      grind
    | true =>
      simp only [Decided, resolving, if_true] at decided
      split at decided
      next last =>
        obtain ⟨id, rfl⟩ := decided
        constructor <;> simp [Undecided, resolving] <;> grind
      next more =>
        rcases looks with _ | ⟨e | _ | fresh, older⟩
        · exact decided.elim
        · obtain rfl : answer = .error (.storage e) := decided
          constructor <;> simp [Undecided, resolving] <;> grind
        · obtain ⟨id, rfl⟩ := decided
          constructor <;> simp [Undecided, resolving] <;> grind
        · obtain ⟨e, rfl⟩ := decided
          constructor <;> simp [Undecided, resolving] <;> grind
  · obtain rfl : answer = .error (.storage (.backend e)) := decided
    constructor <;> simp [Undecided]
    grind
  · obtain rfl : answer = .error (.storage (.serialization e)) := decided
    constructor <;> simp [Undecided]
    grind
  · obtain rfl : answer = .ok () := decided
    constructor <;> simp [Undecided]
    grind

/-! ## Every commit -/

/-- What a commit comes to that has returned. -/
structure Finished (saga : Saga D B) (rules : List (Rule B)) (maxAttempts : Nat) (mode : Mode)
    (i : Invocation D B) (inst : Instance D) (past : List (Exchange B)) (r : Outcome D B) :
    Prop where
  /-- Between two writes there is one resolution, which has succeeded. After the last write there
  is none, or one that has failed. -/
  course : Course saga rules i (max 1 maxAttempts) 1 mode inst past r
  exits : Exits saga (max 1 maxAttempts) (writesOf past) (looksOf past) r.2
  adopted : ∀ stored before, writesOf past = .ok stored :: before → ∃ last,
    r.1 = i.holding last ∧ last.isNew = false ∧
      saga.dataType.metadata.get last.data = stored.metadata

/-- What a commit does, with any storage and any resolver. -/
structure RetriesBounded (saga : Saga D B) (rules : List (Rule B)) (maxAttempts : Nat) (mode : Mode)
    (i : Invocation D B) (inst : Instance D) : Prop where
  ends : (∀ own stored, (saga.resolve i.message own stored).Lives) →
    ∀ {σ : Type} (answer : Program.Answering B σ) (w : σ),
      ∃ r v, (persist .request maxAttempts rules mode i).run answer w = (some r, v)
  bounded : ∀ party, Party.Reached (persist .request maxAttempts rules mode i) party →
    (writesOf party.past).length ≤ max 1 maxAttempts
  due : ∀ past request rest,
    Party.Reached (persist .request maxAttempts rules mode i) ⟨past, .ask request rest⟩ →
    request.isWrite = true → Due (max 1 maxAttempts) (writeOf saga rules mode inst)
      ⟨(writesOf past).length, (looksOf past).head?⟩ request
  finished : ∀ past r, (persist .request maxAttempts rules mode i).Returns past r →
    Finished saga rules maxAttempts mode i inst past r

theorem finished_of_returns {maxAttempts : Nat} (isSaga : i.handler = .saga saga)
    (isBound : i.bound = some inst)
    (returns : (persist .request maxAttempts rules mode i).Returns past r) :
    Finished saga rules maxAttempts mode i inst past r := by
  rw [← Invocation.holding_of_bound isBound] at returns
  have last : 1 + (maxAttempts - 1) = max 1 maxAttempts := by omega
  have course := course_of_rounds isSaga last returns
  have judged := course.judged (Nat.le_max_left 1 maxAttempts)
  refine ⟨course, judged.decided.exits ?_ judged.earlier judged.resolves, ?_⟩
  · have within := judged.within
    omega
  · intro stored before same
    obtain ⟨own, adopted⟩ := judged.adopted stored before same
    exact ⟨_, adopted, rfl, saga.dataType.metadata.get_set ..⟩

/-- A commit of a saga's instance writes a bounded number of times, each time what is due, and ends
as storage and the resolver have it. -/
theorem retries_bounded (isSaga : i.handler = .saga saga) (isBound : i.bound = some inst)
    (maxAttempts : Nat) (rules : List (Rule B)) (mode : Mode) :
    RetriesBounded saga rules maxAttempts mode i inst where
  ends := persist_ends isSaga isBound
  bounded _ := length_writes isSaga isBound
  due _ _ _ := due_of_reached isSaga isBound
  finished _ _ := finished_of_returns isSaga isBound

end Commit

/-! ## A posting that comes second -/

section Tally

open Demo

/-- Somebody else has stored a tally for the rent, at revision three. -/
def outrun : Program.Answering Posting Unit
  | .insert .., _ => (.error (.conflict "taken"), ())
  | .find .., _ => (.ok (some (Tally.dataType.toDocument ⟨⟨Tally.number 1, ⟨3⟩⟩, "rent", 10⟩)), ())
  | request, _ => (obliging .nil request, ())

/-- Five are posted to a new tally. -/
def secondRent : Invocation Tally Posting :=
  ⟨.saga (Tally.saga true), ⟨"demo.post", [], ⟨"rent", 5⟩⟩,
    some (.ofData ⟨⟨Tally.number 2, .initial⟩, "rent", 5⟩ true), false, false⟩

/-- The insert is lost, and the five are added to the stored tally. -/
theorem secondRent_retried :
    Commit.RetriesBounded (Tally.saga true) [] 2 .insert secondRent
        (.ofData ⟨⟨Tally.number 2, .initial⟩, "rent", 5⟩ true) ∧
      ∃ j past, (Commit.persist .request 2 [] .insert secondRent).run (Program.traced outrun)
          ((), []) = (some (j, .ok ()), (), past) ∧
        (writesOf past).length = 2 ∧ j.id? = some (Tally.number 1) :=
  ⟨Commit.retries_bounded rfl rfl 2 [] .insert, _, _, rfl, rfl, rfl⟩

end Tally

end Sagas
