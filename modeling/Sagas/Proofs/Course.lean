import Sagas.Proofs.Crew
import Sagas.Proofs.Processing

/-!
# The course of a message

A program that is done has returned something after certain exchanges. A message is a program made
of stages, each of which either returns what the next one starts from, or an error that ends the
message:

* the rules of its sagas, then its locks (`Prepared`);
* the binding of its instances (`Bound`);
* its handlers (`Handled`);
* its writes.

Whatever the message ends in, its locks are given back and a failure is logged (`finish`).

Results:
1. `returns_bind`, `returns_inTurn_error`: what a program returns that is made of others.
2. `Returns.keeps`: what a contract says of a program that has returned.
3. `Returns.leaves`, `Returns.rest`: a stage that has returned is followed by what is left.
4. `Party.Reached.later`, `reached_bind`: where a program can be on its way.
5. `Keeps.of_trace`, `Keeps.traced`: programs that keep a contract, by the answers they have had.
6. `Job.program_stages`: the stages of a message.
-/

namespace Sagas

variable {B α β σ τ : Type}

/-! ## Returning -/

namespace Contract

variable {c : Contract B σ} {s : σ} {past late early : List (Exchange B)}

theorem after_append : c.after s (late ++ early) = c.after (c.after s early) late := by
  induction late with
  | nil => rfl
  | cons y earlier ih =>
    show c.next (c.after s (earlier ++ early)) _ _ = _
    rw [ih]
    rfl

theorem met_append : c.Met s (late ++ early) ↔ c.Met s early ∧ c.Met (c.after s early) late := by
  induction late with
  | nil => exact (and_iff_left trivial).symm
  | cons y earlier ih =>
    show c.Met s (earlier ++ early) ∧ c.expects (c.after s (earlier ++ early)) _ _ ↔ _
    rw [ih, after_append, and_assoc]
    rfl

/-- The contract that remembers the exchanges beside its own state, the latest first. -/
def traced (c : Contract B σ) : Contract B (σ × List (Exchange B)) where
  owes s := c.owes s.1
  expects s := c.expects s.1
  next s request reply := (c.next s.1 request reply, ⟨request, reply⟩ :: s.2)
  dies := c.dies

theorem after_traced : c.traced.after (s, []) past = (c.after s past, past) := by
  induction past with
  | nil => rfl
  | cons x earlier ih =>
    show c.traced.next (c.traced.after (s, []) earlier) x.request x.reply = _
    rw [ih]
    rfl

end Contract

namespace Party.Reached

variable {p : Program B α} {party party' : Party B α}

theorem trans (first : Reached p party) (second : Reached party.program party') :
    Reached p ⟨party'.past ++ party.past, party'.program⟩ := by
  induction second with
  | start => exact first
  | step reply _ ih => exact ih.step reply

/-- On the way in the first of two programs, the second one is still to follow. -/
theorem bind (reached : Reached p party) (next : α → Program B β) :
    Reached (p >>= next) ⟨party.past, party.program >>= next⟩ := by
  induction reached with
  | start => exact .start
  | step reply _ ih => exact ih.step reply

/-- Nothing comes after the end. -/
theorem of_done {a : α} (reached : Reached (.done a : Program B α) party) :
    party = Party.start (.done a) := by
  induction reached with
  | start => rfl
  | step reply _ ih => cases ih

/-- A program that asks has not asked yet, or goes on from an answer. -/
theorem of_ask {request : Request B} {rest : Reply request → Program B α}
    (reached : Reached (.ask request rest) party) : party = Party.start (.ask request rest) ∨
      ∃ reply later, Reached (rest reply) ⟨later, party.program⟩ ∧
        party.past = later ++ [⟨request, reply⟩] := by
  induction reached with
  | start => exact .inl rfl
  | step reply _ ih =>
    rcases ih with first | ⟨reply', later, goesOn, same⟩
    · cases first
      exact .inr ⟨reply, [], .start, rfl⟩
    · exact .inr ⟨reply', _, goesOn.step reply, congrArg (⟨_, reply⟩ :: ·) same⟩

/-- The same exchanges lead to the same place. -/
theorem same_program {q q' : Program B α} {past : List (Exchange B)} (reached : Reached p ⟨past, q⟩)
    (reached' : Reached p ⟨past, q'⟩) : q = q' := by
  induction past generalizing q q' with
  | nil =>
    cases reached
    cases reached'
    rfl
  | cons x earlier ih =>
    cases reached with
    | step reply before =>
      cases reached' with
      | step reply' before' =>
        cases ih before before'
        rfl

/-- Later moments are reached from earlier ones. -/
theorem later {before : Party B α} (reached : Reached p party) (earlier : Reached p before)
    (suffix : before.past <:+ party.past) :
    ∃ late, Reached before.program ⟨late, party.program⟩ ∧ party.past = late ++ before.past := by
  induction reached with
  | start =>
    obtain ⟨past, q⟩ := before
    obtain rfl : past = [] := List.suffix_nil.1 suffix
    cases earlier.same_program .start
    exact ⟨[], .start, rfl⟩
  | @step past request rest reply reached ih =>
    rcases List.suffix_cons_iff.1 suffix with same | suffix
    · obtain ⟨past', q⟩ := before
      obtain rfl : past' = ⟨request, reply⟩ :: past := same
      cases earlier.same_program (reached.step reply)
      exact ⟨[], .start, rfl⟩
    · obtain ⟨late, between, same⟩ := ih suffix
      exact ⟨⟨request, reply⟩ :: late, between.step reply, congrArg (⟨request, reply⟩ :: ·) same⟩

end Party.Reached

namespace Program

/-- The program returns `a` after these exchanges, the latest first. -/
inductive Returns : Program B α → List (Exchange B) → α → Prop
  | done (a : α) : Returns (.done a) [] a
  | ask {request : Request B} {rest : Reply request → Program B α} {past : List (Exchange B)}
      {a : α} (reply : Reply request) :
      Returns (rest reply) past a → Returns (.ask request rest) (past ++ [⟨request, reply⟩]) a

variable {p : Program B α} {next : α → Program B β} {past : List (Exchange B)} {a a' : α} {b : β}

@[simp] theorem returns_done : (done a' : Program B α).Returns past a ↔ past = [] ∧ a = a' := by
  constructor
  · rintro ⟨⟩
    exact ⟨rfl, rfl⟩
  · rintro ⟨rfl, rfl⟩
    exact .done a

@[simp] theorem not_returns_panic : ¬ (panic : Program B α).Returns past a := nofun

theorem returns_ask {request : Request B} {rest : Reply request → Program B α} :
    (ask request rest).Returns past a ↔
      ∃ reply later, (rest reply).Returns later a ∧ past = later ++ [⟨request, reply⟩] := by
  constructor
  · rintro (_ | ⟨reply, later⟩)
    exact ⟨reply, _, later, rfl⟩
  · rintro ⟨reply, later, returns, rfl⟩
    exact .ask reply returns

/-- A program made of two returns once both have. -/
theorem returns_bind : (p >>= next).Returns past b ↔
    ∃ a early late, p.Returns early a ∧ (next a).Returns late b ∧ past = late ++ early := by
  induction p generalizing past with
  | done a =>
    constructor
    · exact fun returns => ⟨a, [], past, .done a, returns, (List.append_nil past).symm⟩
    · rintro ⟨a', early, late, first, second, rfl⟩
      obtain ⟨rfl, rfl⟩ := returns_done.1 first
      rwa [List.append_nil]
  | ask request rest ih =>
    rw [ask_bind, returns_ask]
    constructor
    · rintro ⟨reply, later, returns, rfl⟩
      obtain ⟨a, early, late, first, second, rfl⟩ := (ih reply).1 returns
      exact ⟨a, _, late, .ask reply first, second, by rw [List.append_assoc]⟩
    · rintro ⟨a, early, late, first, second, rfl⟩
      obtain ⟨reply, later, follows, rfl⟩ := returns_ask.1 first
      exact ⟨reply, _, (ih reply).2 ⟨a, later, late, follows, second, rfl⟩,
        by rw [List.append_assoc]⟩
  | panic => simp

theorem Returns.reached (returns : p.Returns past a) : Party.Reached p ⟨past, .done a⟩ := by
  induction returns with
  | done a => exact .start
  | @ask request rest past a reply _ ih =>
    have first : Party.Reached (.ask request rest) ⟨[⟨request, reply⟩], rest reply⟩ :=
      Party.Reached.start.step reply
    exact first.trans ih

/-- What is returned from wherever a program has come to, it has returned. -/
theorem Returns.whole {party : Party B α} {late : List (Exchange B)}
    (returns : party.program.Returns late a) (reached : Party.Reached p party) :
    p.Returns (late ++ party.past) a := by
  induction reached generalizing late with
  | start => exact (List.append_nil late).symm ▸ returns
  | step reply _ ih =>
    rw [List.append_cons]
    exact ih (.ask reply returns)

/-- The second of two programs is what is left once the first has returned. -/
theorem Returns.leaves (returns : p.Returns past a) (next : α → Program B β) :
    Party.Reached (p >>= next) ⟨past, next a⟩ :=
  returns.reached.bind next

theorem Returns.leaves_of_eq {whole : Program B β} (returns : p.Returns past a)
    (same : whole = (p >>= next)) : Party.Reached whole ⟨past, next a⟩ :=
  same ▸ returns.leaves next

/-- What a program returns, it returns from wherever it has come to. -/
theorem Returns.rest {party : Party B α} (returns : p.Returns past a)
    (reached : Party.Reached p party) (suffix : party.past <:+ past) :
    ∃ late, party.program.Returns late a ∧ past = late ++ party.past := by
  obtain ⟨late, ends, same⟩ := returns.reached.later reached suffix
  have ended := (Returns.done a).whole ends
  exact ⟨late, ended, same⟩

/-- A program that is made of two is still in the first one, or the first one has returned what the
second one goes on from. -/
theorem reached_bind {party : Party B β} (reached : Party.Reached (p >>= next) party) :
    (∃ q, Party.Reached p ⟨party.past, q⟩ ∧ party.program = (q >>= next)) ∨
      ∃ a early late, p.Returns early a ∧ Party.Reached (next a) ⟨late, party.program⟩ ∧
        party.past = late ++ early := by
  induction reached with
  | start => exact .inl ⟨p, .start, rfl⟩
  | @step past request rest reply _ ih =>
    rcases ih with ⟨q, inFirst, asks⟩ | ⟨a, early, late, returns, inSecond, rfl⟩
    · cases q with
      | done a =>
        have asks : next a = .ask request rest := asks.symm
        have returns := (Returns.done a).whole inFirst
        refine .inr ⟨a, past, [⟨request, reply⟩], returns, ?_, rfl⟩
        rw [asks]
        exact Party.Reached.start.step reply
      | ask request' rest' =>
        cases asks
        exact .inl ⟨rest' reply, inFirst.step reply, rfl⟩
      | panic => cases asks
    · exact .inr ⟨a, early, ⟨request, reply⟩ :: late, returns, inSecond.step reply, rfl⟩

theorem Returns.keeps {c : Contract B σ} {s : σ} {post : α → σ → Prop} (returns : p.Returns past a)
    (keeps : p.Keeps c s post) (met : c.Met s past) : post a (c.after s past) := by
  induction returns generalizing s with
  | done a => exact keeps
  | @ask request rest past a reply _ ih =>
    have met : c.Met s (past ++ [⟨request, reply⟩]) := met
    obtain ⟨⟨-, expected⟩, later⟩ := Contract.met_append.1 met
    rw [Contract.after_append]
    exact ih (keeps.2 reply expected) later

/-- The contract of programs that ask only certain requests, whose answers are all to be found among
these exchanges. -/
def recalling (allowed : Request B → Prop) (whole : List (Exchange B)) : Contract B Unit where
  owes _ := allowed
  expects _ request reply := ⟨request, reply⟩ ∈ whole
  next _ _ _ := ()

/-- A program that has returned has asked only what it may, and what it says of the exchanges holds
of those that it had. -/
theorem Returns.recalled {allowed : Request B → Prop} {whole : List (Exchange B)}
    {post : α → Unit → Prop} (returns : p.Returns past a)
    (keeps : p.Keeps (recalling allowed whole) () post) (within : past ⊆ whole) :
    post a () ∧ ∀ x ∈ past, allowed x.request := by
  induction returns with
  | done a => exact ⟨keeps, fun x member => nomatch member⟩
  | @ask request rest past a reply _ ih =>
    obtain ⟨before, first⟩ := List.append_subset.1 within
    have answered : ⟨request, reply⟩ ∈ whole := first (List.mem_singleton_self _)
    obtain ⟨ended, asked⟩ := ih (keeps.2 reply answered) before
    refine ⟨ended, fun x member => ?_⟩
    rcases List.mem_append.1 member with later | first
    · exact asked x later
    · obtain rfl := List.mem_singleton.1 first
      exact keeps.1

/-- A run that remembers its exchanges ends after these. -/
theorem returns_of_run {answer : Answering B τ} {w v : τ}
    (ran : p.run (traced answer) (w, []) = (some a, v, past)) : p.Returns past a := by
  have further : ∀ (p : Program B α) (w : τ) (before past : List (Exchange B)),
      p.run (traced answer) (w, before) = (some a, v, past) →
        ∃ later, p.Returns later a ∧ past = later ++ before := by
    intro p
    induction p with
    | done a =>
      rintro w before past ran
      cases ran
      exact ⟨[], .done a, rfl⟩
    | ask request rest ih =>
      intro w before past ran
      obtain ⟨later, returns, rfl⟩ := ih _ _ _ _ ran
      exact ⟨_, .ask _ returns, by rw [List.append_assoc]; rfl⟩
    | panic => exact nofun
  obtain ⟨later, returns, rfl⟩ := further p w [] past ran
  rwa [List.append_nil]

/-! ## Traces -/

theorem trace_append (answer : Answering B τ) (p : Program B α) (w : τ)
    (past : List (Exchange B)) :
    (p.run (traced answer) (w, past)).2.2 = (p.run (traced answer) (w, [])).2.2 ++ past := by
  induction p generalizing w past with
  | done a => rfl
  | ask request rest ih =>
    show ((rest _).run (traced answer) _).2.2 = ((rest _).run (traced answer) _).2.2 ++ past
    rw [ih, ih _ _ [_], List.append_assoc]
    rfl
  | panic => rfl

/-- What is remembered of a run are the answers that were given. -/
theorem reply_of_trace (answer : Answering B τ) {p : Program B α} {w : τ} {x : Exchange B}
    (member : x ∈ (p.run (traced answer) (w, [])).2.2) : ∃ u, x.reply = (answer x.request u).1 := by
  induction p generalizing w with
  | done a => exact nomatch member
  | ask request rest ih =>
    change x ∈ ((rest (answer request w).1).run (traced answer)
      ((answer request w).2, [⟨request, (answer request w).1⟩])).2.2 at member
    rw [trace_append] at member
    rcases List.mem_append.1 member with later | first
    · exact ih _ later
    · obtain rfl := List.mem_singleton.1 first
      exact ⟨w, rfl⟩
  | panic => exact nomatch member

/-- Under a contract that does not let it die, a program ends as it should if all answers that it
has had were as expected. -/
theorem Keeps.of_trace {c : Contract B σ} (alive : ¬ c.dies) (answer : Answering B τ)
    {p : Program B α} {w : τ} {s : σ} {post : α → σ → Prop} (keeps : p.Keeps c s post)
    (met : c.Met s (p.run (traced answer) (w, [])).2.2) :
    ∃ a, (p.run (traced answer) (w, [])).1 = some a ∧
      post a (c.after s (p.run (traced answer) (w, [])).2.2) := by
  induction p generalizing w s with
  | done a => exact ⟨a, rfl, keeps⟩
  | ask request rest ih =>
    have first : ((Program.ask request rest).run (traced answer) (w, [])) =
        (rest (answer request w).1).run (traced answer)
          ((answer request w).2, [⟨request, (answer request w).1⟩]) := rfl
    rw [first, trace_append] at met ⊢
    rw [(run_traced _ _ _ _).1, ← (run_traced _ _ _ []).1, Contract.after_append]
    obtain ⟨⟨-, expected⟩, later⟩ := Contract.met_append.1 met
    exact ih _ (keeps.2 _ expected) later
  | panic => exact absurd keeps alive

/-- What a program keeps, it keeps while its exchanges are remembered, and they are what it returns
after. -/
theorem Keeps.traced {c : Contract B σ} {s : σ} {post : α → σ → Prop} (keeps : p.Keeps c s post)
    (past : List (Exchange B)) : p.Keeps c.traced (s, past) fun a t => post a t.1 ∧
      ∃ later, p.Returns later a ∧ t.2 = later ++ past := by
  induction p generalizing s past with
  | done a => exact ⟨keeps, [], .done a, rfl⟩
  | ask request rest ih =>
    refine ⟨keeps.1, fun reply expected => (ih reply (keeps.2 reply expected) _).imp ?_⟩
    rintro a t ⟨ended, later, returns, same⟩
    exact ⟨ended, _, .ask reply returns, same.trans (List.append_cons ..)⟩
  | panic => exact keeps

end Program

variable {D : Type}

namespace Incoming

open Program

variable {m m' : Incoming D B} {steps : List (Continuation D B)} {past : List (Exchange B)}
  {e : SagaError}

theorem returns_inTurn_cons {step : Continuation D B} {answer : Except SagaError Unit} :
    (inTurn (step :: steps) m).Returns past (m', answer) ↔
      (∃ e, answer = .error e ∧ (step m).Returns past (m', .error e)) ∨
        ∃ m₁ early late, (step m).Returns early (m₁, .ok ()) ∧
          (inTurn steps m₁).Returns late (m', answer) ∧ past = late ++ early := by
  rw [inTurn, returns_bind]
  constructor
  · rintro ⟨⟨m₁, first⟩, early, late, returns, follows, rfl⟩
    cases first with
    | error e =>
      obtain ⟨rfl, same⟩ := returns_done.1 follows
      cases same
      exact .inl ⟨e, rfl, returns⟩
    | ok => exact .inr ⟨m₁, early, late, returns, follows, rfl⟩
  · rintro (⟨e, rfl, returns⟩ | ⟨m₁, early, late, returns, follows, rfl⟩)
    · exact ⟨_, past, [], returns, .done _, rfl⟩
    · exact ⟨_, early, late, returns, follows, rfl⟩

/-- Steps that fail, fail at one of them: those before it have succeeded, and nothing comes after
it. -/
theorem returns_inTurn_error : (inTurn steps m).Returns past (m', .error e) ↔
    ∃ k step m₁ early late, steps[k]? = some step ∧
      (inTurn (steps.take k) m).Returns early (m₁, .ok ()) ∧
      (step m₁).Returns late (m', .error e) ∧ past = late ++ early := by
  induction steps generalizing m past with
  | nil => simp [inTurn]
  | cons first rest ih =>
    rw [returns_inTurn_cons]
    constructor
    · rintro (⟨e', same, returns⟩ | ⟨m₁, early, late, returns, follows, rfl⟩)
      · cases same
        exact ⟨0, first, m, [], past, rfl, .done _, returns, (List.append_nil past).symm⟩
      · obtain ⟨k, step, m₂, middle, late, place, before, fails, rfl⟩ := ih.1 follows
        refine ⟨k + 1, step, m₂, middle ++ early, late, place, ?_, fails, ?_⟩
        · exact returns_inTurn_cons.2 (.inr ⟨m₁, early, middle, returns, before, rfl⟩)
        · rw [List.append_assoc]
    · rintro ⟨k, step, m₁, early, late, place, before, fails, rfl⟩
      cases k with
      | zero =>
        obtain ⟨rfl, same⟩ := returns_done.1 before
        cases same
        cases place
        exact .inl ⟨e, rfl, (List.append_nil late).symm ▸ fails⟩
      | succ k =>
        rw [List.take_succ_cons, returns_inTurn_cons] at before
        rcases before with ⟨e', same, -⟩ | ⟨m₂, first', middle, returns, before, rfl⟩
        · cases same
        · refine .inr ⟨m₂, first', late ++ middle, returns, ?_, by rw [List.append_assoc]⟩
          exact ih.2 ⟨k, step, m₁, middle, late, place, before, fails, rfl⟩

/-- A single step. -/
theorem inTurn_single (step : Continuation D B) (m : Incoming D B) : inTurn [step] m = step m := by
  refine Eq.trans (congrArg (step m >>= ·) (funext fun r => ?_)) (bind_done _)
  obtain ⟨m, answer⟩ := r
  cases answer <;> rfl

theorem inTurn_cons_bind {α : Type} {step : Continuation D B} {next : Processed D B → Program B α} :
    (inTurn (step :: steps) m >>= next) = (step m >>= fun r =>
      match r.2 with
      | .error e => next (r.1, .error e)
      | .ok () => inTurn steps r.1 >>= next) := by
  rw [inTurn, bind_assoc]
  refine congrArg (step m >>= ·) (funext fun r => ?_)
  obtain ⟨m, answer⟩ := r
  cases answer <;> rfl

end Incoming

/-! ## The stages of a message -/

open Program

/-- The end of every message: a failure is logged. -/
def reported (r : Processed D B) : Program B (Processed D B) := do
  match r.2 with
  | .error e => Program.log (.processingFailed r.1.context.id r.1.message.type e)
  | .ok () => pure ()
  return r

/-- What a message does after it has locks, whatever it has ended in. -/
def finish (held : List String) (r : Processed D B) : Program B (Processed D B) := do
  Incoming.releaseAll held
  reported r

/-- Runs the handlers of a message. -/
def Incoming.handle : Continuation D B :=
  Stage.dispatch .request fun m => return (m, .ok ())

namespace Job

open Incoming (handle)

theorem program_eq (job : Job D B) : job.program =
    job.incoming.coordinate job.settings job.locking job.onMiss .request
      (Stage.dispatch .request fun m => return (m, .ok ())) >>= reported := rfl

variable (job : Job D B) (bindings : List (Binding B)) (held : List String)

def takeLocks : Program B (Except SagaError (List String)) :=
  if job.locking then do
    let keys ← job.incoming.lockKeys job.settings.lockBuckets bindings
    Incoming.acquireAll job.incoming.token [] keys
  else return .ok []

def bind : Continuation D B :=
  Incoming.bindAll job.onMiss bindings

def write : Continuation D B :=
  Incoming.persist .request job.settings.maxConflictAttempts bindings

/-- Without a saga among its handlers, a message has nothing to bind and nothing to write. -/
theorem inTurn_unbound (m : Incoming D B) :
    Incoming.inTurn [job.bind [], handle, job.write []] m = handle m := by
  show (handle m >>= _) = _
  refine Eq.trans (congrArg (handle m >>= ·) (funext fun r => ?_)) (bind_done _)
  obtain ⟨m, answer⟩ := r
  cases answer <;> rfl

/-- The stages of a message. -/
theorem program_stages : job.program = (job.incoming.bindings >>= fun served =>
    match served with
    | .error e => reported (job.incoming, .error e)
    | .ok bindings => job.takeLocks bindings >>= fun taken =>
      match taken with
      | .error e => reported (job.incoming, .error e)
      | .ok held =>
        Incoming.inTurn [job.bind bindings, handle, job.write bindings] job.incoming >>=
          finish held) := by
  rw [program_eq, Incoming.coordinate, Program.bind_assoc]
  refine congrArg (job.incoming.bindings >>= ·) (funext fun served => ?_)
  rcases served with e | _ | ⟨first, rest⟩
  · rfl
  · have free : job.takeLocks [] = .done (.ok []) := by
      unfold takeLocks
      cases job.locking <;> rfl
    dsimp only
    rw [free, done_bind]
    dsimp only
    rw [inTurn_unbound]
    rfl
  · dsimp only
    unfold takeLocks
    cases job.locking with
    | false => rfl
    | true =>
      simp only [if_true, Program.bind_assoc]
      refine congrArg (_ >>= ·) (funext fun keys => congrArg (_ >>= ·) (funext fun taken => ?_))
      cases taken with
      | error e => rfl
      | ok held =>
        simp only [Program.bind_assoc]
        rfl

/-- The message has the rules of its sagas, and its locks. -/
def Prepared (past : List (Exchange B)) : Prop :=
  ∃ early late, job.incoming.bindings.Returns early (.ok bindings) ∧
    (job.takeLocks bindings).Returns late (.ok held) ∧ past = late ++ early

/-- Its instances are bound. -/
def Bound (m : Incoming D B) (past : List (Exchange B)) : Prop :=
  ∃ early late, job.Prepared bindings held early ∧
    (job.bind bindings job.incoming).Returns late (m, .ok ()) ∧ past = late ++ early

/-- Its handlers have succeeded. -/
def Handled (m : Incoming D B) (past : List (Exchange B)) : Prop :=
  ∃ m₀ early late, job.Bound bindings held m₀ early ∧
    (handle m₀).Returns late (m, .ok ()) ∧ past = late ++ early

variable {job bindings held} {early past : List (Exchange B)} {m : Incoming D B}

theorem Prepared.leaves (prepared : job.Prepared bindings held past) :
    Party.Reached job.program ⟨past, Incoming.inTurn
      [job.bind bindings, handle, job.write bindings] job.incoming >>= finish held⟩ := by
  obtain ⟨early, late, served, taken, rfl⟩ := prepared
  exact (served.leaves_of_eq job.program_stages).trans (taken.leaves _)

theorem Bound.leaves (bound : job.Bound bindings held m past) :
    Party.Reached job.program ⟨past,
      Incoming.inTurn [handle, job.write bindings] m >>= finish held⟩ := by
  obtain ⟨early, late, prepared, binds, rfl⟩ := bound
  have left := prepared.leaves
  rw [Incoming.inTurn_cons_bind] at left
  exact left.trans (binds.leaves _)

/-- Once the handlers have succeeded, the writes are left. -/
theorem Handled.leaves (handled : job.Handled bindings held m past) :
    Party.Reached job.program ⟨past, job.write bindings m >>= finish held⟩ := by
  obtain ⟨m₀, early, late, bound, handles, rfl⟩ := handled
  have left := bound.leaves
  rw [Incoming.inTurn_cons_bind] at left
  have left := left.trans (handles.leaves _)
  dsimp only at left
  rwa [Incoming.inTurn_single] at left

/-- The stages up to the binding of instances, run one after the other. -/
theorem bound_of_runs {τ : Type} {answer : Answering B τ} {w w₁ w₂ w₃ : τ}
    {rules locks binds : List (Exchange B)}
    (served : job.incoming.bindings.run (traced answer) (w, []) =
      (some (.ok bindings), w₁, rules))
    (taken : (job.takeLocks bindings).run (traced answer) (w₁, []) = (some (.ok held), w₂, locks))
    (bound : (job.bind bindings job.incoming).run (traced answer) (w₂, []) =
      (some (m, .ok ()), w₃, binds)) :
    job.Bound bindings held m (binds ++ (locks ++ rules)) :=
  ⟨_, _, ⟨_, _, returns_of_run served, returns_of_run taken, rfl⟩, returns_of_run bound, rfl⟩

/-- The stages up to the handlers, run one after the other. -/
theorem handled_of_runs {τ : Type} {answer : Answering B τ} {w w₁ w₂ w₃ w₄ : τ}
    {m₀ : Incoming D B} {rules locks binds handles : List (Exchange B)}
    (served : job.incoming.bindings.run (traced answer) (w, []) =
      (some (.ok bindings), w₁, rules))
    (taken : (job.takeLocks bindings).run (traced answer) (w₁, []) = (some (.ok held), w₂, locks))
    (bound : (job.bind bindings job.incoming).run (traced answer) (w₂, []) =
      (some (m₀, .ok ()), w₃, binds))
    (handled : (handle m₀).run (traced answer) (w₃, []) = (some (m, .ok ()), w₄, handles)) :
    job.Handled bindings held m (handles ++ (binds ++ (locks ++ rules))) :=
  ⟨m₀, _, _, bound_of_runs served taken bound, returns_of_run handled, rfl⟩

end Job

end Sagas
