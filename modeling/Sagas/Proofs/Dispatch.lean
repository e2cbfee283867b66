import Sagas.Demo.Tally
import Sagas.Proofs.Binding
import Sagas.Proofs.Causes
import Sagas.Proofs.Data
import Sagas.Proofs.Muted
import Sagas.Proofs.Store.Instances

/-!
# One dispatch for every message

A saga of a message is bound in one way, and its handler runs once: conflicts that are met later do
not bring it back. A saga that is skipped takes no part in what follows. Its handler does not run,
and the writes of the message are those of the others.

Results:
1. `dispatched_of_returns`, `dispatching_of_reached`: what handlers come to, and where they are on
   the way.
2. `write_unskipped`: who is skipped is not written.
3. `Job.Bound.dispatches_once`: every message that is bound runs its handlers once.
4. `bound_and_dispatched_once`: every message, from its binding on.
-/

namespace Sagas

variable {D B : Type}

/-! ## Handlers in order -/

namespace Stage

open Program

variable {context : Context} {i j : Invocation D B} {rest ran invocations : List (Invocation D B)}
  {part past : List (Exchange B)} {parts : List (List (Exchange B))}
  {answer : Except SagaError Unit}

/-- What becomes of invocations in dispatch, with the exchanges of each: one that is skipped is
passed over, any other one is invoked once, and one that fails is the last. -/
inductive Dispatched (context : Context) : List (Invocation D B) → List (Invocation D B) →
    List (List (Exchange B)) → Except SagaError Unit → Prop
  | nil : Dispatched context [] [] [] (.ok ())
  | skips {i : Invocation D B} {rest ran : List (Invocation D B)}
      {parts : List (List (Exchange B))} {answer : Except SagaError Unit} :
      i.skipped = true → Dispatched context rest ran parts answer →
      Dispatched context (i :: rest) (i :: ran)
        ([⟨.note (.log (.handlerSkipped i.name)), ()⟩] :: parts) answer
  | runs {i j : Invocation D B} {rest ran : List (Invocation D B)} {part : List (Exchange B)}
      {parts : List (List (Exchange B))} {answer : Except SagaError Unit} :
      i.skipped = false → (i.invoke .request context).Returns part (j, .ok ()) →
      Dispatched context rest ran parts answer →
      Dispatched context (i :: rest) (j :: ran) (part :: parts) answer
  | fails {i j : Invocation D B} {rest : List (Invocation D B)} {part : List (Exchange B)}
      {cause : InvokeError} :
      i.skipped = false → (i.invoke .request context).Returns part (j, .error cause) →
      Dispatched context (i :: rest) (j :: rest) [part] (.error (.handler cause))

/-- Dispatch is on its way: the invocations before a place are done, and the one there is not. -/
def Dispatching (context : Context) (invocations : List (Invocation D B))
    (past : List (Exchange B)) : Prop :=
  ∃ place ran parts now, Dispatched context (invocations.take place) ran parts (.ok ()) ∧
    past = now ++ parts.reverse.flatten ∧ (now = [] ∨ ∃ i q, invocations[place]? = some i ∧
      i.skipped = false ∧ Party.Reached (i.invoke .request context) ⟨now, q⟩)

theorem returns_dispatchOne {r : Invocation D B × Except InvokeError Unit}
    (returns : (dispatchOne context i).Returns part r) :
    (i.skipped = true ∧ part = [⟨.note (.log (.handlerSkipped i.name)), ()⟩] ∧ r = (i, .ok ())) ∨
      i.skipped = false ∧ (i.invoke .request context).Returns part r := by
  unfold dispatchOne at returns
  split at returns
  next skipped =>
    obtain ⟨reply, later, ended, rfl⟩ := returns_ask.1 returns
    obtain ⟨rfl, rfl⟩ := returns_done.1 ended
    exact .inl ⟨skipped, rfl, rfl⟩
  next runs => exact .inr ⟨by simpa using runs, returns⟩

theorem Dispatched.cons (returns : (dispatchOne context i).Returns part (j, .ok ()))
    (dispatched : Dispatched context rest ran parts answer) :
    Dispatched context (i :: rest) (j :: ran) (part :: parts) answer := by
  rcases returns_dispatchOne returns with ⟨skipped, rfl, same⟩ | ⟨runs, invoked⟩
  · cases same
    exact .skips skipped dispatched
  · exact .runs runs invoked dispatched

theorem dispatched_of_returns
    (returns : (dispatchAll .request context invocations).Returns past (ran, answer)) :
    ∃ parts, Dispatched context invocations ran parts answer ∧ past = parts.reverse.flatten := by
  induction invocations generalizing past ran with
  | nil =>
    obtain ⟨rfl, same⟩ := returns_done.1 returns
    cases same
    exact ⟨[], .nil, rfl⟩
  | cons i rest ih =>
    rcases returns_dispatchAll_cons.1 returns with
      ⟨j, cause, fails, rfl, rfl⟩ | ⟨j, others, early, late, first, further, rfl, rfl⟩
    · rcases returns_dispatchOne fails with ⟨-, -, same⟩ | ⟨runs, invoked⟩
      · cases same
      · exact ⟨[past], .fails runs invoked, by simp⟩
    · obtain ⟨parts, dispatched, rfl⟩ := ih further
      exact ⟨early :: parts, dispatched.cons first, by simp⟩

theorem Dispatching.cons (returns : (dispatchOne context i).Returns part (j, .ok ()))
    (dispatching : Dispatching context rest past) :
    Dispatching context (i :: rest) (past ++ part) := by
  obtain ⟨place, ran, parts, now, before, rfl, here⟩ := dispatching
  exact ⟨place + 1, j :: ran, part :: parts, now, before.cons returns, by simp, here⟩

/-- Before anything else, the first invocation is passed over or is being invoked. -/
theorem dispatching_first {q : Program B (Invocation D B × Except InvokeError Unit)}
    (reached : Party.Reached (dispatchOne context i) ⟨past, q⟩) :
    Dispatching context (i :: rest) past := by
  unfold dispatchOne at reached
  split at reached
  next skipped =>
    rcases reached.of_ask with first | ⟨reply, later, ended, same⟩
    · cases first
      exact ⟨0, [], [], [], .nil, rfl, .inl rfl⟩
    · cases ended.of_done
      exact ⟨1, [i], [_], [], .skips skipped .nil, same, .inl rfl⟩
  next runs =>
    exact ⟨0, [], [], past, .nil, by simp, .inr ⟨i, q, rfl, by simpa using runs, reached⟩⟩

theorem dispatching_of_reached
    {party : Party B (List (Invocation D B) × Except SagaError Unit)}
    (reached : Party.Reached (dispatchAll .request context invocations) party) :
    Dispatching context invocations party.past := by
  induction invocations generalizing party with
  | nil =>
    cases reached.of_done
    exact ⟨0, [], [], [], .nil, rfl, .inl rfl⟩
  | cons i rest ih =>
    rw [dispatchAll_cons] at reached
    rcases reached_bind reached with ⟨q, first, -⟩ | ⟨⟨j, done⟩, early, late, first, further, same⟩
    · exact dispatching_first first
    · rw [same]
      cases done with
      | error cause =>
        obtain rfl : late = [] := congrArg Party.past further.of_done
        exact dispatching_first first.reached
      | ok =>
        rcases reached_bind further with ⟨q, others, -⟩ |
          ⟨others, middle, last, returns, ended, same⟩
        · exact (ih others).cons first
        · obtain rfl : last = [] := congrArg Party.past ended.of_done
          obtain rfl : late = middle := same
          exact (ih returns.reached).cons first

/-- Whether an invocation is skipped does not change in dispatch. -/
theorem Dispatched.skipped (dispatched : Dispatched context invocations ran parts answer) :
    ran.map (·.skipped) = invocations.map (·.skipped) := by
  have stays : ∀ {i j : Invocation D B} {part : List (Exchange B)} {answer},
      (i.invoke .request context).Returns part (j, answer) → j.skipped = i.skipped := by
    intro i j part answer returns
    exact returns.anyhow ((Invocation.keeps_invoke (fun _ _ _ => True) trivial anything_acts
      fun _ _ _ _ => Act.ends_of_forall (fun _ => trivial) _).imp fun _ _ ended => ended.2.skipped)
  induction dispatched with
  | nil => rfl
  | skips _ _ ih => rw [List.map_cons, List.map_cons, ih]
  | runs _ returns _ ih => rw [List.map_cons, List.map_cons, ih, stays returns]
  | fails _ returns => rw [List.map_cons, List.map_cons, stays returns]

end Stage

/-! ## What is skipped is not written -/

/-- The saga of a binding is not skipped. -/
def Incoming.takesPart (m : Incoming D B) (b : Binding B) : Bool :=
  (m.invocations.map (·.skipped))[b.index]? = some false

theorem Touched.holders_unskipped (m : Incoming D B) (bindings : List (Binding B)) :
    holders m.invocations (bindings.filter m.takesPart) = holders m.invocations bindings := by
  induction bindings with
  | nil => rfl
  | cons b rest ih =>
    rw [List.filter_cons]
    cases place : m.invocations[b.index]? with
    | none => simp [Incoming.takesPart, place, holders, ih]
    | some i => cases skipped : i.skipped <;> simp [Incoming.takesPart, place, holders, skipped, ih]

/-- The writes of a message are those of the sagas that are not skipped. -/
theorem Job.write_unskipped (job : Job D B) (bindings : List (Binding B)) (m : Incoming D B) :
    job.write (bindings.filter m.takesPart) m = job.write bindings m := by
  have groups : Touched.groups m.invocations (bindings.filter m.takesPart) =
      Touched.groups m.invocations bindings := by
    rw [Touched.groups_eq, Touched.groups_eq, Touched.holders_unskipped]
  unfold Job.write Incoming.persist
  rw [groups]

/-! ## Messages that are bound -/

/-- What every message does that is bound. -/
structure Job.DispatchesOnce (job : Job D B) (bindings : List (Binding B)) (held : List String)
    (m : Incoming D B) (past : List (Exchange B)) : Prop where
  /-- At every moment its handlers are on their way, or they are done and the rest of the message
  is on its way. -/
  moments : ∀ party, Party.Reached job.program party → past <:+ party.past →
    (∃ now, Stage.Dispatching m.context m.invocations now ∧ party.past = now ++ past) ∨
      ∃ ran parts answer late, Stage.Dispatched m.context m.invocations ran parts answer ∧
        Party.Reached (job.left bindings held { m with invocations := ran } answer)
          ⟨late, party.program⟩ ∧
        party.past = late ++ (parts.reverse.flatten ++ past)
  /-- A message that has ended has run them all, up to the first that fails, and the rest. -/
  ends : ∀ whole r, job.program.Returns whole r → past <:+ whole →
    ∃ ran parts answer late, Stage.Dispatched m.context m.invocations ran parts answer ∧
      (job.left bindings held { m with invocations := ran } answer).Returns late r ∧
      whole = late ++ (parts.reverse.flatten ++ past)
  /-- The rest runs no handler: it is the same if none can run. -/
  quiet : ∀ ran answer,
    job.left bindings held (Incoming.mute { m with invocations := ran }) answer =
      Prod.map Incoming.mute id <$> job.left bindings held { m with invocations := ran } answer
  /-- Nothing is written for those that are skipped: the writes are those without their bindings,
  and none is planned for them. -/
  writes : ∀ ran parts, Stage.Dispatched m.context m.invocations ran parts (.ok ()) →
    job.write bindings { m with invocations := ran } =
        job.write (bindings.filter m.takesPart) { m with invocations := ran } ∧
      ∀ item ∈ (Incoming.plan { m with invocations := ran } bindings).items,
        (m.invocations.map (·.skipped))[item.place]? = some false

namespace Job.Bound

variable {job : Job D B} {bindings : List (Binding B)} {held : List String} {m : Incoming D B}
  {past : List (Exchange B)}

/-- Once a message is bound, its handlers are left, and then the rest. -/
theorem leaves_dispatch (bound : job.Bound bindings held m past) :
    Party.Reached job.program ⟨past, Stage.dispatchAll .request m.context m.invocations >>=
      fun r => job.left bindings held { m with invocations := r.1 } r.2⟩ := by
  have left := bound.leaves
  rw [Incoming.inTurn_cons_bind] at left
  unfold Incoming.handle Stage.dispatch at left
  rw [Program.bind_assoc] at left
  convert left using 4 with r
  obtain ⟨ran, answer⟩ := r
  cases answer with
  | error e => rfl
  | ok =>
    show _ = Incoming.inTurn [job.write bindings] _ >>= finish held
    rw [Incoming.inTurn_single]
    rfl

theorem dispatches_once (bound : job.Bound bindings held m past) :
    job.DispatchesOnce bindings held m past where
  moments party reached suffix := by
    obtain ⟨late, further, same⟩ := reached.later bound.leaves_dispatch suffix
    rcases Program.reached_bind further with
      ⟨q, handling, -⟩ | ⟨⟨ran, answer⟩, early, late, returns, rest, rfl⟩
    · exact .inl ⟨late, Stage.dispatching_of_reached handling, same⟩
    · obtain ⟨parts, dispatched, rfl⟩ := Stage.dispatched_of_returns returns
      exact .inr ⟨ran, parts, answer, late, dispatched, rest, by rw [same, List.append_assoc]⟩
  ends whole r returns suffix := by
    obtain ⟨late, further, rfl⟩ := returns.rest bound.leaves_dispatch suffix
    obtain ⟨⟨ran, answer⟩, early, late, handled, rest, rfl⟩ := Program.returns_bind.1 further
    obtain ⟨parts, dispatched, rfl⟩ := Stage.dispatched_of_returns handled
    exact ⟨ran, parts, answer, late, dispatched, rest, List.append_assoc ..⟩
  quiet ran answer := job.left_mute bindings held _ answer
  writes ran parts dispatched := by
    have same : m.takesPart = Incoming.takesPart { m with invocations := ran } := by
      funext b
      unfold Incoming.takesPart
      rw [dispatched.skipped]
    rw [same, job.write_unskipped]
    refine ⟨rfl, fun item planned => ?_⟩
    obtain ⟨i, here, runs, -⟩ := planned_holds planned
    have here : ran[item.place]? = some i := here
    rw [← dispatched.skipped, List.getElem?_map, here, Option.map_some, runs]

end Job.Bound

/-- A message has got the rules of its sagas, all of them and in their order. Over any store whose
documents can be read, it then binds each saga in exactly one way: by the document of the earliest
rule that finds one; else, if the message may start an instance, by a new one at the initial
revision; and else as the error handler says, which may fail the message. One that logs and skips
them skips nobody else, and nothing fails. Every message that is bound, whatever it is answered,
runs each handler that is not skipped once, in their order and up to the first that fails. The
writes that follow, with all their retries, run no handler, and none is for a saga that is
skipped. -/
theorem bound_and_dispatched_once {job : Job D B} {bindings : List (Binding B)}
    {held : List String} {early : List (Exchange B)}
    (prepared : job.Prepared bindings held early) :
    job.incoming.Served early bindings ∧
      (∀ s, job.Reads bindings s → ∀ {τ : Type} (answer : Program.Answering B τ) (w : τ),
        s.AnswersLookups answer → ∃ r v late,
          (job.bind bindings job.incoming).run (Program.traced answer) (w, []) =
            (some r, v, late) ∧ job.BoundOver bindings s (countsOf late) r) ∧
      ∀ m past, job.Bound bindings held m past → job.DispatchesOnce bindings held m past :=
  ⟨(prepared.served (List.Subset.refl early)).1,
    fun _ reads _ _ w looks => prepared.binds reads looks w,
    fun _ _ bound => bound.dispatches_once⟩

/-! ## A posting with three sagas and a plain handler -/

section Tally

open Demo

/-- Adds what is posted to the total of the year. -/
def yearly : Saga Tally Posting :=
  { Tally.saga true with
    name := "saga.yearly"
    rules := [.body "demo.post" "Name" .string
      fun posting => some (.string (posting.name ++ ".year"))] }

/-- Corrects a tally that has been closed, but does not open one. -/
def correcting : Saga Tally Posting :=
  { Tally.saga true with
    name := "saga.correcting"
    initiators := []
    rules := [.body "demo.post" "Name" .string
      fun posting => some (.string (posting.name ++ ".closed"))] }

def posted : Job Tally Posting :=
  ⟨.default, false, .logAndSkip, ((((Registry.empty.add "demo.post" (.saga (Tally.saga true))).add
    "demo.post" (.saga yearly)).add "demo.post" (.saga correcting)).add
    "demo.post" (.plain "notice" fun _ _ => .done (.ok ()))), Tally.post "rent" 5, false⟩

/-- A tally of ten is stored. -/
def postedOver : Store :=
  (Store.empty.insert (Tally.dataType.toDocument ⟨⟨Tally.number 1, .initial⟩, "rent", 10⟩)
    [⟨"Name", .string "rent"⟩]).2

def postedAnswer : Program.Answering Posting Unit := fun request _ =>
  ((postedOver.serve (obliging (Tally.number 2)) request).1, ())

theorem posted_decodes : ∀ saga ∈ posted.sagas, saga.Decodes postedOver := by
  intro saga member id row present
  have typed : saga.dataType = Tally.dataType := by
    have member : saga ∈ [Tally.saga true, yearly, correcting] := member
    simp only [List.mem_cons, List.not_mem_nil, or_false] at member
    rcases member with rfl | rfl | rfl <;> rfl
  have reachable : postedOver.Reachable := .insert _ _ .empty
  have kept := reachable.consistent
  have stored : row.document ∈ postedOver.instances := by
    refine (Store.mem_instances reachable).2 ⟨row, ?_, rfl⟩
    rw [kept.dataType present, kept.id present, present]
  have only : postedOver.instances =
      [Tally.dataType.toDocument ⟨⟨Tally.number 1, .initial⟩, "rent", 10⟩] := rfl
  rw [only, List.mem_singleton] at stored
  rw [typed, stored]
  rfl

/-- Whoever asks gets the rules that the saga declares. -/
theorem declared_of_posted {α : Type} {p : Program Posting α} {saga : SagaType Posting}
    {answered : RuleSet Posting} (member : ⟨.rules saga, .ok answered⟩ ∈
      (p.run (Program.traced postedAnswer) ((), [])).2.2) : saga.declaration = .ok answered := by
  obtain ⟨u, same⟩ := Program.reply_of_trace postedAnswer member
  exact same.symm

theorem tally_keepsRevision : Tally.dataType.KeepsRevision := by
  intro path a known d x
  obtain ⟨-, rfl⟩ | ⟨-, rfl⟩ := Tally.path_cases known <;> rfl

/-- The first saga has its tally loaded, the second one starts one, and the third one is skipped. -/
theorem posted_once : ∃ bindings r late past inst,
    (posted.bind bindings posted.incoming).run (Program.traced postedAnswer) ((), []) =
      (some r, (), late) ∧
    countsOf late = [.loaded, .created, .correlationMiss] ∧
    posted.BoundOver bindings postedOver (countsOf late) r ∧
    r.1.invocations.map (·.skipped) = [false, false, true, false] ∧
    (r.1.invocations.map (·.bound))[1]? = some (some inst) ∧
    Tally.dataType.revision inst.data = .initial ∧
    posted.DispatchesOnce bindings [] r.1 past := by
  obtain ⟨bindings, rules, r, late, j, inst, serves, binds, counts, succeeds, skipped, second,
      isYearly, isBound, isNew⟩ : ∃ bindings rules r late j inst,
        posted.incoming.bindings.run (Program.traced postedAnswer) ((), []) =
          (some (.ok bindings), (), rules) ∧
        (posted.bind bindings posted.incoming).run (Program.traced postedAnswer) ((), []) =
          (some r, (), late) ∧
        countsOf late = [.loaded, .created, .correlationMiss] ∧ r.2 = .ok () ∧
        r.1.invocations.map (·.skipped) = [false, false, true, false] ∧
        r.1.invocations[1]? = some j ∧ j.handler = .saga yearly ∧ j.bound = some inst ∧
        inst.isNew = true :=
    ⟨_, _, _, _, _, _, rfl, rfl, rfl, rfl, rfl, rfl, rfl, rfl, rfl⟩
  have taken : (posted.takeLocks bindings).run (Program.traced postedAnswer) ((), []) =
      (some (.ok []), (), []) := rfl
  have prepared : posted.Prepared bindings [] ([] ++ rules) :=
    ⟨rules, [], Program.returns_of_run serves, Program.returns_of_run taken, rfl⟩
  have declared : ∀ saga answered, ⟨.rules saga, .ok answered⟩ ∈ [] ++ rules →
      saga.declaration = .ok answered := by
    intro saga answered member
    refine declared_of_posted (p := posted.incoming.bindings) ?_
    rw [serves]
    exact member
  have kept : postedOver.Consistent := Store.consistent_empty.insert _ _
  have reads := prepared.reads kept declared posted_decodes
  obtain ⟨-, binding, dispatches⟩ := bound_and_dispatched_once prepared
  obtain ⟨r', v, late', ran, boundOver⟩ :=
    binding postedOver reads postedAnswer () fun _ _ _ _ => rfl
  cases binds.symm.trans ran
  have initial := boundOver.initial j (List.mem_of_getElem? second) yearly inst isYearly isBound
    isNew tally_keepsRevision
  obtain ⟨m, answer⟩ := r
  obtain rfl : answer = .ok () := succeeds
  have bound : (m.invocations.map (·.bound))[1]? = some (some inst) := by
    rw [List.getElem?_map, second, Option.map_some, isBound]
  exact ⟨bindings, (m, .ok ()), late, _, inst, binds, counts, boundOver, skipped, bound, initial,
    dispatches m _ (Job.bound_of_runs serves taken binds)⟩

end Tally

end Sagas
