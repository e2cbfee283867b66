import Sagas.Proofs.Statistics.Phase

/-!
# Counting at once

A call of storage that is granted is counted before anything else happens: application code, which
may die, does not run in between. So a message that dies has counted all its calls.

Results:
1. `CountsAtOnce.bind`, `countsAtOnce_of_silent`: programs that count at once compose, and programs
   that write nothing do.
2. `countsAtOnce_rounds`, `countsAtOnce_delete`: so do commits and deletions.
3. `Job.counts_at_once`: so do messages.
4. `Party.Reached.counts`: what is yet to be counted is about to be.
-/

namespace Sagas

variable {D B α β : Type}

/-- The counter of the calls of a kind that are granted. -/
def Request.counter? : Request B → Option Counter
  | .insert .. => some .inserted
  | .update .. => some .updated
  | .delete _ => some .deleted
  | _ => none

/-- A call that is granted is counted before anything else happens. -/
def Program.CountsAtOnce : Program B α → Prop
  | .done _ | .panic => True
  | .ask request rest => ∀ reply, (rest reply).CountsAtOnce ∧
      ((⟨request, reply⟩ : Exchange B).takesEffect = true → ∃ counter left,
        request.counter? = some counter ∧ rest reply = .ask (.count counter) left)

/-- The contract of programs that call for no write. -/
abbrev silent : Contract B Unit :=
  Program.asking fun request => request.isWrite = false

theorem silent_preparing : (silent (B := B)).IgnoresPreparing where
  note _ := ⟨fun _ => rfl, fun _ _ => rfl⟩
  acquire _ _ := ⟨fun _ => rfl, fun _ _ => rfl⟩
  release _ := ⟨fun _ => rfl, fun _ _ => rfl⟩
  rules _ := ⟨fun _ => rfl, fun _ _ => rfl⟩
  find _ _ _ := ⟨fun _ => rfl, fun _ _ => rfl⟩
  freshId := ⟨fun _ => rfl, fun _ _ => rfl⟩
  loaded := ⟨fun _ => rfl, fun _ _ => rfl⟩
  created := ⟨fun _ => rfl, fun _ _ => rfl⟩
  missed := ⟨fun _ => rfl, fun _ _ => rfl⟩

theorem silent_acts : (silent (B := B)).IgnoresActs Send.request where
  send _ _ := ⟨rfl, fun _ _ => rfl⟩
  draw _ := ⟨fun _ => rfl, fun _ _ => rfl⟩
  note _ := ⟨fun _ => rfl, fun _ _ => rfl⟩
  shutdown := ⟨fun _ => rfl, fun _ _ => rfl⟩

namespace Program

theorem countsAtOnce_ask {request : Request B} {rest : Reply request → Program B α}
    (quiet : request.isWrite = false) (follows : ∀ reply, (rest reply).CountsAtOnce) :
    (ask request rest).CountsAtOnce := by
  refine fun reply => ⟨follows reply, fun takesEffect => ?_⟩
  have calls := Exchange.isWrite_of_takesEffect takesEffect
  exact nomatch quiet.symm.trans calls

theorem countsAtOnce_of_silent {p : Program B α} {post : α → Unit → Prop}
    (keeps : p.Keeps silent () post) : p.CountsAtOnce := by
  induction p with
  | done a => trivial
  | ask request rest ih =>
    exact countsAtOnce_ask keeps.1 fun reply => ih reply (keeps.2 reply trivial)
  | panic => trivial

theorem CountsAtOnce.bind {p : Program B α} {next : α → Program B β} (first : p.CountsAtOnce)
    (second : ∀ a, (next a).CountsAtOnce) : (p >>= next).CountsAtOnce := by
  induction p with
  | done a => exact second a
  | ask request rest ih =>
    refine fun reply => ⟨ih reply (first reply).1, fun takesEffect => ?_⟩
    obtain ⟨counter, left, isCounter, counts⟩ := (first reply).2 takesEffect
    refine ⟨counter, fun _ => left () >>= next, isCounter, ?_⟩
    show (rest reply).bind next = _
    rw [counts]
    rfl
  | panic => trivial

end Program

open Program

namespace Commit

variable {rules : List (Rule B)} {attempt : Nat} {mode : Mode} {i : Invocation D B}

theorem countsAtOnce_afterConflict {document : Document} {values : List PropertyValue}
    {reason : String} {again : Option (Invocation D B → Program B (Outcome D B))}
    (further : ∀ more ∈ again, ∀ j, (more j).CountsAtOnce) :
    (afterConflict .request attempt mode document values reason again i).CountsAtOnce := by
  refine countsAtOnce_ask rfl fun _ => countsAtOnce_ask rfl fun _ => ?_
  show (ite _ _ _ : Program B _).CountsAtOnce
  split
  next =>
    cases again with
    | none => exact countsAtOnce_ask rfl fun _ => trivial
    | some again =>
      have fetches := (asks_fetchFresh (B := B) document values mode).keeps
        (c := silent) (fun request finds => by
          obtain ⟨property, value, rfl⟩ := finds
          exact silent_preparing.find _ _ _) ()
      refine (countsAtOnce_of_silent fetches).bind fun found => ?_
      rcases found with e | _ | fresh
      · trivial
      · exact countsAtOnce_ask rfl fun _ => trivial
      · refine (countsAtOnce_of_silent
          (keeps_resolve_ignored silent_acts trivial i fresh ())).bind fun merged => ?_
        obtain ⟨merged, answer⟩ := merged
        cases answer with
        | error e => trivial
        | ok =>
          refine countsAtOnce_ask rfl fun _ => countsAtOnce_ask rfl fun _ => ?_
          exact further again rfl merged
  next => trivial

/-- What comes after the answer to a write, which is counted if it was made. -/
theorem countsAtOnce_answered {document : Document} {values : List PropertyValue}
    {again : Option (Invocation D B → Program B (Outcome D B))}
    (further : ∀ more ∈ again, ∀ j, (more j).CountsAtOnce)
    (reply : Except StorageError Document) :
    Program.CountsAtOnce (match reply with
      | .ok stored => do
        Program.count mode.counter
        return (i.adopt stored.metadata, .ok ())
      | .error (.conflict reason) =>
        afterConflict .request attempt mode document values reason again i
      | .error e => return (i, .error (.storage e)) : Program B (Outcome D B)) := by
  rcases reply with (reason | reason | e) | stored
  · exact countsAtOnce_afterConflict further
  · trivial
  · trivial
  · exact countsAtOnce_ask rfl fun _ => trivial

theorem countsAtOnce_round {again : Option (Invocation D B → Program B (Outcome D B))}
    (further : ∀ more ∈ again, ∀ j, (more j).CountsAtOnce) :
    (round .request rules attempt mode again i).CountsAtOnce := by
  unfold round
  split
  next document values _ _ =>
    cases mode with
    | insert =>
      refine fun reply => ⟨countsAtOnce_answered further reply, fun takesEffect => ?_⟩
      cases reply with
      | ok stored => exact ⟨_, _, rfl, rfl⟩
      | error e => cases takesEffect
    | update =>
      refine fun reply => ⟨countsAtOnce_answered further reply, fun takesEffect => ?_⟩
      cases reply with
      | ok stored => exact ⟨_, _, rfl, rfl⟩
      | error e => cases takesEffect
  next => trivial

theorem countsAtOnce_rounds (more : Nat) :
    (rounds .request rules more attempt mode i).CountsAtOnce := by
  induction more generalizing attempt mode i with
  | zero => exact countsAtOnce_round nofun
  | succ more ih =>
    refine countsAtOnce_round fun again same j => ?_
    exact Option.some.inj same ▸ ih

theorem countsAtOnce_delete (i : Invocation D B) : (delete i).CountsAtOnce := by
  unfold delete
  split
  next => trivial
  next document _ =>
    intro reply
    rcases reply with (reason | reason | e) | _
    · refine ⟨?_, nofun⟩
      exact countsAtOnce_ask rfl fun _ => countsAtOnce_ask rfl fun _ => trivial
    · exact ⟨trivial, nofun⟩
    · exact ⟨trivial, nofun⟩
    · exact ⟨countsAtOnce_ask rfl fun _ => trivial, fun _ => ⟨_, _, rfl, rfl⟩⟩

end Commit

namespace Incoming

theorem countsAtOnce_inTurn {steps : List (Continuation D B)}
    (each : ∀ step ∈ steps, ∀ m, (step m).CountsAtOnce) (m : Incoming D B) :
    (inTurn steps m).CountsAtOnce := by
  induction steps generalizing m with
  | nil => trivial
  | cons step rest ih =>
    obtain ⟨first, each⟩ := List.forall_mem_cons.1 each
    refine (first m).bind fun r => ?_
    obtain ⟨m, answer⟩ := r
    cases answer with
    | error e => trivial
    | ok => exact ih each m

theorem countsAtOnce_persist (maxAttempts : Nat) (bindings : List (Binding B))
    (m : Incoming D B) : (persist .request maxAttempts bindings m).CountsAtOnce := by
  have announces := Touched.keeps_announceAll (c := silent) silent_preparing.note
    ⟨fun _ => rfl, fun _ _ => rfl⟩ (Touched.groups m.invocations bindings) ()
  refine (countsAtOnce_of_silent announces).bind fun _ => ?_
  refine countsAtOnce_inTurn (fun step member m => ?_) m
  rw [WritePlan.writes_eq, WritePlan.tasks_eq, WritePlan.inOrder, List.map_map] at member
  obtain ⟨item, -, rfl⟩ := List.mem_map.1 member
  show (onInvocation _ _ m).CountsAtOnce
  unfold onInvocation
  split
  next => trivial
  next i _ =>
    refine CountsAtOnce.bind ?_ fun _ => trivial
    cases item with
    | write mode place rules => exact Commit.countsAtOnce_rounds _
    | delete place => exact (Commit.countsAtOnce_delete i).bind fun _ => trivial

end Incoming

theorem Job.counts_at_once (job : Job D B) : job.program.CountsAtOnce := by
  have finishes : ∀ held (r : Processed D B), (finish held r).CountsAtOnce := fun held r =>
    countsAtOnce_of_silent (keeps_finish silent_preparing.toIgnoresLocks held r ())
  rw [program_stages]
  refine (countsAtOnce_of_silent
    (Incoming.keeps_bindings_causes silent_preparing () job.onMiss _)).bind fun served => ?_
  cases served with
  | error e => exact finishes [] (job.incoming, .error e)
  | ok bindings =>
    refine (countsAtOnce_of_silent
      (Incoming.keeps_takeLocks_causes silent_preparing () job bindings)).bind fun taken => ?_
    cases taken with
    | error e => exact finishes [] (job.incoming, .error e)
    | ok held =>
      refine CountsAtOnce.bind ?_ fun r => finishes held r
      refine Incoming.countsAtOnce_inTurn (fun step member m => ?_) _
      simp only [List.mem_cons, List.not_mem_nil, or_false] at member
      rcases member with rfl | rfl | rfl
      · exact countsAtOnce_of_silent
          (Incoming.keeps_bindAll_causes silent_preparing () trivial _ _ m)
      · exact countsAtOnce_of_silent (Incoming.keeps_handle_ignored silent_acts trivial m ())
      · exact Incoming.countsAtOnce_persist _ _ m

/-- A phase in which a call is yet to be counted was entered by this call, or its count is yet to
come. -/
theorem CallPhase.next_granted {phase : CallPhase} {request : Request B} {reply : Reply request}
    {counter : Counter} (call : counter = .inserted ∨ counter = .updated ∨ counter = .deleted)
    (now : phase.next request reply = .granted counter) :
    ((⟨request, reply⟩ : Exchange B).takesEffect = true ∧ request.counter? = some counter) ∨
      phase = .granted counter ∧ request ≠ .count counter := by
  cases request with
  | insert | update | delete =>
    rcases reply with (_ | _ | _) | _
    · cases now
    · exact .inr ⟨now, nofun⟩
    · exact .inr ⟨now, nofun⟩
    · cases now
      exact .inl ⟨rfl, rfl⟩
  | count other =>
    cases other with
    | conflict =>
      simp only [next] at now
      split at now
      next => cases now
      next => exact .inr ⟨now, fun same => by cases same; simp at call⟩
    | inserted | updated | deleted | conflictResolved => cases now
    | _ => exact .inr ⟨now, fun same => by cases same; simp at call⟩
  | _ => exact .inr ⟨now, nofun⟩

/-- A message with a call that is yet to be counted is about to count it. -/
theorem Party.Reached.counts {p : Program B α} {party : Party B α} (reached : Reached p party)
    (counts : p.CountsAtOnce) : party.program.CountsAtOnce ∧ ∀ counter,
      counter = .inserted ∨ counter = .updated ∨ counter = .deleted →
        counting.after .settled party.past = .granted counter →
          ∃ left, party.program = .ask (.count counter) left := by
  induction reached with
  | start => exact ⟨counts, nofun⟩
  | @step past request rest reply _ ih =>
    obtain ⟨atOnce, pending⟩ := ih
    refine ⟨(atOnce reply).1, fun counter call now => ?_⟩
    rcases CallPhase.next_granted call now with ⟨takesEffect, isCounter⟩ | ⟨before, other⟩
    · obtain ⟨counter', left, isCounter', asks⟩ := (atOnce reply).2 takesEffect
      cases isCounter.symm.trans isCounter'
      exact ⟨left, asks⟩
    · obtain ⟨left, asks⟩ := pending counter call before
      cases asks
      exact absurd rfl other

end Sagas
