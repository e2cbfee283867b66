import Sagas.Proofs.Ownership.Message
import Sagas.Proofs.RoundTrip.Creation
import Sagas.Store

/-!
# The same message once more

A message whose values find one instance, or none, and one of whose values finds it, loads that
instance. Up to there the message dies for no reason of its own. What comes after, in which
application code may do as it likes, creates and loads nothing.

Results:
1. `keeps_acquireAll`, `keeps_bindOne`: all locks are taken, and the instance is loaded.
2. `keeps_rest`: from then on no instance is created and none is loaded.
-/

namespace Sagas

structure Return where
  /-- The locks that are still to be taken, in order. -/
  keys : List String
  received : Receipts

variable {D B : Type}

/-- The contract of a message up to the binding of its instance, while this is stored. -/
def returning (s : Saga D B) (rules : RuleSet B) (token : CancelToken) (stored : Store) :
    Contract B Return where
  owes a
    | .find .. | .count _ | .note _ => True
    | .rules type => type = s.type
    | .acquire key other => a.keys.head? = some key ∧ other = token
    | _ => False
  expects _
    | .find dataType property value, reply => reply = .ok (stored.find dataType property value)
    | .rules _, reply => reply = .ok rules
    | .acquire .., reply => reply = .ok true
    | _, _ => True
  next a
    | .acquire .., _ => { a with keys := a.keys.tail }
    | request, reply => { a with received := a.received.next request reply }
  dies := False

/-- The message may find this instance, and no other: one of its values leads there. -/
structure Job.Finds (job : Job D B) (s : Saga D B) (chosen : List (Rule B)) (stored : Store)
    (d : Document) : Prop where
  only : ∀ p ∈ job.yields chosen,
    stored.find s.dataType.name p.name p.value = none ∨
      stored.find s.dataType.name p.name p.value = some d
  some : ∃ p ∈ job.yields chosen, stored.find s.dataType.name p.name p.value = some d
  reads : ∃ data, Invocation.read s d = .ok data

namespace RoundTrip

variable {s : Saga D B} {rules : RuleSet B} {token : CancelToken} {stored : Store} {a : Return}
  {job : Job D B} {chosen : List (Rule B)} {d : Document}

theorem returning_ignores_note (entry : Entry) :
    (returning s rules token stored).Ignores (.note entry) :=
  ⟨fun _ => trivial, fun _ _ => rfl⟩

theorem keeps_takeAll (held : List String) (a : Return) :
    (Incoming.acquireAll token held a.keys).Keeps (returning s rules token stored) a fun r b =>
      (∃ all, r = .ok all) ∧ b = { a with keys := [] } := by
  obtain ⟨keys, received⟩ := a
  induction keys generalizing held with
  | nil => exact ⟨⟨held, rfl⟩, rfl⟩
  | cons key rest ih =>
    refine Program.keeps_call_bind ⟨rfl, rfl⟩ fun reply expected => ?_
    obtain rfl : reply = .ok true := expected
    exact ih (key :: held)

theorem keeps_bindOne_again {onMiss : MissHandler D B} (starts : job.Starts s rules chosen)
    (finds : job.Finds s chosen stored d) :
    (Incoming.bindOne onMiss job.delivery.message job.delivery.context chosen
      (unbound s job)).Keeps (returning s rules token stored) ⟨[], .none⟩ fun r b =>
        r.2 = .ok () ∧ b.received.loaded = [d] := by
  have notes : ∀ entry, (returning s rules token stored).Ignores (.note entry) :=
    returning_ignores_note
  have typed : ∀ r ∈ chosen, r.dataType = s.dataType.name := fun r among =>
    (Correlator.declare_eq_ok starts.declared r
      (RuleSet.mem_of_forMessage starts.accepted among)).1
  have yielded : ∀ r ∈ chosen, ∀ value,
      r.value? job.delivery.context job.delivery.message = some value →
        ⟨r.property, value⟩ ∈ job.yields chosen :=
    fun r among value reads => Incoming.mem_yields.2 ⟨r, among, reads, rfl⟩
  refine (Incoming.keeps_lookUp notes (fun _ _ _ => rfl) (fun _ _ _ _ => trivial) []).bind ?_
  intro result b found
  rcases result with e | ⟨r, e⟩ | values
  · obtain ⟨r, -, value, -, expected, -⟩ := found
    exact nomatch expected
  · obtain ⟨among, value, reads, expected, rfl⟩ := found
    have found : stored.find r.dataType r.property value = some e := (Except.ok.inj expected).symm
    rw [typed r among] at found
    obtain rfl : e = d := by
      rcases finds.only _ (yielded r among value reads) with missed | same
      · exact nomatch missed.symm.trans found
      · exact Option.some.inj (found.symm.trans same)
    obtain ⟨data, reads⟩ := finds.reads
    refine (Invocation.keeps_load notes (unbound s job) e false _).bind ?_
    rintro ⟨j, answer⟩ b ⟨rfl, loads⟩
    have bind : (unbound s job).bind e false =
        .ok { unbound s job with bound := some (.ofData data false) } := by
      show (Invocation.read s e).map _ = _
      rw [reads]
      rfl
    rw [bind] at loads
    cases loads
    refine Program.keeps_call_bind trivial fun _ _ => ?_
    exact Program.keeps_ignored_bind (notes _) fun _ => ⟨rfl, rfl⟩
  · obtain ⟨-, -, missed⟩ := found
    obtain ⟨p, member, found⟩ := finds.some
    obtain ⟨r, among, reads, named⟩ := Incoming.mem_yields.1 member
    have missed := missed r among p.value reads
    rw [typed r among, named] at missed
    exact nomatch (Except.ok.inj missed).trans found

/-! ## Afterwards -/

/-- What creates no instance and loads none. -/
def settled : Request B → Prop
  | .freshId | .count .loaded => False
  | _ => True

abbrev settling : Contract B Unit := Program.asking settled

theorem settling_ignores : (settling : Contract B Unit).IgnoresSurroundings where
  send _ _ := ⟨trivial, fun _ _ => rfl⟩
  draw _ := ⟨fun _ => trivial, fun _ _ => rfl⟩
  note _ := ⟨fun _ => trivial, fun _ _ => rfl⟩
  shutdown := ⟨fun _ => trivial, fun _ _ => rfl⟩
  acquire _ _ := ⟨fun _ => trivial, fun _ _ => rfl⟩
  release _ := ⟨fun _ => trivial, fun _ _ => rfl⟩

theorem settling_ignores_count {counter : Counter} (other : counter ≠ .loaded) :
    (settling : Contract B Unit).Ignores (.count counter) where
  owes _ := by cases counter <;> trivial
  next _ _ := rfl

theorem permits_settling (s : Saga D B) (group : List (Rule B)) (mode : Commit.Mode) :
    Commit.Permits settling s group mode where
  toIgnoresActs := settling_ignores.toIgnoresActs
  dies := trivial
  count _ := settling_ignores_count
  find _ _ := trivial
  write mode' _ _ := by cases mode' <;> exact ⟨trivial, fun _ _ => trivial⟩

theorem keeps_commit_settling (maxAttempts : Nat) (group : List (Rule B)) (mode : Commit.Mode)
    (i : Invocation D B) :
    (Commit.persist .request maxAttempts group mode i).Keeps settling () fun _ _ => True := by
  cases handler : i.handler with
  | saga s =>
    have kept := (permits_settling s group mode).keeps_persist handler maxAttempts
    exact kept.imp fun _ _ _ => trivial
  | plain name run =>
    have unbound : i.instance? = none := by simp [Invocation.instance?, handler]
    rw [Commit.persist_of_unbound unbound]
    trivial

theorem keeps_writes_settling (maxAttempts : Nat) (bindings : List (Binding B))
    (m : Incoming D B) :
    (Incoming.persist .request maxAttempts bindings m).Keeps settling () fun _ _ => True := by
  refine Incoming.keeps_persist settling_ignores.note (settling_ignores_count nofun) ?_
  refine (Incoming.keeps_steps (fun _ _ => True) (fun step member m _ _ => ?_) trivial).imp
    fun _ _ _ => trivial
  obtain ⟨index, i, -, ⟨-, group, rfl⟩ | ⟨-, group, rfl⟩ | ⟨-, rfl⟩⟩ := Incoming.write_cases member
  · exact Incoming.keeps_onInvocation (fun _ => trivial) fun j _ =>
      (keeps_commit_settling maxAttempts group .insert j).imp fun _ _ _ _ => trivial
  · exact Incoming.keeps_onInvocation (fun _ => trivial) fun j _ =>
      (keeps_commit_settling maxAttempts group .update j).imp fun _ _ _ _ => trivial
  · refine Incoming.keeps_onInvocation (fun _ => trivial) fun j _ => ?_
    have deletes : (Commit.delete j).Keeps settling () fun _ _ => True :=
      Commit.keeps_deletion settling_ignores.note (settling_ignores_count nofun)
        (settling_ignores_count nofun) trivial fun _ _ => ⟨trivial, fun _ _ => trivial⟩
    exact deletes.bind fun _ _ _ _ => trivial

theorem keeps_handlers_settling (m : Incoming D B) :
    (Stage.dispatch .request (fun m => return (m, .ok ())) m).Keeps settling ()
      fun _ _ => True := by
  refine Stage.keeps_dispatch (fun _ _ => True) True settling_ignores.note (fun _ => trivial) ?_
    (fun _ _ _ _ => trivial) fun _ _ => trivial
  intro i _ _
  refine (Invocation.keeps_invoke (fun _ _ _ => True) trivial settling_ignores.toIgnoresActs
    fun _ _ _ _ => Act.ends_of_forall (fun _ => trivial) _).imp ?_
  exact fun _ _ left => ⟨left.1, trivial, fun _ _ => trivial⟩

/-- Handling and writing what was bound. -/
theorem keeps_rest (maxAttempts : Nat) (bindings : List (Binding B)) (m : Incoming D B) :
    (Incoming.inTurn [Stage.dispatch .request fun m => return (m, .ok ()),
      Incoming.persist .request maxAttempts bindings] m).Keeps settling () fun _ _ => True := by
  refine Incoming.keeps_inTurn_cons ((keeps_handlers_settling m).imp ?_)
  rintro ⟨m, answer⟩ _ -
  cases answer with
  | error e => trivial
  | ok => exact Incoming.keeps_inTurn_single (keeps_writes_settling maxAttempts bindings m)

end RoundTrip

end Sagas
