import Sagas.Proofs.Committing
import Sagas.Proofs.Lock.Owner
import Sagas.Proofs.Plan

/-!
# The keys of a message

A message gives back the key that it took last, and none that it does not hold, on every way through
its stages. This is a contract (`keyring`), kept on top of any keys that are held already, such as
those of a message whose handler has sent this one. A message whose application code sends nothing
and cannot die does more: it takes its keys in increasing order.

Results:
1. `keeps_runBound_leaves`: what is between taking keys and giving them back leaves a contract of
   locks where it is.
2. `keeps_acquireAll_keyring`, `keeps_releaseAll_keyring`: taking keys, and giving them back.
3. `Job.keeps_keyring`: a whole message.
-/

namespace Sagas

variable {D B α σ : Type}

/-! ## Application code -/

namespace Act

/-- The action sends no message and cannot die. -/
def Quiet : Act B α → Prop
  | .done _ => True
  | .send .. => False
  | .draw _ rest => ∀ n, (rest n).Quiet
  | .note _ rest => rest.Quiet
  | .shutdown rest => rest.Quiet
  | .panic => False

end Act

/-- The contract says nothing of what binding an instance asks for, but for looking it up. -/
structure Contract.IgnoresBinding (c : Contract B σ) : Prop where
  freshId : c.Ignores .freshId
  count : ∀ counter, c.Ignores (.count counter)
  note : ∀ entry, c.Ignores (.note entry)

/-- The contract is about nothing but locks, sending and dying. -/
structure Contract.AboutLocks (c : Contract B σ) : Prop extends c.IgnoresBinding where
  find : ∀ dataType property value, c.Ignores (.find dataType property value)
  insert : ∀ document values, c.Ignores (.insert document values)
  update : ∀ document values, c.Ignores (.update document values)
  delete : ∀ document, c.Ignores (.delete document)
  rules : ∀ saga, c.Ignores (.rules saga)
  draw : ∀ sequence, c.Ignores (.draw sequence)
  shutdown : c.Ignores .shutdown

theorem Program.keeps_ignored {c : Contract B σ} {request : Request B} {s : σ}
    {post : Reply request → σ → Prop} (ignored : c.Ignores request)
    (ends : ∀ reply, post reply s) : (call request).Keeps c s post :=
  ⟨ignored.owes s, fun reply _ => (ignored.next s reply).symm ▸ ends reply⟩

theorem Act.Quiet.keeps {c : Contract B σ} {act : Act B α} (quiet : act.Quiet)
    (about : c.AboutLocks) (send : Send B) (s : σ) :
    (act.program send).Keeps c s fun _ t => t = s := by
  induction act with
  | done a => rfl
  | send delivery rest ih => exact quiet.elim
  | draw sequence rest ih =>
    exact Program.keeps_ignored_bind (about.draw sequence) fun n => ih n (quiet n)
  | note entry rest ih => exact Program.keeps_ignored_bind (about.note entry) fun _ => ih quiet
  | shutdown rest ih => exact Program.keeps_ignored_bind about.shutdown fun _ => ih quiet
  | panic => exact quiet.elim

namespace Invocation

/-- Whatever application code an invocation runs leaves a contract where it is. -/
structure Leaves (c : Contract B σ) (context : Context) (i : Invocation D B) : Prop where
  plain : ∀ name run, i.handler = .plain name run → ∀ s,
    ((run i.message context).program .request).Keeps c s fun _ t => t = s
  handle : ∀ saga, i.handler = .saga saga → ∀ inst s,
    ((saga.handle i.message context inst).program .request).Keeps c s fun _ t => t = s
  resolve : ∀ saga, i.handler = .saga saga → ∀ own stored s,
    ((saga.resolve i.message own stored).program .request).Keeps c s fun _ t => t = s

/-- The application code of an invocation sends no message and cannot die. -/
structure Quiet (context : Context) (i : Invocation D B) : Prop where
  plain : ∀ name run, i.handler = .plain name run → (run i.message context).Quiet
  handle : ∀ saga, i.handler = .saga saga → ∀ inst, (saga.handle i.message context inst).Quiet
  resolve : ∀ saga, i.handler = .saga saga → ∀ own stored,
    (saga.resolve i.message own stored).Quiet

theorem Quiet.leaves {c : Contract B σ} {context : Context} {i : Invocation D B}
    (quiet : i.Quiet context) (about : c.AboutLocks) : i.Leaves c context where
  plain name run isPlain := (quiet.plain name run isPlain).keeps about .request
  handle saga isSaga inst := (quiet.handle saga isSaga inst).keeps about .request
  resolve saga isSaga own stored := (quiet.resolve saga isSaga own stored).keeps about .request

/-- A contract that does not mind what actions come to is left where it is by any application
code. -/
theorem leaves_of_acts {c : Contract B σ} (dies : c.dies) (ignores : c.IgnoresActs Send.request)
    (context : Context) (i : Invocation D B) : i.Leaves c context := by
  have any : ∀ {β : Type} (act : Act B β) (s : σ),
      (act.program .request).Keeps c s fun _ t => t = s := fun act s =>
    ((Act.ends_of_forall (fun _ => trivial) act).keeps (.inl dies) ignores s).imp
      fun _ _ ended => ended.2
  exact ⟨fun _ _ _ => any _, fun _ _ _ => any _, fun _ _ _ _ => any _⟩

/-- The same handler for the same message. -/
structure Same (i j : Invocation D B) : Prop where
  handler : j.handler = i.handler
  message : j.message = i.message

theorem Same.refl (i : Invocation D B) : i.Same i := ⟨rfl, rfl⟩

theorem Same.trans {i j k : Invocation D B} (first : i.Same j) (second : j.Same k) : i.Same k :=
  ⟨second.handler.trans first.handler, second.message.trans first.message⟩

theorem Same.symm {i j : Invocation D B} (same : i.Same j) : j.Same i :=
  ⟨same.handler.symm, same.message.symm⟩

theorem same_adopt (i : Invocation D B) (metadata : Metadata) : i.Same (i.adopt metadata) := by
  unfold adopt
  split
  next => exact ⟨rfl, rfl⟩
  next => exact .refl i

theorem Same.leaves {c : Contract B σ} {context : Context} {i j : Invocation D B}
    (same : i.Same j) (leaves : i.Leaves c context) : j.Leaves c context := by
  obtain ⟨plain, handle, resolve⟩ := leaves
  rw [← same.handler, ← same.message] at plain handle resolve
  exact ⟨plain, handle, resolve⟩

end Invocation

/-! ## What is between -/

section Between

variable {c : Contract B σ} {context : Context} {i : Invocation D B} {s : σ}

namespace Invocation

theorem keeps_invoke_leaves (leaves : i.Leaves c context) (s : σ) :
    (i.invoke .request context).Keeps c s fun r t => t = s ∧ i.Same r.1 := by
  unfold invoke
  split
  next => exact ⟨rfl, .refl i⟩
  next =>
    split
    next name run isPlain =>
      exact (leaves.plain name run isPlain s).bind fun _ _ same => ⟨same, .refl i⟩
    next saga isSaga =>
      split
      next => exact ⟨rfl, .refl i⟩
      next inst _ =>
        refine (leaves.handle saga isSaga inst s).bind fun verdict t same => ?_
        exact ⟨same, isSaga.symm ▸ rfl, rfl⟩

theorem keeps_resolve_leaves (notes : ∀ entry, c.Ignores (.note entry))
    (leaves : i.Leaves c context) (fresh : Document) (s : σ) :
    (i.resolve .request fresh).Keeps c s fun r t => t = s ∧ i.Same r.1 := by
  refine keeps_resolve_of_merge notes ?_
  unfold merge
  split
  next => exact ⟨rfl, .refl i⟩
  next saga isSaga =>
    split
    next => exact ⟨rfl, .refl i⟩
    next stored _ =>
      split
      next => exact ⟨rfl, .refl i⟩
      next inst _ =>
        refine (leaves.resolve saga isSaga inst.data stored s).bind ?_
        rintro ⟨data, outcome⟩ t same
        cases outcome with
        | ok =>
          let merged : Invocation D B := { i with bound := some { inst with data } }
          have resolved : i.Same merged := ⟨rfl, rfl⟩
          have adopted := merged.same_adopt fresh.metadata
          exact ⟨same, resolved.trans adopted⟩
        | error reason => exact ⟨same, isSaga.symm ▸ rfl, rfl⟩

theorem keeps_create_leaves (about : c.IgnoresBinding) (values : List PropertyValue) (s : σ) :
    (i.create values).Keeps c s fun r t => t = s ∧ i.Same r.1 := by
  cases handler : i.handler with
  | plain name run =>
    unfold create
    rw [handler]
    exact ⟨rfl, .refl i⟩
  | saga saga =>
    refine keeps_create about.note handler (about.freshId.owes s) fun fresh _ => ?_
    exact ⟨about.freshId.next s fresh, rfl, rfl⟩

end Invocation

namespace Incoming

open Invocation (Same)

variable {onMiss : MissHandler D B} {message : Message B} {rules : List (Rule B)}

theorem keeps_bindFound_leaves (about : c.IgnoresBinding) (r : Rule B) (document : Document)
    (s : σ) : (bindFound r document i).Keeps c s fun j t => t = s ∧ i.Same j.1 := by
  refine (Invocation.keeps_load about.note i document false s).bind ?_
  rintro ⟨j, answer⟩ t ⟨rfl, loads⟩
  cases bind : i.bind document false with
  | error e =>
    rw [bind] at loads
    cases loads
    exact ⟨rfl, .refl i⟩
  | ok bound =>
    rw [bind] at loads
    cases loads
    obtain ⟨saga, data, isSaga, -, rfl⟩ := Invocation.bind_eq_ok bind
    refine Program.keeps_ignored_bind (about.count _) fun _ => ?_
    exact Program.keeps_ignored_bind (about.note _) fun _ => ⟨rfl, rfl, rfl⟩

theorem keeps_bindNew_leaves (about : c.IgnoresBinding) (values : List PropertyValue) (s : σ) :
    (bindNew message values i).Keeps c s fun j t => t = s ∧ i.Same j.1 := by
  refine (Invocation.keeps_create_leaves about values s).bind ?_
  rintro ⟨j, answer⟩ t ⟨rfl, same⟩
  cases answer with
  | error e => exact ⟨rfl, same⟩
  | ok id =>
    refine Program.keeps_ignored_bind (about.count _) fun _ => ?_
    exact Program.keeps_ignored_bind (about.note _) fun _ => ⟨rfl, same⟩

theorem keeps_bindNone_leaves (about : c.IgnoresBinding) (s : σ) :
    (bindNone onMiss message rules i).Keeps c s fun j t => t = s ∧ i.Same j.1 := by
  have missed := about.count .correlationMiss
  exact keeps_bindNone about.note (missed.owes s) (missed.next s ()) (fun _ => ⟨rfl, rfl, rfl⟩)
    (fun values _ => Invocation.keeps_create_leaves about values s) (fun _ => ⟨rfl, .refl i⟩)
    fun _ _ => ⟨rfl, .refl i⟩

/-- Looking a value up leaves the contract where it is, and nothing else is looked up. -/
theorem keeps_bindOne_leaves (about : c.IgnoresBinding)
    (next : ∀ dataType property value reply, c.next s (.find dataType property value) reply = s)
    (owes : ∀ r ∈ rules, ∀ value, r.value? context message = some value →
      c.owes s (.find r.dataType r.property value)) :
    (bindOne onMiss message context rules i).Keeps c s fun j t => t = s ∧ i.Same j.1 := by
  refine (keeps_lookUp about.note (fun _ _ _ => next _ _ _ _) owes []).bind ?_
  intro result t looked
  rcases result with e | ⟨r, d⟩ | values
  · obtain ⟨r, -, value, -, -, rfl⟩ := looked
    exact ⟨next _ _ _ _, .refl i⟩
  · obtain ⟨-, value, -, -, rfl⟩ := looked
    rw [next]
    exact keeps_bindFound_leaves about r d s
  · obtain ⟨rfl, -, -⟩ := looked
    show (ite _ _ _ : Program B _).Keeps _ _ _
    split
    next => exact keeps_bindNew_leaves about values t
    next => exact keeps_bindNone_leaves about t

end Incoming

namespace Commit

open Invocation (Same)

variable {mode : Mode} {attempt : Nat} {rules : List (Rule B)}

theorem keeps_write_leaves (about : c.AboutLocks) (mode : Mode) (document : Document)
    (values : List PropertyValue) (s : σ) :
    (write mode document values).Keeps c s fun _ t => t = s := by
  cases mode with
  | insert =>
    exact Program.keeps_ignored (about.insert document values) fun _ => rfl
  | update =>
    exact Program.keeps_ignored (about.update document values) fun _ => rfl

theorem keeps_resolveConflict_leaves {document : Document} {values : List PropertyValue}
    {again : Invocation D B → Program B (Outcome D B)} (about : c.AboutLocks)
    (leaves : i.Leaves c context)
    (further : ∀ j, i.Same j → (again j).Keeps c s fun r t => t = s ∧ i.Same r.1) :
    (resolveConflict .request attempt mode document values again i).Keeps c s
      fun r t => t = s ∧ i.Same r.1 := by
  have ignored : ∀ request : Request B, (∃ property value,
      request = .find document.dataType property value) → c.Ignores request := by
    rintro request ⟨property, value, rfl⟩
    exact about.find _ _ _
  refine keeps_resolveConflict about.note
    (((asks_fetchFresh document values mode).keeps ignored s).imp fun result t same => ?_)
  subst same
  rcases result with e | _ | fresh
  · exact ⟨rfl, .refl i⟩
  · exact ⟨rfl, .refl i⟩
  · refine (Invocation.keeps_resolve_leaves about.note leaves fresh t).imp ?_
    rintro ⟨j, answer⟩ u ⟨rfl, same⟩
    cases answer with
    | error e => exact ⟨rfl, same⟩
    | ok =>
      exact Program.keeps_ignored (about.count _) fun _ => further j same

theorem keeps_round_leaves {again : Option (Invocation D B → Program B (Outcome D B))}
    (about : c.AboutLocks) (leaves : i.Leaves c context)
    (further : ∀ more ∈ again, ∀ j, i.Same j →
      (more j).Keeps c s fun r t => t = s ∧ i.Same r.1) :
    (round .request rules attempt mode again i).Keeps c s fun r t => t = s ∧ i.Same r.1 := by
  cases held : i.instance? with
  | none =>
    rw [round_of_unbound held]
    exact ⟨rfl, .refl i⟩
  | some pair =>
    obtain ⟨isSaga, isBound⟩ := Invocation.of_instance? held
    refine keeps_round isSaga isBound about.note (about.count _) (about.count _)
      ((keeps_write_leaves about mode _ _ s).imp ?_)
    rintro reply t rfl
    cases reply with
    | ok stored => exact ⟨rfl, i.same_adopt _⟩
    | error e =>
      cases e with
      | backend reason => exact ⟨rfl, .refl i⟩
      | serialization e => exact ⟨rfl, .refl i⟩
      | conflict reason =>
        show ite _ _ _
        split
        next =>
          cases again with
          | none => exact ⟨rfl, .refl i⟩
          | some again => exact keeps_resolveConflict_leaves about leaves (further again rfl)
        next => exact ⟨rfl, .refl i⟩

theorem keeps_persist_leaves (about : c.AboutLocks) (leaves : i.Leaves c context)
    (maxAttempts : Nat) (s : σ) :
    (persist .request maxAttempts rules mode i).Keeps c s fun r t => t = s ∧ i.Same r.1 := by
  refine keeps_rounds (fun _ _ j t => t = s ∧ i.Same j) ?_ ?_ ⟨rfl, .refl i⟩
  · rintro attempt mode j t ⟨rfl, same⟩
    refine (keeps_round_leaves about (same.leaves leaves) (by simp)).imp ?_
    exact fun r u ended => ⟨ended.1, same.trans ended.2⟩
  · rintro more attempt mode again j t ⟨rfl, same⟩ further
    refine (keeps_round_leaves about (same.leaves leaves) fun _ member k later => ?_).imp ?_
    · obtain rfl := Option.some.inj member
      refine (further k t ⟨rfl, same.trans later⟩).imp fun r u ended => ?_
      exact ⟨ended.1, same.symm.trans ended.2⟩
    · exact fun r u ended => ⟨ended.1, same.trans ended.2⟩

end Commit

namespace Incoming

/-- The application code of a message leaves a contract where it is. -/
def Leaves (c : Contract B σ) (m : Incoming D B) : Prop :=
  ∀ i ∈ m.invocations, i.Leaves c m.context

/-- A message on its way, with the application code that it has had from the start. -/
structure Going (c : Contract B σ) (places : Nat) (m : Incoming D B) : Prop where
  leaves : m.Leaves c
  places : m.invocations.length = places

variable {places : Nat} {m : Incoming D B} {bindings : List (Binding B)} {onMiss : MissHandler D B}
  {maxAttempts : Nat} {τ : Type} {code : Contract B τ}

theorem keeps_onInvocation_leaves {index : Nat}
    {step : Invocation D B → Program B (Invocation D B × Except SagaError Unit)}
    (going : m.Going code places) (inRange : index < places)
    (keeps : ∀ i ∈ m.invocations, (step i).Keeps c s fun r t => t = s ∧ i.Same r.1) :
    (onInvocation index step m).Keeps c s fun r t => t = s ∧ r.1.Going code places := by
  rw [← going.places] at inRange
  refine keeps_onInvocation (fun gone => ?_) fun i place => ?_
  · exact absurd (List.getElem?_eq_none_iff.1 gone) (Nat.not_le.2 inRange)
  · have member := List.mem_of_getElem? place
    refine (keeps i member).imp fun r t ended => ⟨ended.1, fun j here => ?_, ?_⟩
    · rcases List.mem_or_eq_of_mem_set here with old | rfl
      · exact going.leaves j old
      · exact ended.2.leaves (going.leaves i member)
    · exact (List.length_set ..).trans going.places

/-- Steps that each leave the contract where it is, at any stage of the message. -/
theorem keeps_inTurn_leaves {steps : List (Continuation D B)} (going : m.Going code places)
    (each : ∀ step ∈ steps, ∀ m : Incoming D B, m.Going code places →
      (step m).Keeps c s fun r t => t = s ∧ r.1.Going code places) :
    (inTurn steps m).Keeps c s fun r t => t = s ∧ r.1.Going code places := by
  induction steps generalizing m with
  | nil => exact ⟨rfl, going⟩
  | cons step rest ih =>
    obtain ⟨first, later⟩ := List.forall_mem_cons.1 each
    refine keeps_inTurn_cons ((first m going).imp ?_)
    rintro ⟨m, answer⟩ t ⟨rfl, going⟩
    cases answer with
    | ok => exact ih going later
    | error e => exact ⟨rfl, going⟩

theorem keeps_bindAll_leaves (about : c.IgnoresBinding)
    (next : ∀ dataType property value reply, c.next s (.find dataType property value) reply = s)
    (owes : ∀ b ∈ bindings, ∀ r ∈ b.rules, ∀ value, r.value? m.context m.message = some value →
      c.owes s (.find r.dataType r.property value))
    (going : m.Going code places) (inRange : ∀ b ∈ bindings, b.index < places) :
    (bindAll onMiss bindings m).Keeps c s fun r t => t = s ∧ r.1.Going code places := by
  refine keeps_inTurn_leaves going fun step member m' going => ?_
  obtain ⟨b, among, rfl⟩ := List.mem_map.1 member
  exact keeps_onInvocation_leaves going (inRange b among) fun i _ =>
    keeps_bindOne_leaves about next (owes b among)

theorem keeps_dispatch_leaves (notes : ∀ entry, c.Ignores (.note entry))
    (going : m.Going c places) :
    (Stage.dispatch .request (fun m => return (m, .ok ())) m).Keeps c s
      fun r t => t = s ∧ r.1.Going c places := by
  have left : ∀ invocations, List.Forall₂ Invocation.Same m.invocations invocations →
      ({ m with invocations } : Incoming D B).Going c places := by
    refine fun invocations pairs => ⟨?_, pairs.length_eq ▸ going.places⟩
    have leaves := going.leaves
    unfold Leaves at leaves ⊢
    revert pairs leaves
    generalize m.invocations = before
    intro pairs leaves
    induction pairs with
    | nil => exact leaves
    | cons same _ ih =>
      obtain ⟨first, rest⟩ := List.forall_mem_cons.1 leaves
      exact List.forall_mem_cons.2 ⟨same.leaves first, ih rest⟩
  refine Stage.keeps_dispatch Invocation.Same True notes Invocation.Same.refl ?_ ?_ ?_
  · intro i member _
    refine (Invocation.keeps_invoke_leaves (going.leaves i member) s).imp fun r t ended => ?_
    exact ⟨ended.1, ended.2, fun _ _ => trivial⟩
  · exact fun invocations _ pairs _ => ⟨rfl, left invocations pairs⟩
  · exact fun invocations pairs => ⟨rfl, left invocations pairs⟩

theorem keeps_persist_leaves (about : c.AboutLocks) (going : m.Going c places) :
    (persist .request maxAttempts bindings m).Keeps c s
      fun r t => t = s ∧ r.1.Going c places := by
  refine keeps_persist about.note (about.count _) (keeps_inTurn_leaves going ?_)
  intro step member m' going'
  have inRange : ∀ {index : Nat} {i : Invocation D B}, m.invocations[index]? = some i →
      index < places := fun place => going.places ▸ (List.getElem?_eq_some_iff.1 place).1
  have write : ∀ index mode rules, index < places →
      (onInvocation index (Commit.persist .request maxAttempts rules mode) m').Keeps c s
        fun r t => t = s ∧ r.1.Going c places := fun index mode rules within =>
    keeps_onInvocation_leaves going' within fun i among =>
      Commit.keeps_persist_leaves about (going'.leaves i among) maxAttempts s
  obtain ⟨index, i, place, ⟨-, rules, rfl⟩ | ⟨-, rules, rfl⟩ | ⟨-, rfl⟩⟩ := write_cases member
  · exact write index .insert rules (inRange place)
  · exact write index .update rules (inRange place)
  · refine keeps_onInvocation_leaves going' (inRange place) fun i _ => ?_
    have deletes : (Commit.delete i).Keeps c s fun _ t => t = s :=
      Commit.keeps_deletion about.note (about.count _) (about.count _) rfl fun document _ =>
        ⟨(about.delete document).owes s, fun reply _ => (about.delete document).next s reply⟩
    exact deletes.bind fun answer t same => ⟨same, .refl i⟩

theorem keeps_runBound_leaves (about : c.AboutLocks) (going : m.Going c places)
    (inRange : ∀ b ∈ bindings, b.index < places) :
    (runBound .request maxAttempts onMiss bindings
      (Stage.dispatch .request fun m => return (m, .ok ())) m).Keeps c s
      fun r t => t = s ∧ r.1.Going c places := by
  refine keeps_inTurn_leaves going ?_
  simp only [List.forall_mem_cons, List.not_mem_nil, false_imp_iff, implies_true, and_true]
  exact ⟨fun m going => keeps_bindAll_leaves about.toIgnoresBinding
      (fun _ _ _ reply => (about.find _ _ _).next s reply)
      (fun _ _ r _ value _ => (about.find _ _ value).owes s) going inRange,
    fun m going => keeps_dispatch_leaves about.note going,
    fun m going => keeps_persist_leaves about going⟩

end Incoming

end Between

/-! ## Taking keys and giving them back -/

/-- What a message does with its locks while it holds these keys. If it is `orderly`, it takes them
in increasing order, sends no messages, and lives. -/
def keyring (orderly : Bool) : Contract B (List String) where
  owes own
    | .acquire key _ => orderly = true → ∀ other ∈ own, compare other key = .lt
    | .release key => own.head? = some key
    | .send _ => orderly = false
    | _ => True
  expects own
    | .acquire key _, reply => reply = .ok true → key ∉ own
    | _, _ => True
  next own request reply := Lock.keysAfter own request reply
  dies := orderly = false

/-- A lock that holds all keys of a message answers it as it expects. -/
theorem expects_of_answers {orderly : Bool} {held own after : List String} {request : Request B}
    {reply : Reply request} (within : own ⊆ held)
    (answers : Lock.Answers held request reply after) :
    (keyring orderly).expects own request reply := by
  cases request with
  | acquire key token =>
    rintro rfl mine
    rcases answers with ⟨-, free, -⟩ | ⟨refused, -⟩
    · exact free (within mine)
    · cases refused
  | _ => trivial

theorem keyring_aboutLocks (orderly : Bool) : (keyring (B := B) orderly).AboutLocks where
  find _ _ _ := ⟨fun _ => trivial, fun _ _ => rfl⟩
  insert _ _ := ⟨fun _ => trivial, fun _ _ => rfl⟩
  update _ _ := ⟨fun _ => trivial, fun _ _ => rfl⟩
  delete _ := ⟨fun _ => trivial, fun _ _ => rfl⟩
  rules _ := ⟨fun _ => trivial, fun _ _ => rfl⟩
  freshId := ⟨fun _ => trivial, fun _ _ => rfl⟩
  draw _ := ⟨fun _ => trivial, fun _ _ => rfl⟩
  count _ := ⟨fun _ => trivial, fun _ _ => rfl⟩
  note _ := ⟨fun _ => trivial, fun _ _ => rfl⟩
  shutdown := ⟨fun _ => trivial, fun _ _ => rfl⟩

/-- A message that need not be orderly may come to anything. -/
theorem keyring_acts : (keyring (B := B) false).IgnoresActs Send.request where
  send _ _ := ⟨rfl, fun _ _ => rfl⟩
  draw := (keyring_aboutLocks false).draw
  note := (keyring_aboutLocks false).note
  shutdown := (keyring_aboutLocks false).shutdown

namespace Incoming

variable {orderly : Bool} {base : List String}

theorem keeps_releaseAll_keyring (held : List String) :
    (releaseAll held).Keeps (keyring (B := B) orderly) (held ++ base) fun _ t => t = base := by
  have notes := (keyring_aboutLocks (B := B) orderly).note
  induction held with
  | nil => rfl
  | cons key earlier ih =>
    refine Program.keeps_call_bind rfl fun reply _ => ?_
    have left : (keyring orderly).next (key :: earlier ++ base) (.release key : Request B) reply =
        earlier ++ base := List.erase_cons_head ..
    rw [left]
    rcases reply with e | _ | _
    · exact Program.keeps_ignored_bind (notes _) fun _ => ih
    · exact Program.keeps_ignored_bind (notes _) fun _ => ih
    · exact ih

/-- All of the keys are taken, or none of them stays. -/
theorem keeps_acquireAll_keyring (token : CancelToken) {keys : List String}
    (increasing : keys.Pairwise fun key other => compare key other = .lt) {held : List String}
    (above : orderly = true → ∀ other ∈ held ++ base, ∀ key ∈ keys, compare other key = .lt) :
    (acquireAll token held keys).Keeps (keyring (B := B) orderly) (held ++ base) fun r t =>
      match r with
      | .ok held => t = held ++ base
      | .error _ => t = base := by
  have notes := (keyring_aboutLocks (B := B) orderly).note
  induction keys generalizing held with
  | nil => rfl
  | cons key rest ih =>
    obtain ⟨least, increasing⟩ := List.pairwise_cons.1 increasing
    refine Program.keeps_call_bind
      (fun inOrder other member => above inOrder other member key List.mem_cons_self) ?_
    intro reply _
    have refuse : ∀ e : SagaError, ((releaseAll held).bind fun _ => .done (.error e)).Keeps
        (keyring (B := B) orderly) (held ++ base) fun (r : Except SagaError (List String)) t =>
          match r with
          | .ok held => t = held ++ base
          | .error _ => t = base := fun e =>
      (keeps_releaseAll_keyring held).bind fun _ t same => same
    rcases reply with e | _ | _
    · exact refuse _
    · exact Program.keeps_ignored_bind (notes _) fun _ => refuse _
    · refine ih increasing fun inOrder other member later among => ?_
      rcases List.mem_cons.1 member with rfl | member
      · exact least later among
      · exact above inOrder other member later (List.mem_cons_of_mem _ among)

/-- A message gives back all that it takes, and leaves the keys below as they are. -/
theorem keeps_coordinate_keyring {m : Incoming D B} {settings : Settings} {locking : Bool}
    {onMiss : MissHandler D B} (leaves : m.Leaves (keyring orderly))
    (alone : orderly = true → base = []) :
    (m.coordinate settings locking onMiss .request
      (Stage.dispatch .request fun m => return (m, .ok ()))).Keeps (keyring orderly) base
      fun _ t => t = base := by
  have about := keyring_aboutLocks (B := B) orderly
  have going : m.Going (keyring orderly) m.invocations.length := ⟨leaves, rfl⟩
  have bound : ∀ bindings, (∀ b ∈ bindings, m.Serves (fun _ _ => True) b) → ∀ own,
      (runBound .request settings.maxConflictAttempts onMiss bindings
        (Stage.dispatch .request fun m => return (m, .ok ())) m).Keeps (keyring orderly) own
        fun _ t => t = own := by
    intro bindings served own
    refine (keeps_runBound_leaves about going fun b member => ?_).imp fun r t ended => ended.1
    obtain ⟨i, -, -, place, -⟩ := served b member
    exact (List.getElem?_eq_some_iff.1 place).1
  refine keeps_coordinate_locking about.note
    ((keeps_bindings (fun _ _ => True) (fun saga reply => (about.rules saga).next base reply)
      (fun _ _ _ => trivial) fun _ _ saga _ => (about.rules saga.type).owes base).imp
        fun r t served => ⟨served.1, fun bindings same => (served.2 bindings same).2⟩)
    (fun _ _ => rfl) (fun _ => ?_) (fun bindings served _ => bound bindings (served _ rfl) base)
    fun bindings served _ => ?_
  · exact (keeps_dispatch_leaves about.note going).imp fun _ _ ended => ended.1
  · refine (keeps_acquireAll_keyring m.token (Sorted.pairwise_ofList _) ?_).imp ?_
    · intro inOrder other member
      simp [alone inOrder] at member
    · rintro (e | held) t ended
      · exact ended
      · subst ended
        exact (bound bindings (served _ rfl) _).imp fun r t same =>
          same ▸ keeps_releaseAll_keyring held

end Incoming

/-! ## Whole messages -/

/-- No handler of the message sends a message or dies. -/
def Job.Quiet (job : Job D B) : Prop :=
  ∀ i ∈ job.incoming.invocations, i.Quiet job.delivery.context

namespace Job

variable {job : Job D B}

theorem keeps_keyring (job : Job D B) (base : List String) :
    job.program.Keeps (keyring false) base fun _ t => t = base :=
  keeps_program (keyring_aboutLocks false).note
    (Incoming.keeps_coordinate_keyring (fun i _ => i.leaves_of_acts rfl keyring_acts _) nofun)

theorem Quiet.keeps_keyring (quiet : job.Quiet) :
    job.program.Keeps (keyring true) [] fun _ t => t = [] := by
  refine keeps_program (keyring_aboutLocks true).note
    (Incoming.keeps_coordinate_keyring (fun i member => ?_) fun _ => rfl)
  rw [job.context_incoming]
  exact (quiet i member).leaves (keyring_aboutLocks true)

end Job

end Sagas
