import Sagas.Demo.Tally
import Sagas.Proofs.Lock.Keyring
import Sagas.Proofs.Stages

/-!
# The locks of one message

A message takes the keys of all values that it yields, in increasing order, before it looks anything
up, and gives them back in reverse order after its last write. If one of them is not given to it,
it gives back those that it has taken, and does nothing else.

Results:
1. `Incoming.mem_keys`, `Incoming.keys_increasing`: the keys of a message.
2. `Incoming.Acquires`, `Incoming.GivesBack`: what taking keys and giving them back comes to.
3. `Job.Protocol`, `Job.protocol_of_returns`: the ways a message can go with its keys.
4. `Job.diesAtWork_of_panic`: nothing but its work can make a message die.
5. `keys_around_message`: every run of every message.
-/

namespace Sagas

variable {D B α : Type} {late early past : List (Exchange B)}

/-! ## Deeds -/

namespace Request

/-- A line of the library's own log. -/
def isLog : Request B → Bool
  | .note (.log _) => true
  | _ => false

/-- A call of the lock. -/
def isLocking : Request B → Bool
  | .acquire .. | .release _ => true
  | _ => false

def isRules : Request B → Bool
  | .rules _ => true
  | _ => false

end Request

/-- What was asked for apart from lines of the log, in order. -/
def deeds (past : List (Exchange B)) : List (Exchange B) :=
  (past.filter fun x => !x.request.isLog).reverse

@[simp] theorem deeds_append : deeds (late ++ early) = deeds early ++ deeds late := by
  simp [deeds]

theorem deeds_of_logs (logs : ∀ x ∈ past, x.request.isLog = true) : deeds past = [] := by
  rw [deeds, List.filter_eq_nil_iff.2 fun x member => by simp [logs x member], List.reverse_nil]

theorem deeds_log_last (past : List (Exchange B)) (event : LogEvent) :
    deeds (past ++ [⟨.note (.log event), ()⟩]) = deeds past := by
  simp [deeds, Request.isLog]

theorem deeds_last {x : Exchange B} (past : List (Exchange B)) (deed : x.request.isLog = false) :
    deeds (past ++ [x]) = x :: deeds past := by
  simp [deeds, deed]

/-! ## Programs that ask only certain requests -/

namespace Program

/-- Only such requests are made; and whether the program may die. -/
def only (allowed : Request B → Prop) (dies : Prop) : Contract B Unit :=
  { asking allowed with dies }

variable {allowed : Request B → Prop} {dies : Prop} {p : Program B α} {post : α → Unit → Prop}

theorem only_ignores {request : Request B} (isAllowed : allowed request) :
    (only allowed dies).Ignores request :=
  ⟨fun _ => isAllowed, fun _ _ => rfl⟩

/-- At each moment no other requests have been made, nor are there any to come. -/
theorem Keeps.only_reached (keeps : p.Keeps (only allowed dies) () post) {party : Party B α}
    (reached : Party.Reached p party) :
    party.program.Keeps (only allowed dies) () post ∧ ∀ x ∈ party.past, allowed x.request := by
  induction reached with
  | start => exact ⟨keeps, fun x member => nomatch member⟩
  | step reply _ ih =>
    obtain ⟨⟨isAllowed, further⟩, before⟩ := ih
    exact ⟨further reply trivial, List.forall_mem_cons.2 ⟨isAllowed, before⟩⟩

theorem Keeps.only_returns (keeps : p.Keeps (only allowed dies) () post) {a : α}
    (returns : p.Returns past a) : post a () ∧ ∀ x ∈ past, allowed x.request :=
  keeps.only_reached returns.reached

/-- A program that is made of two dies in one of them. -/
theorem reached_bind_panic {β : Type} {next : α → Program B β}
    (reached : Party.Reached (p >>= next) ⟨past, .panic⟩) : Party.Reached p ⟨past, .panic⟩ ∨
      ∃ a early late, p.Returns early a ∧ Party.Reached (next a) ⟨late, .panic⟩ ∧
        past = late ++ early := by
  rcases reached_bind reached with ⟨q, first, same⟩ | ⟨a, early, late, returns, second, same⟩
  · cases q with
    | done a =>
      have dead : next a = .panic := same.symm
      have returns : p.Returns ([] ++ past) a := (Returns.done a).whole first
      refine .inr ⟨a, past, [], returns, ?_, rfl⟩
      rw [dead]
      exact .start
    | ask request rest => cases same
    | panic => exact .inl first
  · exact .inr ⟨a, early, late, returns, second, same⟩

/-- A run that remembers its exchanges and has no result dies after these. -/
theorem reached_of_run {τ : Type} {answer : Answering B τ} {w v : τ}
    (ran : p.run (traced answer) (w, []) = (none, v, past)) : Party.Reached p ⟨past, .panic⟩ := by
  have further : ∀ (p : Program B α) (w : τ) (before past : List (Exchange B)),
      p.run (traced answer) (w, before) = (none, v, past) →
        ∃ later, Party.Reached p ⟨later, .panic⟩ ∧ past = later ++ before := by
    intro p
    induction p with
    | done a => exact nofun
    | ask request rest ih =>
      intro w before past ran
      obtain ⟨later, dies, rfl⟩ := ih _ _ _ _ ran
      refine ⟨later ++ [⟨request, (answer request w).1⟩], ?_, by simp⟩
      have first : Party.Reached (.ask request rest) ⟨[⟨request, (answer request w).1⟩], rest _⟩ :=
        Party.Reached.start.step _
      exact first.trans dies
    | panic =>
      rintro w before past ⟨⟩
      exact ⟨[], .start, rfl⟩
  obtain ⟨later, dies, rfl⟩ := further p w [] past ran
  exact (List.append_nil later).symm ▸ dies

theorem Keeps.not_panic (keeps : p.Keeps (only allowed False) () post) :
    ¬ Party.Reached p ⟨past, .panic⟩ :=
  fun reached => (keeps.only_reached reached).1

end Program

/-! ## Keys -/

namespace Incoming

open Program

variable {m : Incoming D B} {buckets : Option Nat} {bindings : List (Binding B)}

/-- The keys are those of the values that the message yields for the rules of its bindings. -/
theorem mem_keys {key : String} : key ∈ m.keys buckets bindings ↔
    ∃ b ∈ bindings, ∃ r ∈ b.rules, ∃ value, r.value? m.context m.message = some value ∧
      key = Lock.key r.dataType r.property value buckets := by
  rw [keys, Lock.normalize, Sorted.mem_ofList]
  simp only [List.mem_filterMap, List.mem_flatMap, Option.map_eq_some_iff]
  constructor
  · rintro ⟨r, ⟨b, among, member⟩, value, yields, rfl⟩
    exact ⟨b, among, r, member, value, yields, rfl⟩
  · rintro ⟨b, among, r, member, value, yields, rfl⟩
    exact ⟨r, ⟨b, among, member⟩, value, yields, rfl⟩

theorem keys_increasing (m : Incoming D B) (buckets : Option Nat) (bindings : List (Binding B)) :
    (m.keys buckets bindings).Pairwise fun key other => compare key other = .lt :=
  Sorted.pairwise_ofList _

theorem asks_valueOf (message : Message B) (context : Context) (r : Rule B) :
    (valueOf message context r).Asks fun request => request.isLog = true := by
  unfold valueOf
  split
  next => trivial
  next => trivial
  next => exact ⟨rfl, fun _ => trivial⟩

theorem asks_keysOf (message : Message B) (context : Context) (buckets : Option Nat)
    (rules : List (Rule B)) :
    (keysOf message context buckets rules).Asks fun request => request.isLog = true := by
  induction rules with
  | nil => trivial
  | cons r rest ih =>
    refine (asks_valueOf message context r).bind fun value => ?_
    cases value with
    | none => exact ih
    | some value => exact ih.bind fun _ => trivial

/-- Working out the keys of a message does nothing but write to the log. -/
theorem asks_lockKeys (m : Incoming D B) (buckets : Option Nat) (bindings : List (Binding B)) :
    (m.lockKeys buckets bindings).Asks fun request => request.isLog = true :=
  (asks_keysOf _ _ _ _).bind fun _ => trivial

/-- These keys are given back one after the other, whatever the answers. -/
def GivesBack (keys : List String) (part : List (Exchange B)) : Prop :=
  part.map (·.request) = keys.map .release

/-- These keys are taken one after the other. -/
def taken (token : CancelToken) (keys : List String) : List (Exchange B) :=
  keys.map fun key => ⟨.acquire key token, .ok true⟩

/-- The error of a message that a key was not given to. -/
def refusal (key : String) : Except LockError Bool → SagaError
  | .ok _ => .lockTimeout key
  | .error e => .lock e

/-- Keys are taken in order on top of `held`, the latest first: all of them, or up to one that is
not given, and then the others are given back. -/
inductive Acquires (token : CancelToken) (held : List String) :
    List String → List (Exchange B) → Except SagaError (List String) → Prop
  | all (keys : List String) :
      Acquires token held keys (taken token keys) (.ok (keys.reverse ++ held))
  | refused {before after : List String} {key : String} {reply : Except LockError Bool}
      {gives : List (Exchange B)} :
      reply ≠ .ok true → GivesBack (before.reverse ++ held) gives →
      Acquires token held (before ++ key :: after)
        (taken token before ++ ⟨.acquire key token, reply⟩ :: gives) (.error (refusal key reply))

theorem GivesBack.of_releaseAll {held : List String} {u : Unit}
    (returns : (releaseAll (B := B) held).Returns past u) : GivesBack held (deeds past) := by
  induction held generalizing past with
  | nil =>
    obtain ⟨rfl, -⟩ := returns_done.1 returns
    rfl
  | cons key earlier ih =>
    rw [releaseAll, call_bind] at returns
    obtain ⟨reply, later, follows, rfl⟩ := returns_ask.1 returns
    rw [deeds_last later rfl]
    refine congrArg (Request.release key :: ·) ?_
    rcases reply with e | _ | _
    · obtain ⟨_, rest, noted, rfl⟩ := returns_ask.1 follows
      exact deeds_log_last rest _ ▸ ih noted
    · obtain ⟨_, rest, noted, rfl⟩ := returns_ask.1 follows
      exact deeds_log_last rest _ ▸ ih noted
    · exact ih follows

theorem Acquires.cons {token : CancelToken} {held keys : List String} {key : String}
    {part : List (Exchange B)} {result : Except SagaError (List String)}
    (further : Acquires token (key :: held) keys part result) :
    Acquires token held (key :: keys) (⟨.acquire key token, .ok true⟩ :: part) result := by
  cases further with
  | all =>
    have all : Acquires token held (key :: keys) (taken (B := B) token (key :: keys))
        (.ok ((key :: keys).reverse ++ held)) := .all _
    rwa [List.reverse_cons, List.append_assoc] at all
  | @refused before _ _ _ gives refused given =>
    have givenBack : GivesBack ((key :: before).reverse ++ held) gives := by
      rwa [List.reverse_cons, List.append_assoc]
    exact .refused refused givenBack

theorem Acquires.eq_taken {token : CancelToken} {held held' keys : List String}
    {part : List (Exchange B)} (acquires : Acquires token held keys part (.ok held')) :
    part = taken token keys := by
  cases acquires
  rfl

theorem Acquires.of_acquireAll {token : CancelToken} {keys held : List String}
    {result : Except SagaError (List String)}
    (returns : (acquireAll (B := B) token held keys).Returns past result) :
    Acquires token held keys (deeds past) result := by
  induction keys generalizing held past with
  | nil =>
    obtain ⟨rfl, rfl⟩ := returns_done.1 returns
    exact .all []
  | cons key rest ih =>
    rw [acquireAll, call_bind] at returns
    obtain ⟨reply, later, follows, rfl⟩ := returns_ask.1 returns
    rw [deeds_last later rfl]
    have refuse : ∀ {part : List (Exchange B)}, reply ≠ .ok true →
        (releaseAll held >>= fun _ => .done (.error (refusal key reply))).Returns part result →
          Acquires token held (key :: rest) (⟨.acquire key token, reply⟩ :: deeds part) result := by
      intro part refused follows
      obtain ⟨_, gives, after, released, ended, rfl⟩ := returns_bind.1 follows
      obtain ⟨rfl, rfl⟩ := returns_done.1 ended
      have given : GivesBack ([].reverse ++ held) (deeds gives) := .of_releaseAll released
      exact .refused refused given
    rcases reply with e | _ | _
    · exact refuse nofun follows
    · obtain ⟨_, part, noted, rfl⟩ := returns_ask.1 follows
      exact deeds_log_last part _ ▸ refuse nofun noted
    · exact (ih follows).cons

end Incoming

/-! ## A message -/

open Program
open Incoming (handle)

namespace Job

variable {job : Job D B} {bindings : List (Binding B)} {held : List String}

/-- The keys that a message takes, if locks are in use. -/
def lockKeys (job : Job D B) (bindings : List (Binding B)) : List String :=
  if job.locking then job.incoming.keys job.settings.lockBuckets bindings else []

/-- What lies between taking the keys of a message and giving them back. -/
def work (job : Job D B) (bindings : List (Binding B)) : Program B (Processed D B) :=
  Incoming.inTurn [job.bind bindings, handle, job.write bindings] job.incoming

/-- The rules of a message are asked for, and nothing else. -/
structure Serving (job : Job D B) (past : List (Exchange B))
    (served : Except SagaError (List (Binding B))) : Prop where
  returns : job.incoming.bindings.Returns past served
  rules : ∀ x ∈ past, x.request.isRules = true

/-- What a message does while it holds its keys: it calls no lock, and what it looks up while its
instances are bound is locked. -/
structure Works (job : Job D B) (bindings : List (Binding B)) (past : List (Exchange B)) :
    Prop where
  quiet : ∀ x ∈ past, x.request.isLocking = false
  locked : job.locking = true → ∃ m answer binds later, past = later ++ binds ∧
    (job.bind bindings job.incoming).Returns binds (m, answer) ∧
    ∀ dataType property value reply, ⟨.find dataType property value, reply⟩ ∈ binds →
      Lock.key dataType property value job.settings.lockBuckets ∈ job.lockKeys bindings

/-- The ways a message can go with its keys, by its deeds and what it comes to. -/
inductive Protocol (job : Job D B) : List (Exchange B) → Processed D B → Prop
  /-- It fails for want of rules, and takes no key. -/
  | unserved {serves : List (Exchange B)} {e : SagaError} :
      job.Serving serves (.error e) → Protocol job (deeds serves) (job.incoming, .error e)
  /-- A key is not given to it: it gives back those that it has taken, and fails for that key. -/
  | refused {bindings : List (Binding B)} {serves gives : List (Exchange B)}
      {before after : List String} {key : String} {reply : Except LockError Bool} :
      job.Serving serves (.ok bindings) → job.lockKeys bindings = before ++ key :: after →
      reply ≠ .ok true → Incoming.GivesBack before.reverse gives →
      Protocol job (deeds serves ++ Incoming.taken job.incoming.token before ++
          ⟨.acquire key job.incoming.token, reply⟩ :: gives)
        (job.incoming, .error (Incoming.refusal key reply))
  /-- It takes all of its keys, does its work, gives all of them back and returns what its work has
  come to. -/
  | worked {bindings : List (Binding B)} {serves works gives : List (Exchange B)}
      {r : Processed D B} :
      job.Serving serves (.ok bindings) → (job.work bindings).Returns works r →
      job.Works bindings works → Incoming.GivesBack (job.lockKeys bindings).reverse gives →
      Protocol job (deeds serves ++ Incoming.taken job.incoming.token (job.lockKeys bindings) ++
        deeds works ++ gives) r

/-- How a message dies: at its work, with all of its keys taken and none of them given back. -/
def DiesAtWork (job : Job D B) (past : List (Exchange B)) : Prop :=
  ∃ bindings serves works, job.Serving serves (.ok bindings) ∧
    Party.Reached (job.work bindings) ⟨works, .panic⟩ ∧ job.Works bindings works ∧
    deeds past = deeds serves ++
      Incoming.taken job.incoming.token (job.lockKeys bindings) ++ deeds works

/-! ## Stage by stage -/

/-- Serving the rules of a message asks for nothing but rules, and cannot die. -/
theorem keeps_served_only (job : Job D B) :
    job.incoming.bindings.Keeps (only (fun request => request.isRules = true) False) ()
      fun r _ => ∀ bindings, r = .ok bindings →
        ∀ b ∈ bindings, b.index < job.incoming.invocations.length := by
  refine (Incoming.keeps_bindings (fun _ _ => True) (fun _ _ => rfl) (fun _ _ _ => trivial)
    fun _ _ _ _ => rfl).imp ?_
  rintro r _ ⟨-, served⟩ bindings same b member
  obtain ⟨i, -, -, place, -⟩ := (served bindings same).2 b member
  exact (List.getElem?_eq_some_iff.1 place).1

theorem Serving.of_returns {served : Except SagaError (List (Binding B))}
    (returns : job.incoming.bindings.Returns past served) : job.Serving past served :=
  ⟨returns, (job.keeps_served_only.only_returns returns).2⟩

theorem Serving.inRange (serving : job.Serving past (.ok bindings)) :
    ∀ b ∈ bindings, b.index < job.incoming.invocations.length :=
  (job.keeps_served_only.only_returns serving.returns).1 bindings rfl

theorem returns_reported {r r' : Processed D B} (returns : (reported r).Returns past r') :
    r' = r ∧ deeds past = [] := by
  obtain ⟨m, answer⟩ := r
  cases answer with
  | error e =>
    obtain ⟨_, later, ended, rfl⟩ := returns_ask.1 returns
    obtain ⟨rfl, rfl⟩ := returns_done.1 ended
    exact ⟨rfl, deeds_log_last [] _⟩
  | ok =>
    obtain ⟨rfl, rfl⟩ := returns_done.1 returns
    exact ⟨rfl, rfl⟩

/-- Finishing gives back what is held, whatever the answers, and leaves the result as it is. -/
theorem gives_of_finish {r r' : Processed D B} (returns : (finish held r).Returns past r') :
    r' = r ∧ Incoming.GivesBack held (deeds past) := by
  obtain ⟨_, early, late, releases, ended, rfl⟩ := returns_bind.1 returns
  obtain ⟨rfl, silent⟩ := returns_reported ended
  rw [deeds_append, silent, List.append_nil]
  exact ⟨rfl, .of_releaseAll releases⟩

theorem only_notes_locks {allowed : Request B → Prop} {dies : Prop}
    (notes : ∀ entry, allowed (.note entry)) (acquires : ∀ key token, allowed (.acquire key token))
    (releases : ∀ key, allowed (.release key)) : (only allowed dies).IgnoresLocks where
  note _ := only_ignores (notes _)
  acquire _ _ := only_ignores (acquires _ _)
  release _ := only_ignores (releases _)

theorem acquires_of_takeLocks {result : Except SagaError (List String)}
    (returns : (job.takeLocks bindings).Returns past result) :
    Incoming.Acquires job.incoming.token [] (job.lockKeys bindings) (deeds past) result := by
  unfold takeLocks at returns
  unfold lockKeys
  cases locking : job.locking with
  | false =>
    rw [locking] at returns
    obtain ⟨rfl, rfl⟩ := returns_done.1 returns
    exact .all []
  | true =>
    rw [locking] at returns
    obtain ⟨keys, early, late, listed, acquired, rfl⟩ := returns_bind.1 returns
    have keeps := Incoming.keeps_lockKeys (c := only (fun _ => True) False)
      (fun _ => only_ignores trivial) job.incoming job.settings.lockBuckets bindings ()
    obtain ⟨⟨-, rfl⟩, -⟩ := keeps.only_returns listed
    have asks := job.incoming.asks_lockKeys job.settings.lockBuckets bindings
    have logs := ((asks.keeps (c := only (fun request => request.isLog = true) False)
      (fun _ isLog => only_ignores isLog) ()).only_returns listed).2
    rw [deeds_append, deeds_of_logs logs]
    exact .of_acquireAll acquired

theorem keeps_takeLocks_only (job : Job D B) (bindings : List (Binding B)) :
    (job.takeLocks bindings).Keeps (only (fun _ => True) False) () fun _ _ => True := by
  have ignores : (only (B := B) (fun _ => True) False).IgnoresLocks :=
    only_notes_locks (fun _ => trivial) (fun _ _ => trivial) fun _ => trivial
  unfold takeLocks
  cases job.locking with
  | false => trivial
  | true =>
    refine (Incoming.keeps_lockKeys ignores.note _ _ _ _).bind fun keys _ _ => ?_
    exact (Incoming.keeps_acquireAll ignores _ _ keys []).imp fun _ _ _ => trivial

theorem keeps_finish_only (held : List String) (r : Processed D B) :
    (finish held r).Keeps (only (fun _ => True) False) () fun _ _ => True :=
  (keeps_finish (only_notes_locks (fun _ => trivial) (fun _ _ => trivial) fun _ => trivial)
    held r ()).imp fun _ _ _ => trivial

/-- A message may call no lock, and look up nothing whose key is not among these. -/
def Within (keys : List String) (buckets : Option Nat) (request : Request B) : Prop :=
  request.isLocking = false ∧ ∀ dataType property value,
    request = .find dataType property value → Lock.key dataType property value buckets ∈ keys

theorem within_ignores {keys : List String} {buckets : Option Nat} {dies : Prop}
    {request : Request B} (quiet : request.isLocking = false)
    (other : ∀ dataType property value, request ≠ .find dataType property value) :
    (only (Within keys buckets) dies).Ignores request :=
  only_ignores ⟨quiet, fun _ _ _ same => absurd same (other _ _ _)⟩

/-- Whatever is looked up while instances are bound is a value that the message yields. Binding
cannot die. -/
theorem keeps_bind_within (job : Job D B)
    (inRange : ∀ b ∈ bindings, b.index < job.incoming.invocations.length) :
    (job.bind bindings job.incoming).Keeps
      (only (Within (job.incoming.keys job.settings.lockBuckets bindings)
        job.settings.lockBuckets) False) () fun _ _ => True := by
  have going : job.incoming.Going (keyring false) job.incoming.invocations.length :=
    ⟨fun i _ => i.leaves_of_acts rfl keyring_acts _, rfl⟩
  refine (Incoming.keeps_bindAll_leaves ⟨?_, ?_, ?_⟩ (fun _ _ _ _ => rfl) ?_ going inRange).imp
    fun _ _ _ => trivial
  · exact within_ignores rfl fun _ _ _ => by simp
  · exact fun _ => within_ignores rfl fun _ _ _ => by simp
  · exact fun _ => within_ignores rfl fun _ _ _ => by simp
  · intro b among r member value yields
    refine ⟨rfl, ?_⟩
    rintro _ _ _ ⟨⟩
    exact Incoming.mem_keys.2 ⟨b, among, r, member, value, yields, rfl⟩

theorem quiet_aboutLocks {dies : Prop} :
    (only (fun request : Request B => request.isLocking = false) dies).AboutLocks where
  find _ _ _ := only_ignores rfl
  insert _ _ := only_ignores rfl
  update _ _ := only_ignores rfl
  delete _ := only_ignores rfl
  rules _ := only_ignores rfl
  freshId := only_ignores rfl
  draw _ := only_ignores rfl
  count _ := only_ignores rfl
  note _ := only_ignores rfl
  shutdown := only_ignores rfl

theorem quiet_acts : (only (fun request : Request B => request.isLocking = false) True).IgnoresActs
    Send.request where
  send _ _ := ⟨rfl, fun _ _ => rfl⟩
  draw := quiet_aboutLocks.draw
  note := quiet_aboutLocks.note
  shutdown := quiet_aboutLocks.shutdown

/-- No lock is called while a message does its work. -/
theorem keeps_work_quiet (job : Job D B)
    (inRange : ∀ b ∈ bindings, b.index < job.incoming.invocations.length) :
    (job.work bindings).Keeps (only (fun request => request.isLocking = false) True) ()
      fun _ _ => True := by
  have going : job.incoming.Going (only (fun request => request.isLocking = false) True)
      job.incoming.invocations.length :=
    ⟨fun i _ => i.leaves_of_acts trivial quiet_acts _, rfl⟩
  exact (Incoming.keeps_runBound_leaves quiet_aboutLocks going inRange).imp fun _ _ _ => trivial

/-- Up to here, what is looked up while instances are bound is locked. -/
theorem bound_within {binds : List (Exchange B)} {r : Processed D B}
    (inRange : ∀ b ∈ bindings, b.index < job.incoming.invocations.length)
    (returns : (job.bind bindings job.incoming).Returns binds r) (locking : job.locking = true)
    {dataType property : String} {value : Scalar} {reply : Except StorageError (Option Document)}
    (looked : ⟨.find dataType property value, reply⟩ ∈ binds) :
    Lock.key dataType property value job.settings.lockBuckets ∈ job.lockKeys bindings := by
  obtain ⟨-, within⟩ := (job.keeps_bind_within inRange).only_returns returns
  rw [lockKeys, if_pos locking]
  exact (within _ looked).2 _ _ _ rfl

theorem works_of_returns {r : Processed D B}
    (inRange : ∀ b ∈ bindings, b.index < job.incoming.invocations.length)
    (returns : (job.work bindings).Returns past r) : job.Works bindings past := by
  refine ⟨((job.keeps_work_quiet inRange).only_returns returns).2, fun locking => ?_⟩
  obtain ⟨⟨m, answer⟩, binds, later, bound, -, rfl⟩ := returns_bind.1 returns
  exact ⟨m, answer, binds, later, rfl, bound, fun _ _ _ _ => bound_within inRange bound locking⟩

theorem works_of_panic
    (inRange : ∀ b ∈ bindings, b.index < job.incoming.invocations.length)
    (dies : Party.Reached (job.work bindings) ⟨past, .panic⟩) : job.Works bindings past := by
  refine ⟨((job.keeps_work_quiet inRange).only_reached dies).2, fun locking => ?_⟩
  rcases reached_bind_panic dies with inBinding | ⟨⟨m, answer⟩, binds, later, bound, -, rfl⟩
  · exact absurd inBinding (job.keeps_bind_within inRange).not_panic
  · exact ⟨m, answer, binds, later, rfl, bound, fun _ _ _ _ => bound_within inRange bound locking⟩

theorem protocol_of_returns {r : Processed D B} (returns : job.program.Returns past r) :
    job.Protocol (deeds past) r := by
  rw [job.program_stages] at returns
  obtain ⟨served, serves, late, returned, follows, rfl⟩ := returns_bind.1 returns
  have serving := Serving.of_returns returned
  cases served with
  | error e =>
    obtain ⟨rfl, silent⟩ := returns_reported follows
    rw [deeds_append, silent, List.append_nil]
    exact .unserved serving
  | ok bindings =>
    obtain ⟨taken, takes, late, taking, follows, rfl⟩ := returns_bind.1 follows
    have acquires := acquires_of_takeLocks taking
    rw [deeds_append, deeds_append]
    generalize deeds takes = part at acquires
    generalize keys : job.lockKeys bindings = all at acquires
    cases acquires with
    | all =>
      obtain ⟨r', works, gives, working, finishing, rfl⟩ := returns_bind.1 follows
      obtain ⟨rfl, given⟩ := gives_of_finish finishing
      subst keys
      rw [List.append_nil] at given
      have quiet := works_of_returns serving.inRange working
      have worked := Protocol.worked serving working quiet given
      simpa using worked
    | refused refused given =>
      obtain ⟨rfl, silent⟩ := returns_reported follows
      rw [List.append_nil] at given
      have failed := Protocol.refused serving keys refused given
      simpa [silent] using failed

theorem diesAtWork_of_panic (dies : Party.Reached job.program ⟨past, .panic⟩) :
    job.DiesAtWork past := by
  have end_lives : ∀ (held : List String) (r : Processed D B) {past : List (Exchange B)},
      ¬ Party.Reached (finish held r) ⟨past, .panic⟩ := fun held r _ =>
    (keeps_finish_only held r).not_panic
  rw [job.program_stages] at dies
  rcases reached_bind_panic dies with inServing | ⟨served, serves, late, returned, follows, rfl⟩
  · exact absurd inServing job.keeps_served_only.not_panic
  have serving := Serving.of_returns returned
  cases served with
  | error e => exact (end_lives [] (job.incoming, .error e) follows).elim
  | ok bindings =>
    rcases reached_bind_panic follows with inTaking | ⟨taken, takes, late, taking, follows, rfl⟩
    · exact absurd inTaking (job.keeps_takeLocks_only bindings).not_panic
    have acquires := acquires_of_takeLocks taking
    cases taken with
    | error e => exact (end_lives [] (job.incoming, .error e) follows).elim
    | ok held =>
      rcases reached_bind_panic follows with inWork | ⟨r, works, gives, working, finishing, rfl⟩
      · have works := works_of_panic serving.inRange inWork
        refine ⟨bindings, serves, late, serving, inWork, works, ?_⟩
        rw [deeds_append, deeds_append, acquires.eq_taken, List.append_assoc]
      · exact absurd finishing (end_lives held r)

end Job

/-- The keys of a message are those of all values that it yields for its rules, in increasing order,
each once. A message that returns has gone one of the ways of the protocol, and nothing but its work
can make it die. So every run, whatever is answered, comes to one of these. -/
theorem keys_around_message (job : Job D B) :
    (∀ bindings, (job.lockKeys bindings).Pairwise fun key other => compare key other = .lt) ∧
    (∀ bindings key, job.locking = true → (key ∈ job.lockKeys bindings ↔
      ∃ b ∈ bindings, ∃ r ∈ b.rules, ∃ value,
        r.value? job.incoming.context job.incoming.message = some value ∧
        key = Lock.key r.dataType r.property value job.settings.lockBuckets)) ∧
    (∀ past r, job.program.Returns past r → job.Protocol (deeds past) r) ∧
    (∀ past, Party.Reached job.program ⟨past, .panic⟩ → job.DiesAtWork past) ∧
    ∀ {τ : Type} (answer : Program.Answering B τ) (w : τ), ∃ v past,
      (∃ r, job.program.run (Program.traced answer) (w, []) = (some r, v, past) ∧
        job.Protocol (deeds past) r) ∨
      job.program.run (Program.traced answer) (w, []) = (none, v, past) ∧ job.DiesAtWork past := by
  refine ⟨fun bindings => ?_, fun bindings key locking => ?_, ?_, ?_, fun answer w => ?_⟩
  · unfold Job.lockKeys
    split
    next => exact Incoming.keys_increasing _ _ _
    next => exact .nil
  · rw [Job.lockKeys, if_pos locking]
    exact Incoming.mem_keys
  · exact fun past r returns => Job.protocol_of_returns returns
  · exact fun past dies => Job.diesAtWork_of_panic dies
  · rcases ran : job.program.run (Program.traced answer) (w, []) with ⟨_ | r, v, past⟩
    · exact ⟨v, past, .inr ⟨rfl, Job.diesAtWork_of_panic (Program.reached_of_run ran)⟩⟩
    · exact ⟨v, past, .inl ⟨r, rfl, Job.protocol_of_returns (Program.returns_of_run ran)⟩⟩

section Tally

open Demo

/-- Clears the tally that a posting is identified by. -/
def resetting : Saga Tally Posting :=
  { Tally.clearing with
    name := "saga.reset"
    rules := [.context "demo.post" identityPath .uuid fun c => some (.uuid c.id)] }

/-- Posts to a tally by its name, and clears one by its identity. -/
def guarded : Job Tally Posting :=
  ⟨.default, true, .logAndSkip,
    (Registry.empty.add "demo.post" (.saga (Tally.saga false))).add "demo.post" (.saga resetting),
    Tally.post "rent" 5, false⟩

def rentKey : String := Lock.key "demo.tally" "Name" (.string "rent") none

def nilKey : String := Lock.key "demo.tally" identityPath (.uuid .nil) none

/-- Somebody else has the tally of that name. -/
def rentTaken : Program.Answering Posting Unit
  | .acquire key _, _ => (.ok (key != rentKey), ())
  | request, _ => (obliging .nil request, ())

/-- The key of the identity is given back when the one of the name is refused. -/
theorem rent_refused : ∃ past serves token,
    guarded.program.run (Program.traced rentTaken) ((), []) =
      (some (guarded.incoming, .error (.lockTimeout rentKey)), (), past) ∧
    deeds past = serves ++ [⟨.acquire nilKey token, .ok true⟩, ⟨.acquire rentKey token, .ok false⟩,
      ⟨.release nilKey, .ok true⟩] ∧
    guarded.Protocol (deeds past) (guarded.incoming, .error (.lockTimeout rentKey)) := by
  obtain ⟨past, serves, token, ran, same⟩ : ∃ past serves token,
      guarded.program.run (Program.traced rentTaken) ((), []) =
        (some (guarded.incoming, .error (.lockTimeout rentKey)), (), past) ∧
      deeds past = serves ++ [⟨.acquire nilKey token, .ok true⟩,
        ⟨.acquire rentKey token, .ok false⟩, ⟨.release nilKey, .ok true⟩] :=
    ⟨_, [_, _], _, rfl, rfl⟩
  exact ⟨past, serves, token, ran, same,
    (keys_around_message guarded).2.2.1 _ _ (Program.returns_of_run ran)⟩

end Tally

end Sagas
