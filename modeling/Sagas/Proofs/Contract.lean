import Sagas.Program

/-!
# Contracts of programs

A contract says what a program owes its surroundings at each request and what it may expect of the
answers. Both depend on a state that follows the requests and answers so far. A program keeps a
contract from a state on if it has what it owes at every request, whatever the expected answers are,
and dies only if the contract lets it.

Results:
1. `Keeps.bind`, `Keeps.imp`: programs that keep a contract compose, and so do their endings.
2. `Asks.keeps`: requests of which the contract says nothing leave the state alone.
3. `Keeps.of_asking`: so do programs that ask nothing else, at a state that does not mind.
4. `Act.Ends.keeps`, `Act.Notes.keeps`: the actions of an application, by what they can end in.
5. `Keeps.run`, `Keeps.ends`: a program that keeps a contract may be run by anything that meets
   it.
-/

namespace Sagas

structure Contract (B σ : Type) where
  /-- What the program owes when it asks. -/
  owes : σ → Request B → Prop
  /-- What the program may expect of the answer. -/
  expects : σ → (request : Request B) → Reply request → Prop
  next : σ → (request : Request B) → Reply request → σ
  /-- Whether the program may die on the way. -/
  dies : Prop := True

namespace Contract

variable {B σ : Type}

/-- The contract says nothing of such a request. -/
structure Ignores (c : Contract B σ) (request : Request B) : Prop where
  owes : ∀ s, c.owes s request
  next : ∀ s reply, c.next s request reply = s

end Contract

namespace Program

variable {B α β σ τ : Type} {c : Contract B σ}

/-- Whether a program keeps a contract from a state on and ends as `post` says. -/
def Keeps (c : Contract B σ) : Program B α → σ → (α → σ → Prop) → Prop
  | .done a, s, post => post a s
  | .ask request rest, s, post =>
    c.owes s request ∧
      ∀ reply, c.expects s request reply → (rest reply).Keeps c (c.next s request reply) post
  | .panic, _, _ => c.dies

@[simp] theorem keeps_done {a : α} {s : σ} {post : α → σ → Prop} :
    (Program.done a : Program B α).Keeps c s post ↔ post a s := Iff.rfl

theorem Keeps.imp {p : Program B α} {s : σ} {post wider : α → σ → Prop}
    (keeps : p.Keeps c s post) (implies : ∀ a t, post a t → wider a t) : p.Keeps c s wider := by
  induction p generalizing s with
  | done a => exact implies a s keeps
  | ask request rest ih =>
    exact ⟨keeps.1, fun reply expected => ih reply (keeps.2 reply expected)⟩
  | panic => exact keeps

theorem Keeps.and {p : Program B α} {s : σ} {post post' : α → σ → Prop} (keeps : p.Keeps c s post)
    (keeps' : p.Keeps c s post') : p.Keeps c s fun a t => post a t ∧ post' a t := by
  induction p generalizing s with
  | done a => exact ⟨keeps, keeps'⟩
  | ask request rest ih =>
    exact ⟨keeps.1, fun reply expected =>
      ih reply (keeps.2 reply expected) (keeps'.2 reply expected)⟩
  | panic => exact keeps

theorem Keeps.bind {p : Program B α} {next : α → Program B β} {s : σ} {middle : α → σ → Prop}
    {post : β → σ → Prop} (first : p.Keeps c s middle)
    (second : ∀ a t, middle a t → (next a).Keeps c t post) : (p >>= next).Keeps c s post := by
  -- Over the requests of the first program, each of which moves the state on.
  induction p generalizing s with
  | done a => exact second a s first
  | ask request rest ih =>
    exact ⟨first.1, fun reply expected => ih reply (first.2 reply expected)⟩
  | panic => exact first

/-- What no answer undoes still holds at the end. -/
theorem Keeps.grows {p : Program B α} {s : σ} {post : α → σ → Prop} {le : σ → σ → Prop}
    (refl : ∀ s, le s s) (trans : ∀ {s t u}, le s t → le t u → le s u)
    (next : ∀ s request reply, le s (c.next s request reply)) (keeps : p.Keeps c s post) :
    p.Keeps c s fun a t => post a t ∧ le s t := by
  induction p generalizing s with
  | done a => exact ⟨keeps, refl s⟩
  | ask request rest ih =>
    refine ⟨keeps.1, fun reply expected => (ih reply (keeps.2 reply expected)).imp ?_⟩
    exact fun a t ended => ⟨ended.1, trans (next s request reply) ended.2⟩
  | panic => exact keeps

/-- One request and what follows every expected answer. -/
theorem keeps_call_bind {request : Request B} {next : Reply request → Program B α} {s : σ}
    {post : α → σ → Prop} (owed : c.owes s request)
    (follows : ∀ reply, c.expects s request reply →
      (next reply).Keeps c (c.next s request reply) post) :
    (call request >>= next).Keeps c s post :=
  ⟨owed, follows⟩

/-- A request of which the contract says nothing, whose answer counts. -/
theorem keeps_ignored_bind {request : Request B} {next : Reply request → Program B α} {s : σ}
    {post : α → σ → Prop} (ignored : c.Ignores request)
    (follows : ∀ reply, (next reply).Keeps c s post) :
    (call request >>= next).Keeps c s post :=
  keeps_call_bind (ignored.owes s) fun reply _ => (ignored.next s reply).symm ▸ follows reply

/-! ## Programs that ask only certain requests -/

/-- Every request that the program can come to satisfies `allowed`, and it cannot die. -/
def Asks (allowed : Request B → Prop) : Program B α → Prop
  | .done _ => True
  | .ask request rest => allowed request ∧ ∀ reply, (rest reply).Asks allowed
  | .panic => False

theorem Asks.bind {allowed : Request B → Prop} {p : Program B α} {next : α → Program B β}
    (first : p.Asks allowed) (second : ∀ a, (next a).Asks allowed) :
    (p >>= next).Asks allowed := by
  induction p with
  | done a => exact second a
  | ask request rest ih => exact ⟨first.1, fun reply => ih reply (first.2 reply)⟩
  | panic => exact first

theorem Asks.keeps {allowed : Request B → Prop} {p : Program B α} (asks : p.Asks allowed)
    (ignored : ∀ request, allowed request → c.Ignores request) (s : σ) :
    p.Keeps c s fun _ t => t = s := by
  induction p with
  | done a => rfl
  | ask request rest ih =>
    refine ⟨(ignored request asks.1).owes s, fun reply _ => ?_⟩
    rw [(ignored request asks.1).next s reply]
    exact ih reply (asks.2 reply)
  | panic => exact asks.elim

/-- The contract of programs that ask only certain requests, and may die. -/
def asking (allowed : Request B → Prop) : Contract B Unit where
  owes _ := allowed
  expects _ _ _ := True
  next _ _ _ := ()

/-- Requests that a contract has nothing against at a state, and that leave it there. -/
theorem Keeps.of_asking {allowed : Request B → Prop} {p : Program B α} {s : σ}
    {post : α → Unit → Prop} (asks : p.Keeps (asking allowed) () post) (dies : c.dies)
    (quiet : ∀ request, allowed request →
      c.owes s request ∧ ∀ reply, c.next s request reply = s) :
    p.Keeps c s fun a t => post a () ∧ t = s := by
  induction p with
  | done a => exact ⟨asks, rfl⟩
  | ask request rest ih =>
    obtain ⟨owed, stays⟩ := quiet request asks.1
    refine ⟨owed, fun reply _ => ?_⟩
    rw [stays]
    exact ih reply (asks.2 reply trivial)
  | panic => exact dies

/-! ## Running a program that keeps a contract -/

/-- Surroundings that meet the expectations of a contract, as long as they are paired with its state
by `paired`, bring a program that keeps it to its ending. -/
theorem Keeps.run (answer : Answering B τ) (paired : τ → σ → Prop)
    (meets : ∀ w s request, paired w s → c.owes s request →
      c.expects s request (answer request w).1 ∧
        paired (answer request w).2 (c.next s request (answer request w).1))
    {p : Program B α} {w : τ} {s : σ} {post : α → σ → Prop} (keeps : p.Keeps c s post)
    (start : paired w s) :
    ∃ t, paired (p.run answer w).2 t ∧ ∀ a, (p.run answer w).1 = some a → post a t := by
  -- The world and the state of the contract go on side by side.
  induction p generalizing w s with
  | done a => exact ⟨s, start, fun b same => Option.some.inj same ▸ keeps⟩
  | ask request rest ih =>
    obtain ⟨expected, stays⟩ := meets w s request start keeps.1
    exact ih _ (keeps.2 _ expected) stays
  | panic => exact ⟨s, start, fun b same => nomatch same⟩

/-- A program that keeps a contract, and cannot die, comes to its ending. -/
theorem Keeps.ends (answer : Answering B τ) (paired : τ → σ → Prop)
    (meets : ∀ w s request, paired w s → c.owes s request →
      c.expects s request (answer request w).1 ∧
        paired (answer request w).2 (c.next s request (answer request w).1))
    (alive : ¬ c.dies) {p : Program B α} {w : τ} {s : σ} {post : α → σ → Prop}
    (keeps : p.Keeps c s post) (start : paired w s) :
    ∃ a t v, post a t ∧ paired v t ∧ p.run answer w = (some a, v) := by
  induction p generalizing w s with
  | done a => exact ⟨a, s, w, keeps, start, rfl⟩
  | ask request rest ih =>
    obtain ⟨expected, stays⟩ := meets w s request start keeps.1
    exact ih _ (keeps.2 _ expected) stays
  | panic => exact absurd keeps alive

/-! ## Sending in place -/

/-- A program whose messages are processed in place, if processing one is as good as being
answered. -/
theorem Keeps.inline {send : Send B} {p : Program B α} {s : σ} {post : α → σ → Prop}
    (sends : ∀ delivery s, c.owes s (.send delivery) → (send delivery).Keeps c s fun reply t =>
      c.expects s (.send delivery) reply ∧ t = c.next s (.send delivery) reply)
    (own : p.Keeps c s post) : (send.inline p).Keeps c s post := by
  unfold Send.inline
  induction p generalizing s with
  | done a => exact own
  | panic => exact own
  | ask request rest ih =>
    cases request with
    | send delivery =>
      refine (sends delivery s own.1).bind ?_
      rintro reply t ⟨expected, rfl⟩
      exact ih reply (own.2 reply expected)
    | _ => exact ⟨own.1, fun reply expected => ih reply (own.2 reply expected)⟩

end Program

/-- A request with its answer. -/
structure Exchange (B : Type) where
  request : Request B
  reply : Reply request

namespace Exchange

variable {B : Type}

/-- The document that a lookup found. -/
def found? : Exchange B → Option Document
  | ⟨.find .., .ok (some d)⟩ => some d
  | _ => none

/-- A new instance gets its identifier. -/
def creates : Exchange B → Bool
  | ⟨.freshId, _⟩ => true
  | _ => false

/-- An insert that succeeds. -/
def inserts : Exchange B → Bool
  | ⟨.insert .., .ok _⟩ => true
  | _ => false

/-- A write that succeeds. -/
def commits : Exchange B → Bool
  | ⟨.insert .., .ok _⟩ => true
  | ⟨.update .., .ok _⟩ => true
  | _ => false

/-- A deletion that succeeds. -/
def deletes : Exchange B → Bool
  | ⟨.delete _, .ok ()⟩ => true
  | _ => false

theorem eq_of_inserts {x : Exchange B} (inserts : x.inserts = true) :
    ∃ d values stored, x = ⟨.insert d values, .ok stored⟩ := by
  unfold Exchange.inserts at inserts
  split at inserts
  next d values stored => exact ⟨d, values, stored, rfl⟩
  next => cases inserts

end Exchange

namespace Program

variable {B α σ : Type}

/-- Answers requests and remembers them with their answers, the latest first. -/
def traced (answer : Answering B σ) : Answering B (σ × List (Exchange B)) := fun request s =>
  let (reply, t) := answer request s.1
  (reply, t, ⟨request, reply⟩ :: s.2)

/-- Remembering changes nothing. -/
theorem run_traced (answer : Answering B σ) (p : Program B α) (s : σ)
    (past : List (Exchange B)) :
    (p.run (traced answer) (s, past)).1 = (p.run answer s).1 ∧
      (p.run (traced answer) (s, past)).2.1 = (p.run answer s).2 := by
  induction p generalizing s past with
  | done a => exact ⟨rfl, rfl⟩
  | ask request rest ih => exact ih _ _ _
  | panic => exact ⟨rfl, rfl⟩

end Program

/-! ## Actions of an application -/

/-- Nothing that an action comes to concerns the contract, with messages sent by `send`. -/
structure Contract.IgnoresActs {B σ : Type} (c : Contract B σ) (send : Send B) : Prop where
  send : ∀ delivery s, (send delivery).Keeps c s fun _ t => t = s
  draw : ∀ sequence, c.Ignores (.draw sequence)
  note : ∀ entry, c.Ignores (.note entry)
  shutdown : c.Ignores .shutdown

namespace Act

variable {B α σ : Type} {c : Contract B σ}

/-- Whatever an action ends in satisfies `post`. -/
def Ends (post : α → Prop) : Act B α → Prop
  | .done a => post a
  | .send _ rest => ∀ answer, (rest answer).Ends post
  | .draw _ rest => ∀ n, (rest n).Ends post
  | .note _ rest => rest.Ends post
  | .shutdown rest => rest.Ends post
  | .panic => True

theorem ends_of_forall {post : α → Prop} (always : ∀ a, post a) (act : Act B α) :
    act.Ends post := by
  induction act with
  | done a => exact always a
  | send delivery rest ih => exact ih
  | draw sequence rest ih => exact ih
  | note entry rest ih => exact ih
  | shutdown rest ih => exact ih
  | panic => trivial

/-- The action can end in this. -/
def EndsIn : Act B α → α → Prop
  | .done a, b => b = a
  | .send _ rest, b => ∃ answer, (rest answer).EndsIn b
  | .draw _ rest, b => ∃ n, (rest n).EndsIn b
  | .note _ rest, b => rest.EndsIn b
  | .shutdown rest, b => rest.EndsIn b
  | .panic, _ => False

/-- The action cannot die. -/
def Lives : Act B α → Prop
  | .done _ => True
  | .send _ rest => ∀ answer, (rest answer).Lives
  | .draw _ rest => ∀ n, (rest n).Lives
  | .note _ rest => rest.Lives
  | .shutdown rest => rest.Lives
  | .panic => False

/-- An action under a contract that does not mind what actions come to, nor how they send. -/
theorem Ends.keeps {post : α → Prop} {send : Send B} {act : Act B α} (ends : act.Ends post)
    (lives : c.dies ∨ act.Lives) (ignores : c.IgnoresActs send) (s : σ) :
    (act.program send).Keeps c s fun a t => post a ∧ t = s := by
  induction act with
  | done a => exact ⟨ends, rfl⟩
  | send delivery rest ih =>
    refine (ignores.send delivery s).bind fun answer t same => ?_
    subst same
    exact ih answer (ends answer) (lives.imp_right fun lives => lives answer)
  | draw sequence rest ih =>
    exact Program.keeps_ignored_bind (ignores.draw sequence) fun n =>
      ih n (ends n) (lives.imp_right fun lives => lives n)
  | note entry rest ih =>
    exact Program.keeps_ignored_bind (ignores.note entry) fun _ => ih ends lives
  | shutdown rest ih =>
    exact Program.keeps_ignored_bind ignores.shutdown fun _ => ih ends lives
  | panic => exact lives.elim id False.elim

/-- An action that only notes things, under a contract that does not mind what is noted. -/
theorem Notes.keeps {act : Act B α} (notes : act.Notes)
    (ignores : ∀ entry, c.Ignores (.note entry)) (send : Send B) (s : σ) :
    (act.program send).Keeps c s fun a t => act.EndsIn a ∧ t = s := by
  induction act with
  | done a => exact ⟨rfl, rfl⟩
  | note entry rest ih =>
    exact Program.keeps_ignored_bind (ignores entry) fun _ => ih notes
  | send | draw | shutdown | panic => exact notes.elim

end Act

end Sagas
