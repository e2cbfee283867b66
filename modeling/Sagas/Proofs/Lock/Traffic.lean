import Sagas.Demo.Tally
import Sagas.Proofs.Lock.Keyring

/-!
# Messages over one lock

Threads process messages over one lock. A message that a handler sends runs on top of its sender,
which waits for it, and may send further ones. Threads take turns in any order, and whatever does
not concern the lock is answered in any way: by any storage, with any rules. The lock may refuse a
key at any time, be it free or not, as it does when the time is up or waiting is called off.

Results:
1. `Moves.sound`, `Turn.sound`: a turn keeps every message on the way of its contract, and the keys
   of all messages apart.
2. `keys_have_owners`: every key that is held is held by exactly one message on its way.
-/

namespace Sagas

variable {ι D B α : Type}

/-- A message that a handler of this one sends: on the same bus, under a token of its own. -/
def Job.nested (job : Job D B) (delivery : Delivery B) : Job D B :=
  { job with delivery, pooled := false }

namespace Party

/-- The keys that a message has acquired and not given back since. -/
def keys (party : Party B α) : List String :=
  Lock.holding party.past

def Finished (party : Party B α) : Prop :=
  ∃ r, party.program = .done r

/-- Whatever key a message gave back, it had it then, and was told that it was held. -/
def ReleasesOwn (party : Party B α) : Prop :=
  ∀ later key reply earlier, party.past = later ++ ⟨.release key, reply⟩ :: earlier →
    key ∈ Lock.holding earlier ∧ reply = .ok true

theorem ReleasesOwn.cons {past : List (Exchange B)} {p q : Program B α} {x : Exchange B}
    (releases : ReleasesOwn ⟨past, p⟩)
    (now : ∀ key reply, x = ⟨.release key, reply⟩ → key ∈ Lock.holding past ∧ reply = .ok true) :
    ReleasesOwn ⟨x :: past, q⟩ := by
  intro later key reply earlier split
  cases later with
  | nil =>
    obtain ⟨rfl, rfl⟩ := List.cons.inj split
    exact now key reply rfl
  | cons y later =>
    obtain ⟨-, split⟩ := List.cons.inj split
    exact releases later key reply earlier split

end Party

/-! ## Threads -/

structure Traffic (ι D B : Type) where
  /-- The keys that the lock holds. -/
  held : List String
  /-- The messages of each thread, the innermost first. -/
  threads : ι → List (Party B (Processed D B))

namespace Traffic

def start (jobs : ι → Job D B) : Traffic ι D B :=
  ⟨[], fun k => [.start (jobs k).program]⟩

/-- What a turn makes of the keys that are held and of the messages of one thread. -/
inductive Moves (job : Job D B) (held : List String) :
    List (Party B (Processed D B)) → List String → List (Party B (Processed D B)) → Prop
  /-- The innermost message has a request answered. -/
  | asks {past : List (Exchange B)} {request : Request B}
      {rest : Reply request → Program B (Processed D B)} {reply : Reply request}
      {below : List (Party B (Processed D B))} {held' : List String} :
      (∀ delivery, request ≠ .send delivery) → Lock.Answers held request reply held' →
      Moves job held (⟨past, .ask request rest⟩ :: below) held'
        (⟨⟨request, reply⟩ :: past, rest reply⟩ :: below)
  /-- A handler sends a message, which comes first. -/
  | sends {past : List (Exchange B)} {delivery : Delivery B}
      {rest : Except SagaError Unit → Program B (Processed D B)}
      {below : List (Party B (Processed D B))} :
      Moves job held (⟨past, .ask (.send delivery) rest⟩ :: below) held
        (.start (job.nested delivery).program :: ⟨past, .ask (.send delivery) rest⟩ :: below)
  /-- A message that was sent has ended, and its sender is told in what. -/
  | returns {inner past : List (Exchange B)} {m : Incoming D B} {answer : Except SagaError Unit}
      {delivery : Delivery B} {rest : Except SagaError Unit → Program B (Processed D B)}
      {below : List (Party B (Processed D B))} :
      Moves job held (⟨inner, .done (m, answer)⟩ :: ⟨past, .ask (.send delivery) rest⟩ :: below)
        held (⟨⟨.send delivery, answer⟩ :: past, rest answer⟩ :: below)

structure Turn (jobs : ι → Job D B) (before after : Traffic ι D B) (k : ι) : Prop where
  moves : Moves (jobs k) before.held (before.threads k) after.held (after.threads k)
  others : ∀ j, j ≠ k → after.threads j = before.threads j

/-- The states that turns lead to, in any order. -/
inductive Run (jobs : ι → Job D B) : Traffic ι D B → Prop
  | start : Run jobs (start jobs)
  | turn {before after : Traffic ι D B} {k : ι} :
      Run jobs before → Turn jobs before after k → Run jobs after

/-- The keys of all messages of a thread. -/
def keys (t : Traffic ι D B) (k : ι) : List String :=
  (t.threads k).flatMap Party.keys

variable {jobs : ι → Job D B} {t before after : Traffic ι D B} {k : ι}

/-! ## What turns keep -/

/-- A message on the way of its contract, which has given back only keys of its own. -/
structure Kept (party : Party B (Processed D B)) : Prop where
  keeps : party.program.Keeps (keyring false) party.keys fun _ own => own = []
  releases : party.ReleasesOwn

theorem Kept.start (job : Job D B) : Kept (.start job.program) where
  keeps := job.keeps_keyring []
  releases := fun later _ _ _ split => by cases later <;> cases split

theorem Kept.finished {party : Party B (Processed D B)} (kept : Kept party)
    (finished : party.Finished) : party.keys = [] := by
  obtain ⟨r, done⟩ := finished
  have keeps := kept.keeps
  rw [done] at keeps
  exact keeps

/-- The keys that are held are those of the messages, each of which is on the way of its
contract. -/
structure Sound (t : Traffic ι D B) : Prop where
  owned : Lock.Owned t.held t.keys
  kept : ∀ k, ∀ party ∈ t.threads k, Kept party

theorem sound_start (jobs : ι → Job D B) : Sound (start jobs) where
  owned := .start
  kept k party member := by
    cases List.mem_singleton.1 member
    exact .start (jobs k)

/-- A message whose keys are held by the lock has a request answered. -/
theorem Kept.answered {past : List (Exchange B)} {request : Request B}
    {rest : Reply request → Program B (Processed D B)} {reply : Reply request}
    {held held' : List String} (kept : Kept ⟨past, .ask request rest⟩)
    (within : Lock.holding past ⊆ held) (answers : Lock.Answers held request reply held') :
    Kept ⟨⟨request, reply⟩ :: past, rest reply⟩ where
  keeps := kept.keeps.2 reply (expects_of_answers within answers)
  releases := kept.releases.cons fun key reply' same => by
    cases same
    have latest : (Lock.holding past).head? = some key := kept.keeps.1
    have mine : key ∈ Lock.holding past := List.mem_of_mem_head? latest
    exact ⟨mine, by rw [answers.1, List.contains_iff_mem.2 (within mine)]⟩

/-- A move is an answer of the lock, as far as the keys of the thread go. -/
theorem Moves.sound {job : Job D B} {held held' : List String}
    {now later : List (Party B (Processed D B))} (moves : Moves job held now held' later)
    (within : now.flatMap Party.keys ⊆ held) (kept : ∀ party ∈ now, Kept party) :
    (∀ party ∈ later, Kept party) ∧ ∃ (request : Request B) (reply : Reply request),
      Lock.Answers held request reply held' ∧
      (∀ key, request = .release key → key ∈ now.flatMap Party.keys) ∧
      later.flatMap Party.keys = Lock.keysAfter (now.flatMap Party.keys) request reply := by
  cases moves with
  | @asks past request rest reply below _ quiet answers =>
    obtain ⟨first, others⟩ := List.forall_mem_cons.1 kept
    rw [List.flatMap_cons] at within ⊢
    obtain ⟨mine, -⟩ := List.append_subset.1 within
    have latest : ∀ key, request = .release key → key ∈ Lock.holding past := by
      rintro key rfl
      exact List.mem_of_mem_head? first.keeps.1
    refine ⟨List.forall_mem_cons.2 ⟨first.answered mine answers, others⟩, request, reply, answers,
      fun key same => List.mem_append_left _ (latest key same), ?_⟩
    exact (Lock.keysAfter_append latest).symm
  | @sends past delivery rest below =>
    refine ⟨List.forall_mem_cons.2 ⟨.start _, kept⟩, .send delivery, .ok (), rfl, nofun, ?_⟩
    rfl
  | @returns inner past m answer delivery rest below =>
    obtain ⟨sent, kept⟩ := List.forall_mem_cons.1 kept
    obtain ⟨sender, others⟩ := List.forall_mem_cons.1 kept
    have none : (⟨inner, .done (m, answer)⟩ : Party B (Processed D B)).keys = [] :=
      sent.finished ⟨_, rfl⟩
    rw [List.flatMap_cons, none, List.nil_append] at within ⊢
    have told : Kept ⟨⟨.send delivery, answer⟩ :: past, rest answer⟩ :=
      sender.answered (List.append_subset.1 within).1 rfl
    exact ⟨List.forall_mem_cons.2 ⟨told, others⟩, .send delivery, answer, rfl, nofun, rfl⟩

theorem Turn.sound (turn : Turn jobs before after k) (sound : Sound before) : Sound after := by
  obtain ⟨moves, others⟩ := turn
  have within : before.keys k ⊆ before.held := fun key mine =>
    (sound.owned.held_iff key).2 ⟨k, mine⟩
  obtain ⟨kept, request, reply, answers, mine, keys⟩ := moves.sound within (sound.kept k)
  refine ⟨sound.owned.turn answers mine keys fun j other => ?_, fun j => ?_⟩
  · unfold Traffic.keys
    rw [others j other]
  · by_cases moves : j = k
    · exact moves ▸ kept
    · rw [others j moves]
      exact sound.kept j

theorem Run.sound (run : Run jobs t) : Sound t := by
  induction run with
  | start => exact sound_start jobs
  | turn _ turn ih => exact turn.sound ih

end Traffic

/-- Who holds the keys of the lock. -/
structure Traffic.HasOwners (t : Traffic ι D B) : Prop where
  nodup : t.held.Nodup
  /-- The keys that are held are those of messages on their way. -/
  held_iff : ∀ key, key ∈ t.held ↔
    ∃ k, ∃ party ∈ t.threads k, ¬ party.Finished ∧ key ∈ party.keys
  /-- Messages of two threads have no key in common. -/
  apart : ∀ j k, j ≠ k → ∀ p ∈ t.threads j, ∀ q ∈ t.threads k, p.keys.Disjoint q.keys
  /-- Nor have a message and one that it has sent. -/
  nested : ∀ k, (t.threads k).Pairwise fun p q => p.keys.Disjoint q.keys
  once : ∀ k, ∀ party ∈ t.threads k, party.keys.Nodup
  finished : ∀ k, ∀ party ∈ t.threads k, party.Finished → party.keys = []
  released : ∀ k, ∀ party ∈ t.threads k, party.ReleasesOwn

/-- At every moment the lock holds the keys that messages on their way have acquired and not given
back, and each of them belongs to one message. No message gives back a key that is not its own, be
it one that it had asked for in vain. -/
theorem keys_have_owners {jobs : ι → Job D B} {t : Traffic ι D B} (run : t.Run jobs) :
    t.HasOwners := by
  have sound := run.sound
  have each := fun k => List.nodup_flatMap.1 (sound.owned.each k)
  refine ⟨sound.owned.nodup, fun key => ?_, fun j k differs p first q second => ?_,
    fun k => (each k).2, fun k => (each k).1,
    fun k party member => (sound.kept k party member).finished,
    fun k party member => (sound.kept k party member).releases⟩
  · rw [sound.owned.held_iff]
    constructor
    · rintro ⟨k, mine⟩
      obtain ⟨party, member, mine⟩ := List.mem_flatMap.1 mine
      refine ⟨k, party, member, fun finished => ?_, mine⟩
      rw [(sound.kept k party member).finished finished] at mine
      cases mine
    · rintro ⟨k, party, member, -, mine⟩
      exact ⟨k, List.mem_flatMap.2 ⟨party, member, mine⟩⟩
  · intro key mine others
    exact sound.owned.apart j k differs (List.mem_flatMap.2 ⟨p, first, mine⟩)
      (List.mem_flatMap.2 ⟨q, second, others⟩)

/-! ## Taking turns by a schedule -/

namespace Traffic

variable [DecidableEq ι]

/-- The turn of one thread. A key that is held is refused, and all calls but those of the lock are
answered as the surroundings say. -/
def move (jobs : ι → Job D B) (others : (request : Request B) → Reply request)
    (t : Traffic ι D B) (k : ι) : Traffic ι D B :=
  let put (held : List String) (thread : List (Party B (Processed D B))) : Traffic ι D B :=
    ⟨held, fun j => if j = k then thread else t.threads j⟩
  match t.threads k with
  | ⟨past, .ask (.send delivery) rest⟩ :: below =>
    put t.held (.start ((jobs k).nested delivery).program ::
      ⟨past, .ask (.send delivery) rest⟩ :: below)
  | ⟨past, .ask request rest⟩ :: below =>
    let (reply, held) := Lock.serve others t.held request
    put held (⟨⟨request, reply⟩ :: past, rest reply⟩ :: below)
  | ⟨_, .done (_, answer)⟩ :: ⟨past, .ask (.send delivery) rest⟩ :: below =>
    put t.held (⟨⟨.send delivery, answer⟩ :: past, rest answer⟩ :: below)
  | _ => t

theorem Run.move {jobs : ι → Job D B} {t : Traffic ι D B} (run : t.Run jobs)
    (others : (request : Request B) → Reply request) (k : ι) : (t.move jobs others k).Run jobs := by
  unfold Traffic.move
  split
  next past delivery rest below thread =>
    refine run.turn (k := k) ⟨?_, fun j other => if_neg other⟩
    rw [thread]
    simpa using Moves.sends
  next past request rest below quiet thread =>
    refine run.turn (k := k) ⟨?_, fun j other => if_neg other⟩
    rw [thread]
    have other : ∀ delivery, request ≠ .send delivery := by
      rintro delivery rfl
      exact quiet delivery rest rfl HEq.rfl
    simpa using Moves.asks other (Lock.answers_serve others t.held request)
  next inner m answer past delivery rest below thread =>
    refine run.turn (k := k) ⟨?_, fun j other => if_neg other⟩
    rw [thread]
    simpa using Moves.returns
  next => exact run

theorem Run.play {jobs : ι → Job D B} {t : Traffic ι D B} (run : t.Run jobs)
    (others : (request : Request B) → Reply request) (schedule : List ι) :
    (schedule.foldl (Traffic.move jobs others) t).Run jobs := by
  induction schedule generalizing t with
  | nil => exact run
  | cons k rest ih => exact ih (run.move others k)

end Traffic

/-! ## A posting that is passed on -/

section Tally

open Demo

/-- Posts to a tally, and passes the posting on to another one. -/
def passingOn (name : String) : Saga Tally Posting :=
  { Tally.saga false with
    handle := fun m _ inst => if m.body.name = name then .done ⟨inst.data, false, true, .ok ()⟩ else
      .send (Tally.post name m.body.amount) fun answer =>
        .done ⟨inst.data, false, false, answer.mapError fun _ => "not passed on"⟩ }

/-- One message is passed on, another one is not. -/
def passedOn (second : Bool) : Job Tally Posting :=
  ⟨.default, true, .logAndSkip, Registry.empty.add "demo.post" (.saga (passingOn "food")),
    Tally.post (if second then "food" else "rent") 5, false⟩

/-- The first message has passed its posting on, and the second one wants the same key. -/
def passed : Traffic Bool Tally Posting :=
  (List.replicate 12 false ++ List.replicate 4 true).foldl
    (Traffic.move passedOn (obliging (Tally.number 1))) (.start passedOn)

/-- A message and the one that it has sent hold one key each, and the third message, which has asked
for one of them in vain, has ended without. -/
theorem passed_keys_have_owners : passed.HasOwners ∧
    (passed.threads false).map Party.keys = [["demo.tally:Name:food"], ["demo.tally:Name:rent"]] ∧
    (passed.threads true).map Party.keys = [[]] :=
  ⟨keys_have_owners (Traffic.Run.start.play (obliging (Tally.number 1)) _), by decide +kernel,
    by decide +kernel⟩

end Tally

end Sagas
