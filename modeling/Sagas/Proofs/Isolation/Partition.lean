import Sagas.Proofs.Committing
import Sagas.Proofs.Crew

/-!
# Programs that keep to some data types

The partitions of a store are independent: a call for one data type neither reads nor changes the
partition of another. So a program that makes no call for a data type leaves its partition as it
is, and a program that makes calls for one data type only does the same over every store with the
same partition.

Results:
1. `Reaches.bind_cases`: where a program comes to that is made of two.
2. `Reaches.elsewhere`: a partition of which a program makes no use.
3. `Reaches.transfer`: a program over another store with the same partition.
-/

namespace Sagas

variable {B α β : Type}

/-- Whether a request is a call for this data type. -/
def Request.concerns (dataType : String) : Request B → Bool
  | .find type .. => type = dataType
  | .insert d _ | .update d _ | .delete d => d.dataType = dataType
  | _ => false

/-- The calls for a data type among exchanges. -/
def callsFor (dataType : String) (past : List (Exchange B)) : List (Exchange B) :=
  past.filter (·.request.concerns dataType)

namespace Program

/-! ## Running alone -/

/-- Where a program comes to that runs alone over a store, with what it asked so far, the latest
first, and the store there. -/
inductive Reaches (p : Program B α) (s : Store) : List (Exchange B) → Program B α → Store → Prop
  | start : Reaches p s [] p s
  | step {past : List (Exchange B)} {request : Request B} {rest : Reply request → Program B α}
      {t u : Store} {reply : Reply request} :
      Reaches p s past (.ask request rest) t → t.Answers request reply u →
      Reaches p s (⟨request, reply⟩ :: past) (rest reply) u

variable {p q r : Program B α} {s t u : Store} {past later : List (Exchange B)}

theorem Reaches.trans (first : p.Reaches s past q t) (second : q.Reaches t later r u) :
    p.Reaches s (later ++ past) r u := by
  induction second with
  | start => exact first
  | step _ answers ih => exact .step ih answers

theorem Reaches.bind (reaches : p.Reaches s past q t) (next : α → Program B β) :
    (p >>= next).Reaches s past (q >>= next) t := by
  induction reaches with
  | start => exact .start
  | step _ answers ih => exact .step ih answers

theorem reaches_done {a : α} (reaches : (done a : Program B α).Reaches s past q t) :
    past = [] ∧ q = .done a ∧ t = s := by
  induction reaches with
  | start => exact ⟨rfl, rfl, rfl⟩
  | step _ _ ih => exact nomatch ih.2.1

theorem reaches_panic (reaches : (panic : Program B α).Reaches s past q t) :
    past = [] ∧ q = .panic ∧ t = s := by
  induction reaches with
  | start => exact ⟨rfl, rfl, rfl⟩
  | step _ _ ih => exact nomatch ih.2.1

/-- A program made of two is on the way in the first, or has finished it and is on the way in the
second. -/
theorem Reaches.bind_cases {next : α → Program B β} {q : Program B β}
    (reaches : (p >>= next).Reaches s past q t) :
    (∃ p', p.Reaches s past p' t ∧ q = (p' >>= next) ∧ ∀ b, q ≠ .done b) ∨
      ∃ a early u late, p.Reaches s early (.done a) u ∧ (next a).Reaches u late q t ∧
        past = late ++ early := by
  -- A first program that has just finished counts as finished.
  have sort : ∀ {p' : Program B α} {past : List (Exchange B)} {t : Store},
      p.Reaches s past p' t → (∃ p'', p.Reaches s past p'' t ∧ (p' >>= next) = (p'' >>= next) ∧
          ∀ b, (p' >>= next) ≠ .done b) ∨
        ∃ a early u late, p.Reaches s early (.done a) u ∧ (next a).Reaches u late (p' >>= next) t ∧
          past = late ++ early := by
    intro p' past t first
    cases p' with
    | done a => exact .inr ⟨a, past, t, [], first, .start, rfl⟩
    | ask request rest => exact .inl ⟨_, first, rfl, nofun⟩
    | panic => exact .inl ⟨_, first, rfl, nofun⟩
  generalize whole : (p >>= next) = w at reaches
  induction reaches with
  | start => exact whole ▸ sort .start
  | @step past request rest t u reply _ answers ih =>
    rcases ih with ⟨p', first, same, -⟩ | ⟨a, early, v, late, first, second, rfl⟩
    · cases p' with
      | done a =>
        rw [done_bind] at same
        refine .inr ⟨a, past, t, [⟨request, reply⟩], first, ?_, rfl⟩
        exact .step (same ▸ .start) answers
      | ask request' rest' =>
        rw [ask_bind] at same
        cases same
        exact sort (.step first answers)
      | panic => cases same
    · exact .inr ⟨a, early, v, _, first, .step second answers, rfl⟩

/-- A program that asks for nothing but what can always be answered without the store comes to its
end. -/
theorem Asks.completes {allowed : Request B → Prop} (asks : p.Asks allowed)
    (silent : ∀ request, allowed request → ∃ reply, ∀ s : Store, s.Answers request reply s)
    (s : Store) : ∃ past a, p.Reaches s past (.done a) s := by
  induction p with
  | done a => exact ⟨[], a, .start⟩
  | ask request rest ih =>
    obtain ⟨reply, answers⟩ := silent request asks.1
    obtain ⟨past, a, reaches⟩ := ih reply (asks.2 reply)
    exact ⟨_, a, (Reaches.start.step (answers s)).trans reaches⟩
  | panic => exact asks.elim

end Program

/-! ## Keeping to data types -/

/-- The contract of a program that makes calls for certain data types only. -/
def keepingTo (allowed : String → Prop) : Contract B Unit where
  owes _
    | .find type .. => allowed type
    | .insert d _ | .update d _ | .delete d => allowed d.dataType
    | _ => True
  expects _ _ _ := True
  next _ _ _ := ()

variable {allowed : String → Prop} {dataType : String} {request : Request B}

theorem keepingTo_ignores : (keepingTo (B := B) allowed).IgnoresSurroundings where
  send _ _ := ⟨trivial, fun _ _ => rfl⟩
  draw _ := ⟨fun _ => trivial, fun _ _ => rfl⟩
  note _ := ⟨fun _ => trivial, fun _ _ => rfl⟩
  shutdown := ⟨fun _ => trivial, fun _ _ => rfl⟩
  acquire _ _ := ⟨fun _ => trivial, fun _ _ => rfl⟩
  release _ := ⟨fun _ => trivial, fun _ _ => rfl⟩

theorem keepingTo_ignores_count (counter : Counter) :
    (keepingTo (B := B) allowed).Ignores (.count counter) :=
  ⟨fun _ => trivial, fun _ _ => rfl⟩

theorem concerns_eq_false (owed : (keepingTo allowed).owes () request)
    (other : ¬ allowed dataType) : request.concerns dataType = false := by
  cases request with
  | find type property value => exact decide_eq_false fun same => other (same ▸ owed)
  | insert d values => exact decide_eq_false fun same => other (same ▸ owed)
  | update d values => exact decide_eq_false fun same => other (same ▸ owed)
  | delete d => exact decide_eq_false fun same => other (same ▸ owed)
  | _ => rfl

namespace Store

variable {s t s' : Store} {reply : Reply request}

theorem partition_of_insert (d : Document) (values : List PropertyValue)
    (other : dataType ≠ d.dataType) :
    (s.insert d values).2.partition dataType = s.partition dataType := by
  rw [insert_eq]
  split
  next => rfl
  next =>
    split
    next => rfl
    next => simp [partition_setPartition, other]

theorem partition_of_update (d : Document) (values : List PropertyValue)
    (other : dataType ≠ d.dataType) :
    (s.update d values).2.partition dataType = s.partition dataType := by
  rw [update_eq]
  split
  next => rfl
  next => simp [partition_setPartition, other]

theorem partition_of_delete (d : Document) (other : dataType ≠ d.dataType) :
    (s.delete d).2.partition dataType = s.partition dataType := by
  unfold delete
  split
  next => rfl
  next => simp [partition_setPartition, other]

/-- A call for other data types leaves a partition as it is. -/
theorem Answers.elsewhere (answers : s.Answers request reply t)
    (owed : (keepingTo allowed).owes () request) (other : ¬ allowed dataType) :
    t.partition dataType = s.partition dataType := by
  have apart : ∀ {type : String}, allowed type → dataType ≠ type := fun isAllowed same =>
    other (same ▸ isAllowed)
  cases request with
  | find type property value => rw [answers.2]
  | insert d values =>
    rw [← show (s.insert d values).2 = t from congrArg Prod.snd answers]
    exact partition_of_insert d values (apart owed)
  | update d values =>
    rw [← show (s.update d values).2 = t from congrArg Prod.snd answers]
    exact partition_of_update d values (apart owed)
  | delete d =>
    rw [← show (s.delete d).2 = t from congrArg Prod.snd answers]
    exact partition_of_delete d (apart owed)
  | _ => rw [show t = s from answers]

/-- What a call for a data type comes to depends on its partition alone. -/
theorem Answers.transfer (answers : s.Answers request reply t)
    (owed : (keepingTo (· = dataType)).owes () request)
    (same : s'.partition dataType = s.partition dataType) :
    ∃ t', s'.Answers request reply t' ∧ t'.partition dataType = t.partition dataType := by
  cases request with
  | find type property value =>
    obtain rfl : type = dataType := owed
    obtain ⟨found, rfl⟩ := answers
    refine ⟨s', ⟨?_, rfl⟩, same⟩
    rw [found, find, find, same]
  | insert d values =>
    obtain rfl : d.dataType = dataType := owed
    obtain ⟨rfl, rfl⟩ := Prod.mk.inj ((Prod.eta (s.insert d values)).trans answers)
    refine ⟨(s'.insert d values).2, ?_, ?_⟩
    · show s'.insert d values = _
      rw [insert_eq, insert_eq, same]
      split <;> [rfl; (split <;> rfl)]
    · rw [insert_eq, insert_eq, same]
      split
      next => exact same
      next => split <;> simp [partition_setPartition, same]
  | update d values =>
    obtain rfl : d.dataType = dataType := owed
    obtain ⟨rfl, rfl⟩ := Prod.mk.inj ((Prod.eta (s.update d values)).trans answers)
    refine ⟨(s'.update d values).2, ?_, ?_⟩
    · show s'.update d values = _
      rw [update_eq, update_eq, same]
      split <;> rfl
    · rw [update_eq, update_eq, same]
      split <;> simp [partition_setPartition, same]
  | delete d =>
    obtain rfl : d.dataType = dataType := owed
    obtain ⟨rfl, rfl⟩ := Prod.mk.inj (show ((s.delete d).1, (s.delete d).2) = _ from answers)
    refine ⟨(s'.delete d).2, ?_, ?_⟩
    · show s'.delete d = _
      unfold delete
      rw [same]
      split <;> rfl
    · unfold delete
      rw [same]
      split <;> simp [partition_setPartition, same]
  | _ =>
    obtain rfl : t = s := answers
    exact ⟨s', rfl, same⟩

end Store

namespace Program

variable {p q : Program B α} {s t s' : Store} {past : List (Exchange B)} {post : α → Unit → Prop}

theorem Reaches.keeps (reaches : p.Reaches s past q t)
    (keeps : p.Keeps (keepingTo allowed) () post) :
    q.Keeps (keepingTo allowed) () post := by
  induction reaches with
  | start => exact keeps
  | step _ _ ih => exact ih.2 _ trivial

theorem Reaches.elsewhere (reaches : p.Reaches s past q t)
    (keeps : p.Keeps (keepingTo allowed) () post) (other : ¬ allowed dataType) :
    t.partition dataType = s.partition dataType ∧ callsFor dataType past = [] := by
  induction reaches with
  | start => exact ⟨rfl, rfl⟩
  | step reaches answers ih =>
    have owed := (reaches.keeps keeps).1
    refine ⟨(answers.elsewhere owed other).trans ih.1, ?_⟩
    rw [callsFor, List.filter_cons_of_neg (by simp [concerns_eq_false owed other])]
    exact ih.2

theorem Reaches.transfer (reaches : p.Reaches s past q t)
    (keeps : p.Keeps (keepingTo (· = dataType)) () post)
    (same : s'.partition dataType = s.partition dataType) :
    ∃ t', p.Reaches s' past q t' ∧ t'.partition dataType = t.partition dataType := by
  induction reaches with
  | start => exact ⟨s', .start, same⟩
  | step reaches answers ih =>
    obtain ⟨t', reaches', agree⟩ := ih
    obtain ⟨u', answers', agree'⟩ := answers.transfer (reaches.keeps keeps).1 agree
    exact ⟨u', .step reaches' answers', agree'⟩

end Program

end Sagas
