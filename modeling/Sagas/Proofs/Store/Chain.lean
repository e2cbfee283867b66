import Sagas.Proofs.Store.Calls

/-!
# The chain of revisions

What a sequence of calls stores under one identity is read off the log of the calls: every granted
insert or update adds a document, and a granted deletion ends the chain. From the insert on, the
revisions of these documents count up from zero by one, whatever else is called in between.

Results:
1. `Effect.of_call`, `Effect.faithful`: the answer to a call says what the call has done.
2. `Grown.step`: one call adds a link to a chain, ends it, or leaves it alone.
3. `revisions_count_updates`: the chain of every identity, after any calls.
-/

namespace Sagas

namespace Store

/-- What a call with this answer makes of a store. -/
inductive Effect (s : Store) : Call → Result → Store → Prop
  | looked (dataType property : String) (value : Scalar) (d : Option Document) :
      Effect s (.find dataType property value) (.found d) s
  | refused (c : Call) : Effect s c .refused s
  | inserted {d : Document} {values : List PropertyValue} {t : Store}
      (inserts : s.Inserts d values t) : Effect s (.insert d values) (.stored d) t
  | updated {d : Document} {values : List PropertyValue} {old : Row} {t : Store}
      (updates : s.Updates d values old t) :
      Effect s (.update d values) (.stored { d with revision := d.revision.next }) t
  | deleted {d : Document} {old : Row} {t : Store} (deletes : s.Deletes d old t) :
      Effect s (.delete d) .deleted t

theorem Effect.of_call (s : Store) (c : Call) : s.Effect c (call c s).1 (call c s).2 := by
  cases c with
  | find dataType property value => exact .looked dataType property value _
  | insert d values =>
    rcases s.insert_cases d values with ⟨e, failed⟩ | ⟨done, inserts⟩
    · simp only [call, failed]
      exact .refused _
    · simp only [call, done]
      exact .inserted inserts
  | update d values =>
    rcases s.update_cases d values with ⟨reason, failed⟩ | ⟨old, done, updates⟩
    · simp only [call, failed]
      exact .refused _
    · simp only [call, done]
      exact .updated updates
  | delete d =>
    rcases s.delete_cases d with ⟨reason, failed⟩ | ⟨old, done, deletes⟩
    · simp only [call, failed]
      exact .refused _
    · simp only [call, done]
      exact .deleted deletes

/-! ## Chains -/

/-- The chain of an identity after one more call: the calls that have stored a document since the
last deletion, each with what it stored. -/
def extend (dataType : String) (id : Uuid) (chain : List (Call × Document)) :
    Call × Result → List (Call × Document)
  | (c, .stored now) =>
    if dataType = now.dataType ∧ id = now.id then chain ++ [(c, now)] else chain
  | (.delete d, .deleted) => if dataType = d.dataType ∧ id = d.id then [] else chain
  | _ => chain

/-- The chain of an identity at the end of a log. -/
def chainOf (dataType : String) (id : Uuid) (log : List (Call × Result)) :
    List (Call × Document) :=
  log.foldl (extend dataType id) []

/-- How the document of a row came to be. -/
structure Chain (chain : List (Call × Document)) (stored : Document) : Prop where
  /-- One insert, and then updates only. -/
  calls : ∃ d values later, chain = (.insert d values, d) :: later ∧
    ∀ link ∈ later, ∃ e values, link.1 = .update e values ∧
      link.2 = { e with revision := e.revision.next }
  revisions : chain.map (·.2.revision.number) = List.range chain.length
  last : chain.getLast?.map (·.2) = some stored

variable {s t : Store} {dataType : String} {id : Uuid} {chain : List (Call × Document)}
  {stored : Document} {c : Call} {r : Result}

/-- The chain is as long as the revision that is stored says. -/
theorem Chain.length_eq (links : Chain chain stored) :
    chain.length = stored.revision.number + 1 := by
  have ends : (chain.map (·.2.revision.number)).getLast? = some stored.revision.number := by
    obtain ⟨link, final, same⟩ := Option.map_eq_some_iff.1 links.last
    rw [List.getLast?_map, final, Option.map_some, same]
  rw [links.revisions, List.getLast?_range] at ends
  split at ends
  next => cases ends
  next filled =>
    have final := Option.some.inj ends
    omega

theorem Chain.start (d : Document) (values : List PropertyValue) (initial : d.revision = .initial) :
    Chain [(.insert d values, d)] d := by
  refine ⟨⟨d, values, [], rfl, List.forall_mem_nil _⟩, ?_, rfl⟩
  rw [List.map_singleton, initial]
  rfl

theorem Chain.update (links : Chain chain stored) {e : Document} (values : List PropertyValue)
    (token : e.revision = stored.revision) :
    Chain (chain ++ [(.update e values, { e with revision := e.revision.next })])
      { e with revision := e.revision.next } where
  calls := by
    obtain ⟨d, first, later, rfl, updates⟩ := links.calls
    refine ⟨d, first, _, rfl, fun link member => ?_⟩
    rcases List.mem_append.1 member with before | new
    · exact updates link before
    · rw [List.mem_singleton.1 new]
      exact ⟨e, values, rfl, rfl⟩
  revisions := by
    have next : e.revision.next.number = chain.length := by
      rw [token, links.length_eq]
      rfl
    simp [links.revisions, List.range_succ, next]
  last := by simp

/-- An identity is not in the store and has no chain, or its chain leads to what is stored. -/
def Grown (s : Store) (dataType : String) (id : Uuid) (chain : List (Call × Document)) : Prop :=
  s.row? dataType id = none ∧ chain = [] ∨
    ∃ row, s.row? dataType id = some row ∧ Chain chain row.document

theorem Grown.congr (grown : s.Grown dataType id chain)
    (same : t.row? dataType id = s.row? dataType id) : t.Grown dataType id chain := by
  unfold Grown
  rw [same]
  exact grown

theorem Grown.step (grown : s.Grown dataType id chain) (effect : s.Effect c r t) :
    t.Grown dataType id (extend dataType id chain (c, r)) := by
  cases effect with
  | looked => exact grown
  | refused => cases c <;> exact grown
  | @inserted d values _ inserts =>
    simp only [extend]
    split
    next here =>
      obtain ⟨rfl, rfl⟩ := here
      refine .inr ⟨_, (inserts.row _ _).trans (if_pos ⟨rfl, rfl⟩), ?_⟩
      rcases grown with ⟨-, none⟩ | ⟨row, present, -⟩
      · rw [none]
        exact .start d values inserts.initial
      · exact nomatch inserts.absent.symm.trans present
    next other =>
      exact grown.congr ((inserts.row _ _).trans (if_neg other))
  | @updated d values old _ updates =>
    simp only [extend]
    split
    next here =>
      obtain ⟨rfl, rfl⟩ := here
      refine .inr ⟨_, (updates.row _ _).trans (if_pos ⟨rfl, rfl⟩), ?_⟩
      rcases grown with ⟨absent, -⟩ | ⟨row, present, links⟩
      · exact nomatch absent.symm.trans updates.present
      · cases present.symm.trans updates.present
        exact links.update values updates.agrees
    next other =>
      exact grown.congr ((updates.row _ _).trans (if_neg other))
  | @deleted d old _ deletes =>
    simp only [extend]
    split
    next here =>
      obtain ⟨rfl, rfl⟩ := here
      exact .inl ⟨(deletes.row _ _).trans (if_pos ⟨rfl, rfl⟩), rfl⟩
    next other =>
      exact grown.congr ((deletes.row _ _).trans (if_neg other))

theorem Grown.play (grown : s.Grown dataType id chain) (calls : List Call) :
    (Call.play call calls s).2.Grown dataType id
      ((Call.play call calls s).1.foldl (extend dataType id) chain) := by
  induction calls generalizing s chain with
  | nil => exact grown
  | cons c rest ih => exact ih (grown.step (.of_call s c))

/-- What a caller may conclude from an answer: a granted write answers with the caller's document,
with the next revision for an update, and this very document is stored; a deleted document is no
longer stored; any other call leaves the store as it is. -/
def Faithful (s : Store) (c : Call) (r : Result) (t : Store) : Prop :=
  match r with
  | .stored now =>
    ((∃ values, c = .insert now values) ∨
      ∃ d values, c = .update d values ∧ now = { d with revision := d.revision.next }) ∧
    ∃ row, t.row? now.dataType now.id = some row ∧ row.document = now
  | .deleted => ∃ d, c = .delete d ∧ t.row? d.dataType d.id = none
  | .found _ | .refused => t = s

theorem Effect.faithful (effect : s.Effect c r t) : s.Faithful c r t := by
  cases effect with
  | looked => rfl
  | refused => rfl
  | @inserted d values _ inserts =>
    exact ⟨.inl ⟨values, rfl⟩, _, (inserts.row _ _).trans (if_pos ⟨rfl, rfl⟩), rfl⟩
  | @updated d values old _ updates =>
    exact ⟨.inr ⟨d, values, rfl, rfl⟩, _, (updates.row _ _).trans (if_pos ⟨rfl, rfl⟩), rfl⟩
  | @deleted d old _ deletes =>
    exact ⟨d, rfl, (deletes.row _ _).trans (if_pos ⟨rfl, rfl⟩)⟩

/-- After any calls of an initially empty store, granted or refused, an identity of a data type is
not in the store and has no chain since its last deletion, or it is in the store and its chain is
one insert followed by updates, whose revisions are 0, 1, 2 and so on. The last of these stored the
document that is in the store, whose revision is the number of the updates. The next call, whatever
it is, can be told from its answer. -/
theorem revisions_count_updates (calls : List Call) :
    let ran := Call.play call calls empty
    (∀ dataType id, let chain := chainOf dataType id ran.1
      ran.2.row? dataType id = none ∧ chain = [] ∨
        ∃ row, ran.2.row? dataType id = some row ∧ Chain chain row.document ∧
          row.document.revision.number = chain.tail.length) ∧
      ∀ c, ran.2.Faithful c (call c ran.2).1 (call c ran.2).2 := by
  refine ⟨fun dataType id => ?_, fun c => (Effect.of_call _ c).faithful⟩
  have start : empty.Grown dataType id [] := .inl ⟨rfl, rfl⟩
  refine (start.play calls).imp_right ?_
  intro ⟨row, present, links⟩
  refine ⟨row, present, links, ?_⟩
  rw [chainOf, List.length_tail, links.length_eq, Nat.add_sub_cancel]

end Store

end Sagas
