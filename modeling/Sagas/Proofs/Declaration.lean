import Sagas.Proofs.Startup

/-!
# Declarations run once

A cache is asked for the rules of sagas at startup and then for every message. The first call for a
name runs the declaration that comes with it and claims the name for its data type, even if the
declaration fails. Every later call for the name works on what that declaration yielded, or is
refused for its data type; what its own declaration would yield by then plays no part.

Results:
1. `Remembers.after`: a cache knows of every name what the first call for it brought along.
2. `consulted`: one call, after the calls that were made before.
3. `play_filter`: the calls for one name, among calls for others.
4. `declared_once`: any sequence of calls.
-/

namespace Sagas

variable {D B : Type}

namespace RuleCache

/-! ## Calls -/

/-- A call of the cache, with its saga as it is at the time. -/
inductive Call (D B : Type) where
  /-- At startup. -/
  | register (saga : Saga D B)
  | get (type : SagaType B)
  | rulesFor (type : SagaType B) (message : Message B)

inductive Answer (B : Type) where
  | rules (rules : Except ConfigError (RuleSet B))
  | chosen (rules : Except ConfigError (List (Rule B)))

namespace Call

def type : Call D B → SagaType B
  | .register saga => saga.type
  | .get type | .rulesFor type _ => type

def name (call : Call D B) : String :=
  call.type.name

/-- What a call makes of the rules of its saga. -/
def choose (rules : Except ConfigError (RuleSet B)) : Call D B → Answer B
  | .register _ | .get _ => .rules rules
  | .rulesFor _ message => .chosen (rules.bind (·.forMessage message))

/-- The first call for a name. -/
def first? (calls : List (Call D B)) (name : String) : Option (Call D B) :=
  calls.find? (·.name = name)

/-- What is known of a name that this call was the first for. -/
def built (call : Call D B) : Built B :=
  ⟨call.type.dataType, call.type.declaration⟩

/-- The rules of a saga, where this call was the first for its name. -/
def rulesOf (first : Call D B) (type : SagaType B) : Except ConfigError (RuleSet B) :=
  if first.type.dataType = type.dataType then first.type.declaration
  else .error (.duplicateSagaType type.name first.type.dataType)

/-- The same call at a time when the declaration of its saga yields something else. -/
def redeclare (declaration : Except ConfigError (RuleSet B)) : Call D B → Call D B
  | .register saga => .get { saga.type with declaration }
  | .get type => .get { type with declaration }
  | .rulesFor type message => .rulesFor { type with declaration } message

end Call

def call (c : RuleCache B) : Call D B → Answer B × RuleCache B
  | .register saga =>
    let (rules, c) := c.get saga.type
    (.rules rules, c)
  | .get type =>
    let (rules, c) := c.get type
    (.rules rules, c)
  | .rulesFor type message =>
    let (rules, c) := c.rulesFor type message
    (.chosen rules, c)

/-- A call that was answered. -/
structure Consultation (D B : Type) where
  call : Call D B
  /-- Whether it ran the declaration of its saga. -/
  builds : Bool
  answer : Answer B

/-- Calls one after the other. -/
def play (c : RuleCache B) : List (Call D B) → List (Consultation D B)
  | [] => []
  | call :: rest => ⟨call, c.builds call.type, (c.call call).1⟩ :: (c.call call).2.play rest

variable {c c' : RuleCache B} {call : Call D B} {calls earlier : List (Call D B)} {name : String}

theorem call_eq : c.call call = (call.choose (c.get call.type).1, (c.get call.type).2) := by
  cases call <;> rfl

/-- A declaration that is not run might as well be another one. -/
theorem call_redeclare (idle : c.builds call.type = false)
    (declaration : Except ConfigError (RuleSet B)) :
    c.builds (call.redeclare declaration).type = false ∧
      c.call (call.redeclare declaration) = c.call call := by
  obtain ⟨known, here⟩ : ∃ known, c.built.get? call.type.name = some known := by
    simpa [builds, Dictionary.contains, Option.isSome_iff_exists] using idle
  refine ⟨by cases call <;> exact idle, ?_⟩
  rw [call_eq, call_eq]
  cases call <;> simp only [Call.type, Call.redeclare] at here ⊢ <;>
    simp only [get, here, Call.choose]

/-! ## What a cache knows -/

/-- The cache knows of every name what the first of these calls for it brought along. -/
def Remembers (c : RuleCache B) (calls : List (Call D B)) : Prop :=
  ∀ name, c.built.get? name = (Call.first? calls name).map Call.built

theorem remembers_empty : Remembers (D := D) (.empty : RuleCache B) [] :=
  fun _ => rfl

theorem builds_iff (remembers : c.Remembers earlier) :
    c.builds call.type = true ↔ ∀ other ∈ earlier, other.name ≠ call.name := by
  have known := remembers call.name
  simp only [builds, Dictionary.contains, show call.type.name = call.name from rfl, known]
  simp [Call.first?]

theorem first?_append (calls later : List (Call D B)) (name : String) :
    Call.first? (calls ++ later) name = (Call.first? calls name).or (Call.first? later name) :=
  List.find?_append

/-- A call adds what it brings along, if it is the first for its name. -/
theorem Remembers.after (remembers : c.Remembers earlier) (call : Call D B) :
    (c.call call).2.Remembers (earlier ++ [call]) := by
  intro name
  rw [call_eq, first?_append]
  cases known : c.built.get? call.type.name with
  | some built =>
    obtain ⟨first, isFirst, -⟩ := Option.map_eq_some_iff.1 ((remembers call.name).symm.trans known)
    simp only [get, known]
    rw [remembers name]
    by_cases same : call.name = name
    · subst same
      rw [isFirst]
      rfl
    · have other : Call.first? [call] name = none := by simp [Call.first?, same]
      rw [other, Option.or_none]
  | none =>
    have unseen := Option.map_eq_none_iff.1 ((remembers call.name).symm.trans known)
    simp only [get, known, Dictionary.get?_insert]
    by_cases same : call.name = name
    · subst same
      rw [if_pos (show call.name = call.type.name from rfl), unseen]
      simp [Call.first?, Call.built]
    · have other : Call.first? [call] name = none := by simp [Call.first?, same]
      rw [if_neg (show name ≠ call.type.name from Ne.symm same), other, Option.or_none,
        remembers name]

/-- A call is answered by the first one for its name, which may be itself. -/
theorem consulted (remembers : c.Remembers earlier) :
    ∃ first, Call.first? (earlier ++ [call]) call.name = some first ∧
      (c.call call).1 = call.choose (first.rulesOf call.type) := by
  rw [call_eq, first?_append]
  cases known : c.built.get? call.type.name with
  | some built =>
    obtain ⟨first, isFirst, rfl⟩ :=
      Option.map_eq_some_iff.1 ((remembers call.name).symm.trans known)
    refine ⟨first, by rw [isFirst]; rfl, ?_⟩
    simp only [get, known]
    rfl
  | none =>
    have unseen := Option.map_eq_none_iff.1 ((remembers call.name).symm.trans known)
    refine ⟨call, by rw [unseen]; simp [Call.first?], ?_⟩
    simp only [get, known]
    exact congrArg call.choose (if_pos rfl).symm

/-! ## Sequences of calls -/

/-- A call in a sequence, after those before it. -/
theorem entry_of_play (remembers : c.Remembers earlier) {place : Nat} {entry : Consultation D B}
    (here : (c.play calls)[place]? = some entry) : calls[place]? = some entry.call ∧
      (entry.builds = true ↔
        ∀ other ∈ earlier ++ calls.take place, other.name ≠ entry.call.name) ∧
      ∃ first, Call.first? (earlier ++ calls.take (place + 1)) entry.call.name = some first ∧
        entry.answer = entry.call.choose (first.rulesOf entry.call.type) := by
  induction calls generalizing c earlier place with
  | nil => cases here
  | cons call rest ih =>
    cases place with
    | zero =>
      obtain rfl := Option.some.inj here
      refine ⟨rfl, ?_, ?_⟩
      · rw [List.take_zero, List.append_nil]
        exact builds_iff remembers
      · exact consulted remembers
    | succ place =>
      have later := ih (remembers.after call) here
      simpa [List.append_assoc] using later

theorem calls_of_play : (c.play calls).map (·.call) = calls := by
  induction calls generalizing c with
  | nil => rfl
  | cons call rest ih => rw [play, List.map_cons, ih]

/-- What a call comes to depends only on what is known of its name, and so does what it leaves. -/
theorem call_congr (same : c.built.get? call.name = c'.built.get? call.name) :
    c.builds call.type = c'.builds call.type ∧ (c.call call).1 = (c'.call call).1 ∧
      (c.call call).2.built.get? call.name = (c'.call call).2.built.get? call.name := by
  have same : c.built.get? call.type.name = c'.built.get? call.type.name := same
  rw [call_eq, call_eq]
  refine ⟨by rw [builds, builds, Dictionary.contains, Dictionary.contains, same], ?_⟩
  simp only [get, same]
  cases known : c'.built.get? call.type.name with
  | some built => exact ⟨rfl, same⟩
  | none => simp [Dictionary.get?_insert, Call.name]

/-- A call leaves what is known of other names. -/
theorem get?_call (other : call.name ≠ name) :
    (c.call call).2.built.get? name = c.built.get? name := by
  rw [call_eq]
  cases known : c.built.get? call.type.name with
  | some built => simp only [get, known]
  | none =>
    simp only [get, known]
    exact (Dictionary.get?_insert ..).trans (if_neg (Ne.symm other))

/-- The calls for one name come to the same without the calls for others. -/
theorem play_filter (same : c.built.get? name = c'.built.get? name) :
    (c.play calls).filter (·.call.name = name) = c'.play (calls.filter (·.name = name)) := by
  induction calls generalizing c c' with
  | nil => rfl
  | cons call rest ih =>
    rw [play]
    by_cases mine : call.name = name
    · subst mine
      obtain ⟨builds, answer, left⟩ := call_congr same
      rw [List.filter_cons_of_pos (by simp), List.filter_cons_of_pos (by simp), play, builds,
        answer, ih left]
    · rw [List.filter_cons_of_neg (by simpa using mine),
        List.filter_cons_of_neg (by simpa using mine)]
      exact ih ((get?_call mine).trans same)

/-- What comes out of a sequence of calls, apart from the calls themselves. -/
def outcomes (log : List (Consultation D B)) : List (Bool × Answer B) :=
  log.map fun entry => (entry.builds, entry.answer)

/-- A declaration that is not run plays no part in a sequence of calls. -/
theorem play_redeclare {place : Nat} {entry : Consultation D B}
    (here : (c.play calls)[place]? = some entry) (idle : entry.builds = false)
    (declaration : Except ConfigError (RuleSet B)) :
    outcomes (c.play (calls.set place (entry.call.redeclare declaration))) =
      outcomes (c.play calls) := by
  induction calls generalizing c place with
  | nil => cases here
  | cons call rest ih =>
    cases place with
    | zero =>
      obtain rfl := Option.some.inj here
      have idle : c.builds call.type = false := idle
      obtain ⟨idle', same⟩ := call_redeclare idle declaration
      rw [List.set_cons_zero, play, play, same, idle, idle']
      rfl
    | succ place =>
      rw [List.set_cons_succ, play, play, outcomes, outcomes, List.map_cons, List.map_cons]
      exact congrArg _ (ih here)

/-- What comes of a sequence of calls of a cache. -/
structure DeclaredOnce (calls : List (Call D B)) (log : List (Consultation D B)) : Prop where
  /-- Every call is answered. -/
  answered : log.map (·.call) = calls
  /-- A call runs the declaration of its saga exactly if it is the first for the name. -/
  builds : ∀ place entry, log[place]? = some entry →
    (entry.builds = true ↔ ∀ other ∈ calls.take place, other.name ≠ entry.call.name)
  /-- No declaration is run twice. -/
  once : ∀ (place place' : Nat) (entry entry' : Consultation D B), log[place]? = some entry →
    log[place']? = some entry' → entry.call.name = entry'.call.name →
      entry.builds = true → entry'.builds = true → place = place'
  /-- Every call works on what the first one for its name has declared, be it an error, or is
  refused for having another data type than that one. -/
  answers : ∀ entry ∈ log, ∃ first, Call.first? calls entry.call.name = some first ∧
    entry.answer = entry.call.choose (first.rulesOf entry.call.type)
  /-- What a declaration that is not run would have yielded makes no difference to any call. -/
  unread : ∀ place entry, log[place]? = some entry → entry.builds = false → ∀ declaration,
    outcomes (RuleCache.empty.play (calls.set place (entry.call.redeclare declaration))) =
      outcomes log
  /-- The calls for one name come to the same without the calls for others. -/
  apart : ∀ name, log.filter (·.call.name = name) =
    RuleCache.empty.play (calls.filter (·.name = name))

/-- However a fresh cache is asked, the declaration of a name is run by the first call for it and
never again, and all calls for the name go by what it yielded then. -/
theorem declared_once (calls : List (Call D B)) :
    DeclaredOnce calls (RuleCache.empty.play calls) where
  answered := calls_of_play
  builds place entry here := by
    simpa using (entry_of_play remembers_empty here).2.1
  once := by
    -- Of two calls for one name the earlier one comes before the other, which therefore does not
    -- build.
    have never {place place' : Nat} {entry entry' : Consultation D B}
        (here : (RuleCache.empty.play calls)[place]? = some entry)
        (there : (RuleCache.empty.play calls)[place']? = some entry')
        (same : entry.call.name = entry'.call.name) (builds : entry'.builds = true) :
        ¬ place < place' := by
      intro earlier
      have unseen := (entry_of_play remembers_empty there).2.1.1 builds
      have called := (entry_of_play remembers_empty here).1
      have taken := (List.getElem?_take_of_lt earlier).trans called
      exact unseen entry.call (List.mem_append_right _ (List.mem_of_getElem? taken)) same
    intro place place' entry entry' here there same builds builds'
    exact Nat.le_antisymm (Nat.le_of_not_lt (never there here same.symm builds))
      (Nat.le_of_not_lt (never here there same builds'))
  answers entry member := by
    obtain ⟨place, here⟩ := List.getElem?_of_mem member
    obtain ⟨-, -, first, isFirst, answer⟩ := entry_of_play remembers_empty here
    refine ⟨first, ?_, answer⟩
    have whole := first?_append (calls.take (place + 1)) (calls.drop (place + 1)) entry.call.name
    rw [List.nil_append] at isFirst
    rw [List.take_append_drop, isFirst] at whole
    exact whole
  unread place entry here idle declaration := play_redeclare here idle declaration
  apart name := play_filter rfl

end RuleCache

end Sagas
